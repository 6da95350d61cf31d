import Mathlib.Data.List.Find
import MiniIotRobotEdge.AiHuffmanTree
import MiniIotRobotEdge.ByteMemory

/-!
# Huffman coding of mini-edge-ai

The model of `huffman_encode` and `huffman_decode` in `inference_opt.c`.  The
decoder asks before each symbol whether bits are still unread, but it reads
ahead of what it decodes, up to the longest code.  So it comes to the end of a
text only when the last two codes are longer together than the longest code.
-/

namespace MiniIotRobotEdge

namespace Ai

open BitString PrefixCode

section Encoding

/-- The buffer was cleared; a bit that is not set is left alone. -/
def writeBit (bitstream : Memory) (bitPos : Nat) (bit : Bool) : Memory :=
  if bit then
    Function.update bitstream (bitPos / 8)
      (UInt8.ofBitVec ((bitstream (bitPos / 8)).toBitVec ||| (1#8 <<< (7 - bitPos % 8))))
  else bitstream

/-- The lowest bits of a code, the highest of them first. -/
def encodeCode (hc : HuffmanCode) : Nat → Memory × Nat → Memory × Nat
  | 0, out => out
  | b + 1, out => encodeCode hc b (writeBit out.1 out.2 (hc.code.getLsbD b), out.2 + 1)

def encodeSymbol (enc : HuffmanEncoder) (out : Memory × Nat) (sym : Int) : Memory × Nat :=
  if sym < 0 ∨ enc.numSymbols ≤ sym then out
  else encodeCode (enc.codes sym.toNat) (enc.codes sym.toNat).codeLen out

/-- The stream with its number of bytes. -/
def huffmanEncode (enc : HuffmanEncoder) (symbols : List Int) (bitstream : Memory) :
    Option (Memory × Nat) :=
  if symbols = [] then none
  else
    let out := symbols.foldl (encodeSymbol enc) (bitstream, 0)
    some (out.1, (out.2 + 7) / 8)

end Encoding

section Decoding

def bitAt (bitstream : Memory) (pos : Nat) : Bool :=
  (bitstream (pos / 8)).toBitVec.getLsbD (7 - pos % 8)

structure DecodeState where
  buffer : BitVec 32
  bitsInBuffer : Nat
  bitsRead : Nat

/-- Read on, for at most `count` bits. -/
def fillBuffer (bitstream : Memory) (bitstreamBits : Nat) : Nat → DecodeState → DecodeState
  | 0, state => state
  | count + 1, state =>
      if state.bitsRead < bitstreamBits then
        fillBuffer bitstream bitstreamBits count
          ⟨push state.buffer (bitAt bitstream state.bitsRead), state.bitsInBuffer + 1,
            state.bitsRead + 1⟩
      else state

def maxCodeLen (enc : HuffmanEncoder) : Nat :=
  (List.range enc.numSymbols).foldl (fun longest i =>
    if longest < (enc.codes i).codeLen then (enc.codes i).codeLen else longest) 0

def codeMatches (enc : HuffmanEncoder) (state : DecodeState) (i : Nat) : Bool :=
  let len := (enc.codes i).codeLen
  len ≠ 0 ∧ len ≤ state.bitsInBuffer ∧
    (state.buffer >>> (state.bitsInBuffer - len)) &&& mask 32 len = (enc.codes i).code

/-- At most `remaining` symbols. -/
def decodeLoop (enc : HuffmanEncoder) (bitstream : Memory) (bitstreamBits : Nat) :
    Nat → DecodeState → List Int
  | 0, _ => []
  | remaining + 1, state =>
      if state.bitsRead < bitstreamBits then
        let state := fillBuffer bitstream bitstreamBits (maxCodeLen enc - state.bitsInBuffer) state
        match (List.range enc.numSymbols).find? (codeMatches enc state) with
        | none => []
        | some i =>
            let left := state.bitsInBuffer - (enc.codes i).codeLen
            (enc.codes i).symbol :: decodeLoop enc bitstream bitstreamBits remaining
              ⟨state.buffer &&& mask 32 left, left, state.bitsRead⟩
      else []

/-- The number of symbols, and the symbols. -/
def huffmanDecode (enc : HuffmanEncoder) (bitstream : Memory) (bitstreamBits maxSymbols : Nat) :
    Option (Nat × List Int) :=
  if maxSymbols = 0 then none
  else
    let symbols := decodeLoop enc bitstream bitstreamBits maxSymbols ⟨0, 0, 0⟩
    some (symbols.length, symbols)

end Decoding

/-- The length of the code of a symbol. -/
def HuffmanEncoder.lengthOf (enc : HuffmanEncoder) (sym : Int) : Nat :=
  (enc.codes sym.toNat).codeLen

/-- Encode a text into a cleared buffer, and decode what was written. -/
def huffmanRoundTrip (enc : HuffmanEncoder) (symbols : List Int) : Option (Nat × List Int) :=
  (huffmanEncode enc symbols fun _ => 0).bind fun out =>
    huffmanDecode enc out.1 (symbols.map enc.lengthOf).sum symbols.length

section Written

/-- The bits written so far, in a buffer that is clear behind them. -/
structure Written (out : Memory × Nat) (bits : List Bool) : Prop where
  position : out.2 = bits.length
  stream : ∀ pos, bitAt out.1 pos = bits.getD pos false

theorem bitAt_writeBit (bitstream : Memory) (bitPos pos : Nat) (bit : Bool) :
    bitAt (writeBit bitstream bitPos bit) pos =
      (bitAt bitstream pos || (bit && decide (bitPos = pos))) := by
  cases bit with
  | false => simp [writeBit]
  | true =>
      rw [writeBit, if_pos rfl, bitAt, bitAt]
      by_cases sameByte : pos / 8 = bitPos / 8
      · have place : 7 - bitPos % 8 = 7 - pos % 8 ↔ bitPos = pos := by omega
        rw [sameByte, Function.update_self, UInt8.toBitVec_ofBitVec, BitVec.getLsbD_or,
          ← BitVec.twoPow_eq, BitVec.getLsbD_twoPow]
        simp [place, show 7 - bitPos % 8 < 8 by omega]
      · have differ : bitPos ≠ pos := by
          rintro rfl
          exact sameByte rfl
        rw [Function.update_of_ne sameByte]
        simp [differ]

theorem Written.writeBit {out : Memory × Nat} {bits : List Bool} (written : Written out bits)
    (bit : Bool) : Written (writeBit out.1 out.2 bit, out.2 + 1) (bits ++ [bit]) where
  position := by rw [List.length_append, List.length_singleton, written.position]
  stream := fun pos => by
    rw [bitAt_writeBit, written.stream, written.position]
    rcases Nat.lt_trichotomy pos bits.length with before | rfl | behind
    · rw [List.getD_append _ _ _ _ before]
      simp [show bits.length ≠ pos by omega]
    · simp
    · have beyond : (bits ++ [bit]).length ≤ pos := by
        rw [List.length_append, List.length_singleton]
        omega
      rw [List.getD_eq_default _ _ behind.le, List.getD_eq_default _ _ beyond]
      simp [show bits.length ≠ pos by omega]

/-- A code is written bit by bit. -/
theorem written_encodeCode {hc : HuffmanCode} (front back : List Bool)
    (code : hc.code = word 32 (front ++ back)) (fits : back.length ≤ 32) {out : Memory × Nat}
    {bits : List Bool} (written : Written out bits) :
    Written (encodeCode hc back.length out) (bits ++ back) := by
  induction back generalizing front bits out with
  | nil => simpa [encodeCode] using written
  | cons bit rest ih =>
      rw [List.length_cons] at fits
      have next : hc.code.getLsbD rest.length = bit := by
        rw [code, getLsbD_word _ (by omega)]
        simp
      rw [List.length_cons, encodeCode, next]
      have later := ih (front ++ [bit]) (by simpa using code) (by omega) (written.writeBit bit)
      rwa [List.append_assoc, List.singleton_append] at later

variable {enc : HuffmanEncoder} {words : Nat → List Bool} (encodes : Encodes enc words)
  (short : ∀ i < enc.numSymbols, (enc.codes i).codeLen ≤ 32)
include encodes short

theorem Encodes.length_le {i : Nat} (inside : i < enc.numSymbols) : (words i).length ≤ 32 := by
  have bound := short i inside
  rwa [encodes.codes i inside] at bound

/-- A text is written word by word. -/
theorem written_symbols {symbols : List Int}
    (members : ∀ sym ∈ symbols, 0 ≤ sym ∧ sym < enc.numSymbols) {out : Memory × Nat}
    {bits : List Bool} (written : Written out bits) :
    Written (symbols.foldl (encodeSymbol enc) out)
      (bits ++ (symbols.map Int.toNat).flatMap words) := by
  induction symbols generalizing out bits with
  | nil => simpa using written
  | cons sym rest ih =>
      obtain ⟨lower, upper⟩ := members sym List.mem_cons_self
      have inside : sym.toNat < enc.numSymbols := by omega
      have one : Written (encodeSymbol enc out sym) (bits ++ words sym.toNat) := by
        rw [encodeSymbol, if_neg (by omega), encodes.codes _ inside]
        exact written_encodeCode [] _ rfl (encodes.length_le short inside) written
      have later := ih (fun other member => members other (List.mem_cons_of_mem _ member)) one
      rwa [List.append_assoc, ← List.flatMap_cons, ← List.map_cons] at later

end Written

section Windows

/-- The buffer holds a window of bits, and the others are unread. -/
structure Window (bits : List Bool) (state : DecodeState) (window unread : List Bool) : Prop where
  count : state.bitsInBuffer = window.length
  buffer : state.buffer = word 32 window
  unread : unread = bits.drop state.bitsRead

variable {bits window unread : List Bool} {state : DecodeState} {bitstream : Memory}

theorem Window.unread_ne_nil_iff (holds : Window bits state window unread) :
    unread ≠ [] ↔ state.bitsRead < bits.length := by
  rw [holds.unread, ne_eq, List.drop_eq_nil_iff, Nat.not_le]

/-- Reading on moves bits into the window. -/
theorem window_fillBuffer (stream : ∀ pos, bitAt bitstream pos = bits.getD pos false)
    (holds : Window bits state window unread) (count : Nat) :
    Window bits (fillBuffer bitstream bits.length count state) (window ++ unread.take count)
      (unread.drop count) := by
  induction count generalizing state window unread with
  | zero => simpa [fillBuffer] using holds
  | succ count ih =>
      rw [fillBuffer]
      split_ifs with more
      · have next : unread = bits[state.bitsRead] :: bits.drop (state.bitsRead + 1) := by
          rw [holds.unread, List.drop_eq_getElem_cons more]
        have bit : bitAt bitstream state.bitsRead = bits[state.bitsRead] := by
          rw [stream, List.getD_eq_getElem _ _ more]
        have one : Window bits
            ⟨push state.buffer (bitAt bitstream state.bitsRead), state.bitsInBuffer + 1,
              state.bitsRead + 1⟩
            (window ++ [bits[state.bitsRead]]) (bits.drop (state.bitsRead + 1)) := by
          refine ⟨?_, ?_, rfl⟩
          · rw [List.length_append, holds.count, List.length_singleton]
          · rw [word_append_singleton, holds.buffer, bit]
        have later := ih one
        rw [List.append_assoc, List.singleton_append] at later
        rw [next, List.take_succ_cons, List.drop_succ_cons]
        exact later
      · have none : unread = [] := by
          by_contra some
          exact more (holds.unread_ne_nil_iff.mp some)
        rw [none, List.take_nil, List.drop_nil, List.append_nil, ← none]
        exact holds

section Matching

variable {enc : HuffmanEncoder} {words : Nat → List Bool} (encodes : Encodes enc words)
include encodes

/-- The comparison with the code sees the front of the window. -/
theorem codeMatches_eq (holds : Window bits state window unread) (fits : window.length ≤ 32)
    {i : Nat} (inside : i < enc.numSymbols) :
    codeMatches enc state i = (words i).isPrefixOf window := by
  have nonempty := List.length_pos_iff.mpr (encodes.positive i inside)
  rw [codeMatches, encodes.codes i inside, holds.count, holds.buffer, Bool.eq_iff_iff,
    List.isPrefixOf_iff_prefix, decide_eq_true_iff]
  dsimp only
  constructor
  · rintro ⟨_, short, same⟩
    have split := List.take_append_drop (words i).length window
    have frontLength : (window.take (words i).length).length = (words i).length := by
      rw [List.length_take]
      omega
    have front := shifted_mask (window.take (words i).length) (window.drop (words i).length)
      (show _ ≤ 32 by rw [split]; exact fits)
    rw [split, frontLength, List.length_drop, same] at front
    have equal := word_injective frontLength.symm (by omega) front
    rw [equal]
    exact List.take_prefix _ _
  · rintro ⟨rest, rfl⟩
    have front := shifted_mask (words i) rest fits
    rw [List.length_append] at fits ⊢
    rw [Nat.add_sub_cancel_left, front]
    exact ⟨by omega, by omega, rfl⟩

/-- Taking a code off the front of the window. -/
theorem window_consume (holds : Window bits state window unread) {i : Nat}
    (inside : i < enc.numSymbols) (isPrefix : words i <+: window) :
    Window bits
      ⟨state.buffer &&& mask 32 (state.bitsInBuffer - (enc.codes i).codeLen),
        state.bitsInBuffer - (enc.codes i).codeLen, state.bitsRead⟩
      (window.drop (words i).length) unread := by
  obtain ⟨rest, rfl⟩ := isPrefix
  rw [encodes.codes i inside, holds.count, holds.buffer]
  dsimp only
  rw [List.length_append, Nat.add_sub_cancel_left, List.drop_left, masked]
  exact ⟨rfl, rfl, holds.unread⟩

/-- The loop is the decoder that reads ahead. -/
theorem decodeLoop_eq (stream : ∀ pos, bitAt bitstream pos = bits.getD pos false)
    (bounded : maxCodeLen enc ≤ 32) (remaining : Nat)
    (holds : Window bits state window unread) (small : window.length ≤ maxCodeLen enc) :
    decodeLoop enc bitstream bits.length remaining state =
      (decodeAhead words (List.range enc.numSymbols) (maxCodeLen enc) remaining window unread).map
        fun i : Nat => (i : Int) := by
  induction remaining generalizing state window unread with
  | zero => rfl
  | succ remaining ih =>
      rw [decodeLoop, decodeAhead]
      by_cases more : state.bitsRead < bits.length
      · have filled := window_fillBuffer stream holds (maxCodeLen enc - window.length)
        have filledSmall : (window ++ unread.take (maxCodeLen enc - window.length)).length ≤
            maxCodeLen enc := by
          rw [List.length_append, List.length_take]
          omega
        rw [if_pos more, if_neg (holds.unread_ne_nil_iff.mpr more), holds.count]
        dsimp only
        have search : (List.range enc.numSymbols).find? (codeMatches enc
            (fillBuffer bitstream bits.length (maxCodeLen enc - window.length) state)) =
            matching words (List.range enc.numSymbols)
              (window ++ unread.take (maxCodeLen enc - window.length)) := by
          apply List.find?_congr
          intro i member
          exact codeMatches_eq encodes filled (by omega) (List.mem_range.mp member)
        rw [search]
        cases found : matching words (List.range enc.numSymbols)
            (window ++ unread.take (maxCodeLen enc - window.length)) with
        | none => rfl
        | some i =>
            have inside := List.mem_range.mp (List.mem_of_find?_eq_some found)
            have isPrefix : (words i).isPrefixOf
                (window ++ unread.take (maxCodeLen enc - window.length)) = true :=
              List.find?_some (p := fun symbol => (words symbol).isPrefixOf
                (window ++ unread.take (maxCodeLen enc - window.length))) found
            have later := ih (window_consume encodes filled inside
              (List.isPrefixOf_iff_prefix.mp isPrefix)) (by
                rw [List.length_drop]
                omega)
            dsimp only
            rw [later, List.map_cons]
            congr 1
            rw [encodes.codes i inside]
      · have none : unread = [] := by
          by_contra some
          exact more (holds.unread_ne_nil_iff.mp some)
        rw [if_neg more, if_pos none, List.map_nil]

end Matching

end Windows

section RoundTrip

variable {enc : HuffmanEncoder}

theorem maxCodeLen_spec (enc : HuffmanEncoder) :
    (∀ i < enc.numSymbols, (enc.codes i).codeLen ≤ maxCodeLen enc) ∧
      ∀ bound, (∀ i < enc.numSymbols, (enc.codes i).codeLen ≤ bound) → maxCodeLen enc ≤ bound := by
  unfold maxCodeLen
  induction enc.numSymbols with
  | zero => exact ⟨fun i inside => absurd inside (Nat.not_lt_zero i), fun bound _ => bound.zero_le⟩
  | succ count ih =>
      obtain ⟨above, least⟩ := ih
      rw [List.range_succ, List.foldl_append, List.foldl_cons, List.foldl_nil]
      constructor
      · intro i inside
        rcases Nat.lt_succ_iff_lt_or_eq.mp inside with before | rfl
        · have old := above i before
          split_ifs <;> omega
        · split_ifs <;> omega
      · intro bound bounded
        have last := bounded count (Nat.lt_succ_self count)
        have old := least bound fun i inside => bounded i (by omega)
        split_ifs <;> omega

theorem Encodes.lengths_eq {words : Nat → List Bool} (encodes : Encodes enc words)
    {symbols : List Int} (members : ∀ sym ∈ symbols, 0 ≤ sym ∧ sym < enc.numSymbols) :
    (symbols.map Int.toNat).map (fun i => (words i).length) = symbols.map enc.lengthOf := by
  rw [List.map_map]
  apply List.map_congr_left
  intro sym member
  obtain ⟨lower, upper⟩ := members sym member
  rw [HuffmanEncoder.lengthOf, encodes.codes _ (by omega)]
  rfl

/-- Reading back what was written. -/
theorem huffmanRoundTrip_eq {words : Nat → List Bool} (encodes : Encodes enc words)
    (short : ∀ i < enc.numSymbols, (enc.codes i).codeLen ≤ 32) {symbols : List Int}
    (nonempty : symbols ≠ []) (members : ∀ sym ∈ symbols, 0 ≤ sym ∧ sym < enc.numSymbols) :
    huffmanRoundTrip enc symbols =
      let decoded := (decodeAhead words (List.range enc.numSymbols) (maxCodeLen enc)
        symbols.length [] ((symbols.map Int.toNat).flatMap words)).map fun i : Nat => (i : Int)
      some (decoded.length, decoded) := by
  have clear : Written ((fun _ => 0), 0) [] := ⟨rfl, fun pos => by simp [bitAt]⟩
  have written := written_symbols encodes short members clear
  rw [List.nil_append] at written
  have total : (symbols.map enc.lengthOf).sum = ((symbols.map Int.toNat).flatMap words).length := by
    rw [List.length_flatMap, encodes.lengths_eq members]
  have start : Window ((symbols.map Int.toNat).flatMap words) ⟨0, 0, 0⟩ []
      ((symbols.map Int.toNat).flatMap words) := ⟨rfl, rfl, rfl⟩
  have loop := decodeLoop_eq encodes written.stream ((maxCodeLen_spec enc).2 32 short)
    symbols.length start (Nat.zero_le _)
  rw [huffmanRoundTrip, huffmanEncode, if_neg nonempty, Option.bind_some, huffmanDecode,
    if_neg (List.length_pos_iff.mpr nonempty).ne', total, loop]

theorem map_toNat {symbols : List Int} (lower : ∀ sym ∈ symbols, 0 ≤ sym) :
    (symbols.map Int.toNat).map (fun i : Nat => (i : Int)) = symbols := by
  have same : (symbols.map Int.toNat).map (fun i : Nat => (i : Int)) = symbols.map id := by
    rw [List.map_map]
    apply List.map_congr_left
    intro sym member
    exact Int.toNat_of_nonneg (lower sym member)
  rw [same, List.map_id]

/-- The decoder on the words of a text. -/
theorem roundTrip_iff {words : Nat → List Bool} (encodes : Encodes enc words)
    (short : ∀ i < enc.numSymbols, (enc.codes i).codeLen ≤ 32) {symbols : List Int}
    (nonempty : symbols ≠ []) (members : ∀ sym ∈ symbols, 0 ≤ sym ∧ sym < enc.numSymbols) :
    huffmanRoundTrip enc symbols = some (symbols.length, symbols) ↔
      EndsLong (maxCodeLen enc) (symbols.map enc.lengthOf) := by
  have textMembers : ∀ i ∈ symbols.map Int.toNat, i ∈ List.range enc.numSymbols := by
    intro i member
    obtain ⟨sym, symMember, rfl⟩ := List.mem_map.mp member
    obtain ⟨lower, upper⟩ := members sym symMember
    rw [List.mem_range]
    omega
  have wordsShort : ∀ i ∈ List.range enc.numSymbols, (words i).length ≤ maxCodeLen enc := by
    intro i member
    have inside := List.mem_range.mp member
    have bound := (maxCodeLen_spec enc).1 i inside
    rwa [encodes.codes i inside] at bound
  have bits : (symbols.map Int.toNat).flatMap words ≠ [] := by
    obtain ⟨sym, member⟩ := List.exists_mem_of_ne_nil symbols nonempty
    obtain ⟨lower, upper⟩ := members sym member
    intro empty
    have word := List.flatMap_eq_nil_iff.mp empty sym.toNat (List.mem_map_of_mem member)
    exact encodes.positive sym.toNat (by omega) word
  have decodes := decodeAhead_eq_iff encodes.prefixFree wordsShort textMembers
    (by simpa using nonempty) (Nat.zero_le _) (List.nil_append _)
  have back := map_toNat fun sym member => (members sym member).1
  rw [List.length_map, encodes.lengths_eq members] at decodes
  rw [huffmanRoundTrip_eq encodes short nonempty members]
  dsimp only
  constructor
  · intro same
    have decoded := (Prod.mk.inj (Option.some.inj same)).2
    have texts := List.map_injective_iff.mpr (fun _ _ same => Int.natCast_inj.mp same)
      (decoded.trans back.symm)
    exact (decodes.mp texts).2
  · intro long
    rw [decodes.mpr ⟨bits, long⟩, back]

/-- A text comes back exactly when it has one symbol, or its last two codes are
longer together than the longest code. -/
theorem huffman_round_trip_iff {freqs : Nat → UInt32} {nSymbols : Nat} (positive : 0 < nSymbols)
    (bounded : nSymbols ≤ 256)
    (total : ((List.range nSymbols).map fun i => max 1 (freqs i).toNat).sum < 2 ^ 32)
    (enc : HuffmanEncoder) :
    ∃ built, huffmanBuildTree freqs nSymbols enc = some built ∧
      ((∀ i < nSymbols, (built.codes i).codeLen ≤ 32) →
        ∀ symbols : List Int, symbols ≠ [] → (∀ sym ∈ symbols, 0 ≤ sym ∧ sym < nSymbols) →
          (huffmanRoundTrip built symbols = some (symbols.length, symbols) ↔
            symbols.length = 1 ∨
              maxCodeLen built <
                ((symbols.drop (symbols.length - 2)).map built.lengthOf).sum)) := by
  obtain ⟨built, words, builds, rfl, encodes⟩ :=
    huffmanBuildTree_encodes positive bounded total enc
  refine ⟨built, builds, fun short symbols nonempty members => ?_⟩
  rw [roundTrip_iff encodes short nonempty members, EndsLong, List.length_map, List.map_drop]

end RoundTrip

def sampleFreqs (i : Nat) : UInt32 := [10, 5, 2, 1].getD i 0

def blankEncoder : HuffmanEncoder := ⟨fun _ => ⟨0, 0, 0⟩, 0, 0⟩

theorem sample_builds : (huffmanBuildTree sampleFreqs 4 blankEncoder).isSome = true := by
  decide +kernel

theorem sample_short : ∀ i < 4,
    (((huffmanBuildTree sampleFreqs 4 blankEncoder).get sample_builds).codes i).codeLen ≤ 32 := by
  decide +kernel

theorem huffman_round_trip_iff_sample :
    (huffmanBuildTree sampleFreqs 4 blankEncoder).bind (huffmanRoundTrip · [0, 1, 0, 2, 3]) =
      some (5, [0, 1, 0, 2, 3]) := by
  obtain ⟨built, builds, comesBack⟩ :=
    huffman_round_trip_iff (show 0 < 4 by decide) (by decide)
      (show ((List.range 4).map fun i => max 1 (sampleFreqs i).toNat).sum < 2 ^ 32 by
        decide +kernel) blankEncoder
  have same : (huffmanBuildTree sampleFreqs 4 blankEncoder).get sample_builds = built :=
    Option.get_of_eq_some sample_builds builds
  have long : maxCodeLen built < (([0, 1, 0, 2, 3].drop 3).map built.lengthOf).sum := by
    rw [← same]
    decide +kernel
  rw [builds, Option.bind_some]
  exact (comesBack (same ▸ sample_short) [0, 1, 0, 2, 3] (by simp) (by simp)).mpr (.inr long)

/-- Of three symbols with a code of one bit only the first one comes back. -/
theorem huffman_tail_lost : ¬∀ (freqs : Nat → UInt32) (nSymbols : Nat) (enc built : HuffmanEncoder),
    0 < nSymbols → nSymbols ≤ 256 →
      ((List.range nSymbols).map fun i => max 1 (freqs i).toNat).sum < 2 ^ 32 →
        huffmanBuildTree freqs nSymbols enc = some built →
          (∀ i < nSymbols, (built.codes i).codeLen ≤ 32) →
            ∀ symbols : List Int, symbols ≠ [] → (∀ sym ∈ symbols, 0 ≤ sym ∧ sym < nSymbols) →
              huffmanRoundTrip built symbols = some (symbols.length, symbols) := by
  intro every
  have back := every sampleFreqs 4 blankEncoder _ (by decide) (by decide) (by decide +kernel)
    (Option.some_get sample_builds).symm sample_short [0, 0, 0] (by simp) (by simp)
  revert back
  decide +kernel

end Ai

end MiniIotRobotEdge
