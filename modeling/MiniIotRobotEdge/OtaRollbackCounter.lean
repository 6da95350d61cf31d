import MiniIotRobotEdge.OtaSignedImage
import MiniIotRobotEdge.StepRuns

/-!
# The monotonic counter of mini-ota-update

Runs of `sig_img_verify_full` on one device.  The rollback check stores the
counter value of the header before the key lookup, the signature check and the
hash check, so that an image which fails one of those has already moved the
counter.  The runs in which every such write is earned by the later checks are
exactly those in which a failed call leaves the counter alone.
-/

namespace MiniIotRobotEdge

namespace Ota

open StepRuns

/-- The arguments of one `sig_img_verify_full` call; `behind` is what the stack
holds behind the copy of the header. -/
structure VerifyCall where
  image : Memory
  imageLen : Nat
  behind : Memory
  keys : List SigImgPublicKey
  aesKeyLen : Option Nat

namespace VerifyCall

def header (call : VerifyCall) : SignedImageHeader := sigImgHeaderParse call.image

/-- The checks of the header, all made before the rollback check. -/
def HeaderValid (call : VerifyCall) : Prop :=
  signedImageHeaderBytes ≤ call.imageLen ∧ sigImgHeaderValidate call.image call.behind = .ok

/-- The checks made after the rollback check. -/
def LaterChecksPass (call : VerifyCall) : Prop :=
  verifyWithKeys call.image call.imageLen call.header.keyId call.keys = some .ok ∧
    sigImgVerifyHash call.image call.header.imageHash = .ok ∧
    (call.header.encryption = 0 ∨ call.aesKeyLen.getD 0 ≠ 0)

instance (call : VerifyCall) : Decidable call.HeaderValid :=
  inferInstanceAs (Decidable (_ ∧ _))

instance (call : VerifyCall) : Decidable call.LaterChecksPass :=
  inferInstanceAs (Decidable (_ ∧ _))

theorem minCounterValue_lt (call : VerifyCall) : call.header.minCounterValue < 2 ^ 32 := by
  have bound := Memory.load_lt call.image 196 4
  simpa [header, sigImgHeaderParse] using bound

end VerifyCall

variable {σ : Type}

/-- A hardware counter: it can be read, and a larger value that is written is
read back. -/
structure CounterHal (σ : Type) where
  readCounter : σ → Nat
  writeCounter : Option (Nat → σ → σ)
  written : ∀ write ∈ writeCounter, ∀ value state, readCounter state < value → value < 2 ^ 32 →
    readCounter (write value state) = value

namespace CounterHal

/-- The functions of the counter as `sig_img_hal_t` holds them. -/
def hal (counter : CounterHal σ) : SigImgHal σ := ⟨some counter.readCounter, counter.writeCounter⟩

/-- Store a value, if the hardware can. -/
def store (counter : CounterHal σ) (value : Nat) (state : σ) : σ :=
  match counter.writeCounter with
  | none => state
  | some write => write value state

end CounterHal

variable (counter : CounterHal σ)

def verifyCall (state : σ) (call : VerifyCall) : SigImgResult × σ :=
  sigImgVerifyFull call.image call.imageLen call.behind ⟨call.keys, counter.hal, call.aesKeyLen⟩
    state

/-- The hardware after a call. -/
def verifyStep (state : σ) (call : VerifyCall) : σ := (verifyCall counter state call).2

/-- The rollback check is reached and finds a counter value to store. -/
def WritesCounter (state : σ) (call : VerifyCall) : Prop :=
  call.HeaderValid ∧ counter.writeCounter.isSome ∧
    counter.readCounter state < call.header.minCounterValue

/-- A value is stored only for an image that passes the later checks. -/
def WriteEarned (state : σ) (call : VerifyCall) : Prop :=
  WritesCounter counter state call → call.LaterChecksPass

instance (state : σ) (call : VerifyCall) : Decidable (WritesCounter counter state call) :=
  inferInstanceAs (Decidable (_ ∧ _))

instance (state : σ) (call : VerifyCall) : Decidable (WriteEarned counter state call) :=
  inferInstanceAs (Decidable (_ → _))

/-- The counter value of the image when it is accepted. -/
def acceptedValue (state : σ) (call : VerifyCall) : Nat :=
  if (verifyCall counter state call).1 = .ok then call.header.minCounterValue else 0

/-- The largest `min_counter_value` of the images accepted in a run. -/
def largestAccepted : σ → List VerifyCall → Nat
  | _, [] => 0
  | state, call :: rest =>
      max (acceptedValue counter state call) (largestAccepted (verifyStep counter state call) rest)

/-- A failed call leaves the counter as it was. -/
def FailureKeepsCounter (state : σ) (call : VerifyCall) : Prop :=
  (verifyCall counter state call).1 ≠ .ok →
    counter.readCounter (verifyStep counter state call) = counter.readCounter state

/-- What the counter is for, over a run of calls. -/
structure CounterProtected (initial : σ) (calls : List VerifyCall) : Prop where
  unchanged : Throughout (verifyStep counter) (FailureKeepsCounter counter) initial calls
  monotone : Throughout (verifyStep counter) (fun state call =>
    counter.readCounter state ≤ counter.readCounter (verifyStep counter state call)) initial calls
  bounded : ∀ before, before <+: calls →
    counter.readCounter (after (verifyStep counter) initial before) ≤
      max (counter.readCounter initial) (largestAccepted counter initial before)

variable {counter}

/-- The result of the checks after the rollback check. -/
def laterResult (call : VerifyCall) : SigImgResult :=
  match verifyWithKeys call.image call.imageLen call.header.keyId call.keys with
  | none => .errKey
  | some signed =>
      if signed ≠ .ok then signed
      else if sigImgVerifyHash call.image call.header.imageHash ≠ .ok then
        sigImgVerifyHash call.image call.header.imageHash
      else if call.header.encryption ≠ 0 ∧ call.aesKeyLen.getD 0 = 0 then .errKey
      else .ok

theorem laterResult_ok_iff (call : VerifyCall) :
    laterResult call = .ok ↔ call.LaterChecksPass := by
  unfold laterResult VerifyCall.LaterChecksPass
  split
  case h_1 missing => simp [missing]
  case h_2 signed found =>
    rw [found]
    split_ifs with wrongSignature wrongHash noKey
    · simp [wrongSignature]
    · simp [wrongHash]
    · simp [noKey.1, noKey.2]
    · simp only [not_not] at wrongSignature wrongHash
      simp only [wrongSignature, wrongHash, true_and, true_iff]
      exact or_iff_not_imp_left.mpr (not_and.mp noKey)

/-- The rollback check either refuses, or allows and stores a larger value. -/
theorem checkAntiRollback_hal (state : σ) (header : SignedImageHeader) :
    sigImgCheckAntiRollback header counter.hal state =
      if header.minCounterValue < counter.readCounter state then (false, state)
      else if counter.readCounter state < header.minCounterValue then
        (true, counter.store header.minCounterValue state)
      else (true, state) := by
  unfold sigImgCheckAntiRollback CounterHal.hal CounterHal.store
  cases counter.writeCounter <;> simp

/-- The whole call: the header, the rollback check, the later checks. -/
theorem verifyCall_eq (state : σ) (call : VerifyCall) : verifyCall counter state call =
    if call.imageLen < signedImageHeaderBytes then (.errParam, state)
    else if sigImgHeaderValidate call.image call.behind ≠ .ok then
      (sigImgHeaderValidate call.image call.behind, state)
    else if call.header.minCounterValue < counter.readCounter state then (.errRollback, state)
    else if counter.readCounter state < call.header.minCounterValue then
      (laterResult call, counter.store call.header.minCounterValue state)
    else (laterResult call, state) := by
  unfold verifyCall sigImgVerifyFull laterResult
  dsimp only
  have header : sigImgHeaderParse call.image = call.header := rfl
  have paired : ∀ (test : Prop) [Decidable test] (yes no : SigImgResult) (rolled : σ),
      (if test then (yes, rolled) else (no, rolled)) = (if test then yes else no, rolled) := by
    intro test _ yes no rolled
    split_ifs <;> rfl
  rw [header, checkAntiRollback_hal]
  by_cases refused : call.header.minCounterValue < counter.readCounter state
  · simp only [refused, if_true]
  simp only [refused, if_false]
  by_cases larger : counter.readCounter state < call.header.minCounterValue
  all_goals
    simp only [larger, if_true, if_false, Bool.true_eq_false]
    cases verifyWithKeys call.image call.imageLen call.header.keyId call.keys with
    | none => rfl
    | some signed => simp only [paired]

/-- A call that gets past the header and finds a larger counter value stores
it; no other call touches the hardware. -/
theorem verifyStep_eq (state : σ) (call : VerifyCall) : verifyStep counter state call =
    if WritesCounter counter state call then counter.store call.header.minCounterValue state
    else state := by
  have noWrite : ¬counter.writeCounter.isSome →
      counter.store call.header.minCounterValue state = state := by
    intro absent
    unfold CounterHal.store
    cases given : counter.writeCounter with
    | none => rfl
    | some write => simp [given] at absent
  unfold verifyStep WritesCounter VerifyCall.HeaderValid
  rw [verifyCall_eq]
  split_ifs with short invalid refused larger
  all_goals grind

/-- A call succeeds when all the checks pass. -/
theorem verifyCall_ok_iff (state : σ) (call : VerifyCall) :
    (verifyCall counter state call).1 = .ok ↔ call.HeaderValid ∧
      counter.readCounter state ≤ call.header.minCounterValue ∧ call.LaterChecksPass := by
  unfold VerifyCall.HeaderValid
  rw [verifyCall_eq, ← laterResult_ok_iff]
  split_ifs with short invalid refused larger
  · simp [short]
  · simp [invalid]
  · simp [refused]
  · simp only [not_lt, not_not] at short invalid
    simp [short, invalid, larger.le]
  · simp only [not_lt, not_not] at short invalid refused
    simp [short, invalid, refused]

theorem readCounter_verifyStep (state : σ) (call : VerifyCall) :
    counter.readCounter (verifyStep counter state call) =
      if WritesCounter counter state call then call.header.minCounterValue
      else counter.readCounter state := by
  rw [verifyStep_eq]
  split_ifs with writes
  · obtain ⟨_, present, larger⟩ := writes
    obtain ⟨write, given⟩ := Option.isSome_iff_exists.mp present
    have stored : counter.store call.header.minCounterValue state =
        write call.header.minCounterValue state := by
      unfold CounterHal.store
      rw [given]
    rw [stored]
    exact counter.written write given _ _ larger call.minCounterValue_lt
  · rfl

theorem readCounter_le_verifyStep (state : σ) (call : VerifyCall) :
    counter.readCounter state ≤ counter.readCounter (verifyStep counter state call) := by
  rw [readCounter_verifyStep]
  split_ifs with writes
  · exact writes.2.2.le
  · exact le_rfl

/-- Whether a failure keeps the counter is decided by the order of the checks. -/
theorem failureKeepsCounter_iff (state : σ) (call : VerifyCall) :
    FailureKeepsCounter counter state call ↔ WriteEarned counter state call := by
  unfold FailureKeepsCounter WriteEarned
  rw [readCounter_verifyStep, Ne, verifyCall_ok_iff]
  constructor
  · intro keeps writes
    by_contra unearned
    have same := keeps fun passed => unearned passed.2.2
    rw [if_pos writes] at same
    exact writes.2.2.ne' same
  · intro earned failed
    refine if_neg fun writes => failed ?_
    exact ⟨writes.1, writes.2.2.le, earned writes⟩

/-- A value that was earned is one of an accepted image. -/
theorem readCounter_verifyStep_le {state : σ} {call : VerifyCall}
    (earned : WriteEarned counter state call) :
    counter.readCounter (verifyStep counter state call) ≤
      max (counter.readCounter state) (acceptedValue counter state call) := by
  rw [readCounter_verifyStep]
  split_ifs with writes
  · have accepted : (verifyCall counter state call).1 = .ok :=
      (verifyCall_ok_iff state call).mpr ⟨writes.1, writes.2.2.le, earned writes⟩
    unfold acceptedValue
    rw [if_pos accepted]
    exact le_max_right _ _
  · exact le_max_left _ _

theorem readCounter_after_le {initial : σ} {calls : List VerifyCall}
    (earned : Throughout (verifyStep counter) (WriteEarned counter) initial calls) :
    counter.readCounter (after (verifyStep counter) initial calls) ≤
      max (counter.readCounter initial) (largestAccepted counter initial calls) := by
  induction calls generalizing initial with
  | nil => exact le_max_left _ _
  | cons call rest ih =>
      have first := readCounter_verifyStep_le earned.1
      have later := ih earned.2
      rw [after_cons, largestAccepted]
      omega

/-- The counter is protected over a run exactly when every value that the run
stores is earned by the checks which come after the write. -/
theorem counterProtected_iff (counter : CounterHal σ) (initial : σ) (calls : List VerifyCall) :
    CounterProtected counter initial calls ↔
      Throughout (verifyStep counter) (WriteEarned counter) initial calls := by
  have same : Throughout (verifyStep counter) (FailureKeepsCounter counter) initial calls ↔
      Throughout (verifyStep counter) (WriteEarned counter) initial calls :=
    throughout_congr failureKeepsCounter_iff
  constructor
  · exact fun protected_ => same.mp protected_.unchanged
  · intro earned
    exact ⟨same.mpr earned, throughout_of_forall readCounter_le_verifyStep,
      fun before isPrefix => readCounter_after_le (earned.of_prefix isPrefix)⟩

/-- A counter kept in a variable. -/
def plainCounter : CounterHal Nat where
  readCounter := id
  writeCounter := some fun value _ => value
  written := by
    rintro write given value state _ _
    obtain rfl := Option.some.inj given
    rfl

/-- The sample header with a counter value, signed by nobody. -/
def unsignedImage : Memory := resign (sampleFields.store 196 4 7) (fun _ => 0) []

/-- No key belongs to the image, and the counter moves from 3 to 7. -/
theorem counter_moved_without_key :
    ¬∀ (initial : Nat) (calls : List VerifyCall), CounterProtected plainCounter initial calls := by
  intro always
  have unchanged := (always 3 [⟨unsignedImage, 513, fun _ => 0, [], none⟩]).unchanged.1
  have fields : FieldsValid (sigImgHeaderParse (sampleFields.store 196 4 7)) := by
    constructor <;> decide +kernel
  have valid : sigImgHeaderValidate unsignedImage (fun _ => 0) = .ok :=
    sigImgHeaderValidate_resign _ _ _ fields
  have minimum : (sigImgHeaderParse unsignedImage).minCounterValue = 7 := by decide +kernel
  have failed : (verifyCall plainCounter 3 ⟨unsignedImage, 513, fun _ => 0, [], none⟩).1 ≠ .ok := by
    rw [Ne, verifyCall_ok_iff]
    rintro ⟨_, _, keys, _⟩
    simp [verifyWithKeys] at keys
  have moved := unchanged failed
  have larger : 3 < (sigImgHeaderParse unsignedImage).minCounterValue := by omega
  rw [readCounter_verifyStep, if_pos ⟨⟨by decide, valid⟩, rfl, larger⟩] at moved
  exact absurd (minimum.symm.trans moved) (by decide)

end Ota

end MiniIotRobotEdge
