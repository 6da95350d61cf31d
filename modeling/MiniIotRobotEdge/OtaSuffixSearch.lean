import MiniIotRobotEdge.OtaDeltaRoundTrip
import MiniIotRobotEdge.SuffixArrays

/-!
# The search in a suffix array

`delta_sa_search` bisects the array and keeps the best of the suffixes that it compares.  What it
leaves out lies behind a suffix that it has compared, and shares no longer prefix with the pattern.
The sum of the two bounds is an `int32_t`, and overflows on the way to the right end of an array of
more than 2^30 entries.
-/

namespace MiniIotRobotEdge

namespace Ota

open SuffixArrays

/-- The sum of two `int32_t`; there is no result when it overflows. -/
def addInt32 (first second : Int) : Option Int :=
  if -2 ^ 31 ≤ first + second ∧ first + second < 2 ^ 31 then some (first + second) else none

/-- The loop of `delta_sa_search` with the sum as the source computes it. -/
def saSearchLoop32 (sa : Nat → Nat) (data pattern : List UInt8) (lo hi : Int)
    (best : Int × Nat) : Option (Int × Nat) :=
  if lo ≤ hi then
    match addInt32 lo hi with
    | none => none
    | some _ =>
        let mid := (lo + hi) / 2
        let spos := sa mid.toNat
        let i := commonLength (data.drop spos) pattern
        let better : Int × Nat := if best.2 < i then (spos, i) else best
        if i = pattern.length then some better
        else if data.length ≤ spos + i ∨ data.getD (spos + i) 0 < pattern.getD i 0 then
          saSearchLoop32 sa data pattern (mid + 1) hi better
        else saSearchLoop32 sa data pattern lo (mid - 1) better
  else some best
termination_by (hi + 1 - lo).toNat

/-- `delta_sa_search`: the position, or -1, and `*match_len`. -/
def deltaSaSearch32 (sa : Nat → Nat) (data pattern : List UInt8) : Option (Int × Nat) :=
  if pattern.length = 0 then some (-1, 0)
  else
    (saSearchLoop32 sa data pattern 0 (data.length - 1) (-1, 0)).map fun best =>
      (if 8 ≤ best.2 then best.1 else -1, best.2)

/-! ### Comparing a suffix with the pattern -/

theorem le_commonLength {first second : List UInt8} {count : Nat} (short : count ≤ second.length)
    (agrees : second.take count <+: first) : count ≤ commonLength first second := by
  fun_induction commonLength first second generalizing count with
  | case1 first firsts seconds ih =>
      cases count with
      | zero => exact Nat.zero_le _
      | succ count =>
          rw [List.take_succ_cons, List.cons_prefix_cons] at agrees
          exact Nat.succ_le_succ (ih (Nat.le_of_succ_le_succ short) agrees.2)
  | case2 first firsts second seconds differ =>
      cases count with
      | zero => exact Nat.le_of_eq rfl
      | succ count =>
          rw [List.take_succ_cons, List.cons_prefix_cons] at agrees
          exact absurd agrees.1.symm differ
  | case3 first second none =>
      cases count with
      | zero => exact Nat.le_of_eq rfl
      | succ count =>
          cases second with
          | nil => simp at short
          | cons other second =>
              cases first with
              | nil => simp at agrees
              | cons first firsts => exact absurd rfl (none first firsts other second rfl)

/-- The test behind the comparison: the pattern is found whole, or it tells on which side of the
pattern the suffix stands. -/
inductive Compared (suffix pattern : List UInt8) : Prop
  | whole (isWhole : commonLength suffix pattern = pattern.length) (isPrefix : pattern <+: suffix)
  | below (notWhole : commonLength suffix pattern ≠ pattern.length)
      (test : suffix.length ≤ commonLength suffix pattern ∨
        suffix.getD (commonLength suffix pattern) 0 <
          pattern.getD (commonLength suffix pattern) 0)
      (less : suffix < pattern)
  | above (notWhole : commonLength suffix pattern ≠ pattern.length)
      (test : ¬(suffix.length ≤ commonLength suffix pattern ∨
        suffix.getD (commonLength suffix pattern) 0 <
          pattern.getD (commonLength suffix pattern) 0))
      (greater : pattern < suffix)

theorem commonLength_cons_self (first : UInt8) (firsts seconds : List UInt8) :
    commonLength (first :: firsts) (first :: seconds) = commonLength firsts seconds + 1 := by
  rw [commonLength, if_pos rfl]

theorem commonLength_cons_of_ne {first second : UInt8} (differ : first ≠ second)
    (firsts seconds : List UInt8) :
    commonLength (first :: firsts) (second :: seconds) = 0 := by
  rw [commonLength, if_neg differ]

theorem Compared.cons {firsts seconds : List UInt8} (rest : Compared firsts seconds)
    (first : UInt8) : Compared (first :: firsts) (first :: seconds) := by
  have count := commonLength_cons_self first firsts seconds
  cases rest with
  | whole isWhole isPrefix =>
      refine .whole ?_ (List.cons_prefix_cons.mpr ⟨rfl, isPrefix⟩)
      rw [count, isWhole, List.length_cons]
  | below notWhole test less =>
      refine .below ?_ ?_ (List.cons_lt_cons_iff.mpr (.inr ⟨rfl, less⟩))
      · rw [count, List.length_cons]
        omega
      · rw [count, List.length_cons, Nat.add_le_add_iff_right]
        exact test
  | above notWhole test greater =>
      refine .above ?_ ?_ (List.cons_lt_cons_iff.mpr (.inr ⟨rfl, greater⟩))
      · rw [count, List.length_cons]
        omega
      · rw [count, List.length_cons, Nat.add_le_add_iff_right]
        exact test

theorem compared_of_ne {first second : UInt8} (differ : first ≠ second)
    (firsts seconds : List UInt8) : Compared (first :: firsts) (second :: seconds) := by
  have count := commonLength_cons_of_ne differ firsts seconds
  have notWhole : commonLength (first :: firsts) (second :: seconds) ≠
      (second :: seconds).length := by
    rw [count]
    exact (Nat.succ_ne_zero _).symm
  by_cases less : first < second
  · refine .below notWhole (.inr ?_) (List.cons_lt_cons_iff.mpr (.inl less))
    rw [count]
    exact less
  · refine .above notWhole ?_ (List.cons_lt_cons_iff.mpr (.inl ?_))
    · rw [count]
      rintro (short | smaller)
      · exact absurd short (Nat.not_succ_le_zero _)
      · exact less smaller
    · rw [UInt8.lt_iff_toNat_lt] at less ⊢
      have apart : first.toNat ≠ second.toNat := fun equal => differ (UInt8.toNat_inj.mp equal)
      omega

theorem compared (suffix pattern : List UInt8) : Compared suffix pattern := by
  induction suffix generalizing pattern with
  | nil =>
      cases pattern with
      | nil => exact .whole rfl List.prefix_rfl
      | cons second seconds =>
          exact .below (Nat.succ_ne_zero _).symm (.inl (Nat.zero_le _)) (List.nil_lt_cons _ _)
  | cons first firsts ih =>
      cases pattern with
      | nil => exact .whole rfl List.nil_prefix
      | cons second seconds =>
          by_cases same : first = second
          · subst same
            exact (ih seconds).cons first
          · exact compared_of_ne same firsts seconds

/-- The test of the source is that of the comparison. -/
theorem test_iff (data pattern : List UInt8) {spos : Nat} (i : Nat) (inside : spos < data.length) :
    (data.length ≤ spos + i ∨ data.getD (spos + i) 0 < pattern.getD i 0) ↔
      ((data.drop spos).length ≤ i ∨ (data.drop spos).getD i 0 < pattern.getD i 0) := by
  have short : (data.drop spos).length ≤ i ↔ data.length ≤ spos + i := by
    rw [List.length_drop]
    omega
  have entry : (data.drop spos).getD i 0 = data.getD (spos + i) 0 := by
    rw [List.getD_eq_getElem?_getD, List.getElem?_drop, List.getD_eq_getElem?_getD]
  rw [short, entry]

theorem less_of_test {data pattern : List UInt8} {spos : Nat} (inside : spos < data.length)
    (notWhole : commonLength (data.drop spos) pattern ≠ pattern.length)
    (test : data.length ≤ spos + commonLength (data.drop spos) pattern ∨
      data.getD (spos + commonLength (data.drop spos) pattern) 0 <
        pattern.getD (commonLength (data.drop spos) pattern) 0) : data.drop spos < pattern := by
  rw [test_iff data pattern _ inside] at test
  cases compared (data.drop spos) pattern with
  | whole isWhole isPrefix => exact absurd isWhole notWhole
  | below _ _ less => exact less
  | above _ notTest _ => exact absurd test notTest

theorem greater_of_test {data pattern : List UInt8} {spos : Nat} (inside : spos < data.length)
    (notWhole : commonLength (data.drop spos) pattern ≠ pattern.length)
    (test : ¬(data.length ≤ spos + commonLength (data.drop spos) pattern ∨
      data.getD (spos + commonLength (data.drop spos) pattern) 0 <
        pattern.getD (commonLength (data.drop spos) pattern) 0)) : pattern < data.drop spos := by
  rw [test_iff data pattern _ inside] at test
  cases compared (data.drop spos) pattern with
  | whole isWhole isPrefix => exact absurd isWhole notWhole
  | below _ isTest _ => exact absurd isTest test
  | above _ _ greater => exact greater

/-! ### What the bisection leaves out -/

section Search

variable {sa : Nat → Nat} {data pattern : List UInt8}

/-- A suffix between another one and the pattern shares at least as much with the pattern. -/
theorem commonLength_le_of_below {near far : Nat} (isArray : IsSuffixArray data sa)
    (ordered : far ≤ near) (inside : near < data.length)
    (less : data.drop (sa near) < pattern) :
    commonLength (data.drop (sa far)) pattern ≤ commonLength (data.drop (sa near)) pattern := by
  apply le_commonLength (commonLength_le_right _ _)
  apply prefix_of_between _ (List.take_prefix _ pattern) (isArray.before ordered inside) (.inl less)
  rw [← take_commonLength]
  exact List.take_prefix _ _

theorem commonLength_le_of_above {near far : Nat} (isArray : IsSuffixArray data sa)
    (ordered : near ≤ far) (inside : far < data.length)
    (greater : pattern < data.drop (sa near)) :
    commonLength (data.drop (sa far)) pattern ≤ commonLength (data.drop (sa near)) pattern := by
  apply le_commonLength (commonLength_le_right _ _)
  apply prefix_of_between (List.take_prefix _ pattern) _ (.inl greater)
    (isArray.before ordered inside)
  rw [← take_commonLength]
  exact List.take_prefix _ _

/-- All entries outside of the bounds share at most as much with the pattern as the best one. -/
structure LeavesOut (sa : Nat → Nat) (data pattern : List UInt8) (lo hi : Int)
    (best : Int × Nat) : Prop where
  low : 0 ≤ lo
  high : hi < data.length
  best : ∀ index, index < data.length → (index : Int) < lo ∨ hi < index →
    commonLength (data.drop (sa index)) pattern ≤ best.2

/-- The best match behind a comparison. -/
def keepBetter (spos i : Nat) (best : Int × Nat) : Int × Nat :=
  if best.2 < i then (spos, i) else best

theorem le_keepBetter (spos i : Nat) (best : Int × Nat) :
    i ≤ (keepBetter spos i best).2 ∧ best.2 ≤ (keepBetter spos i best).2 := by
  unfold keepBetter
  split
  · exact ⟨Nat.le_refl i, by dsimp only; omega⟩
  · omega

theorem LeavesOut.right {lo hi : Int} {best : Int × Nat} {mid : Nat}
    (leaves : LeavesOut sa data pattern lo hi best) (isArray : IsSuffixArray data sa)
    (inside : (mid : Int) ≤ hi) (less : data.drop (sa mid) < pattern) :
    LeavesOut sa data pattern (mid + 1) hi
      (keepBetter (sa mid) (commonLength (data.drop (sa mid)) pattern) best) := by
  have high := leaves.high
  obtain ⟨fresh, kept⟩ :=
    le_keepBetter (sa mid) (commonLength (data.drop (sa mid)) pattern) best
  refine ⟨by omega, high, fun index below outside => ?_⟩
  by_cases near : index ≤ mid
  · exact Nat.le_trans (commonLength_le_of_below isArray near (by omega) less) fresh
  · exact Nat.le_trans (leaves.best index below (by omega)) kept

theorem LeavesOut.left {lo hi : Int} {best : Int × Nat} {mid : Nat}
    (leaves : LeavesOut sa data pattern lo hi best) (isArray : IsSuffixArray data sa)
    (inside : (mid : Int) ≤ hi) (greater : pattern < data.drop (sa mid)) :
    LeavesOut sa data pattern lo (mid - 1)
      (keepBetter (sa mid) (commonLength (data.drop (sa mid)) pattern) best) := by
  have high := leaves.high
  obtain ⟨fresh, kept⟩ :=
    le_keepBetter (sa mid) (commonLength (data.drop (sa mid)) pattern) best
  refine ⟨leaves.low, by omega, fun index below outside => ?_⟩
  by_cases near : mid ≤ index
  · exact Nat.le_trans (commonLength_le_of_above isArray near below greater) fresh
  · exact Nat.le_trans (leaves.best index below (by omega)) kept

/-- The middle of the bounds is an entry of the array. -/
theorem LeavesOut.mid {lo hi : Int} {best : Int × Nat}
    (leaves : LeavesOut sa data pattern lo hi best) (inside : lo ≤ hi) :
    (((lo + hi) / 2).toNat : Int) = (lo + hi) / 2 ∧ lo ≤ (lo + hi) / 2 ∧ (lo + hi) / 2 ≤ hi ∧
      ((lo + hi) / 2).toNat < data.length := by
  have low := leaves.low
  have high := leaves.high
  omega

theorem saSearchLoop_best (isArray : IsSuffixArray data sa) {lo hi : Int} {best : Int × Nat}
    (leaves : LeavesOut sa data pattern lo hi best) {index : Nat} (inside : index < data.length) :
    commonLength (data.drop (sa index)) pattern ≤
      (saSearchLoop sa data pattern lo hi best).2 := by
  fun_induction saSearchLoop sa data pattern lo hi best with
  | case1 lo hi best within mid spos i better whole =>
      have short := commonLength_le_right (data.drop (sa index)) pattern
      have fresh : i ≤ better.2 := (le_keepBetter spos i best).1
      exact Nat.le_trans short (Nat.le_trans (Nat.le_of_eq whole.symm) fresh)
  | case2 lo hi best within mid spos i better notWhole smaller ih =>
      obtain ⟨isMid, -, midLe, below⟩ := leaves.mid within
      have less := less_of_test (isArray.lt below) notWhole smaller
      have next := leaves.right isArray (by omega) less
      rw [isMid] at next
      exact ih next
  | case3 lo hi best within mid spos i better notWhole notSmaller ih =>
      obtain ⟨isMid, -, midLe, below⟩ := leaves.mid within
      have greater := greater_of_test (isArray.lt below) notWhole notSmaller
      have next := leaves.left isArray (by omega) greater
      rw [isMid] at next
      exact ih next
  | case4 lo hi best outside =>
      exact leaves.best index inside (by omega)

theorem leavesOut_start (sa : Nat → Nat) (data pattern : List UInt8) :
    LeavesOut sa data pattern 0 (data.length - 1) (-1, 0) :=
  ⟨Int.le_refl 0, by omega, fun index inside outside => by omega⟩

/-- The longest prefix of the pattern that occurs in the data, and a place where it does if the
prefix has eight bytes. -/
structure LongestMatch (data pattern : List UInt8) (found : Int × Nat) : Prop where
  greatest : IsGreatest {count | count ≤ pattern.length ∧ pattern.take count <:+: data} found.2
  position : 8 ≤ found.2 → ∃ pos : Nat, found.1 = pos ∧ pattern.take found.2 <+: data.drop pos
  absent : found.2 < 8 → found.1 = -1

/-- Any prefix of the pattern that occurs is found by some entry of the array. -/
theorem exists_commonLength_ge (isArray : IsSuffixArray data sa) {count : Nat}
    (positive : 0 < count) (short : count ≤ pattern.length)
    (occurs : pattern.take count <:+: data) :
    ∃ index, index < data.length ∧ count ≤ commonLength (data.drop (sa index)) pattern := by
  have nonempty : pattern.take count ≠ [] := by
    rw [← List.length_pos_iff, List.length_take]
    omega
  obtain ⟨index, inside, isPrefix⟩ := isArray.exists_prefix nonempty occurs
  exact ⟨index, inside, le_commonLength short isPrefix⟩

theorem longestMatch_of_best (isArray : IsSuffixArray data sa) {best : Int × Nat}
    (genuine : Genuine data pattern best)
    (longest : ∀ index, index < data.length →
      commonLength (data.drop (sa index)) pattern ≤ best.2) :
    LongestMatch data pattern (if 8 ≤ best.2 then best.1 else -1, best.2) := by
  refine ⟨⟨?_, fun count ⟨short, occurs⟩ => ?_⟩, fun long => ?_, fun short => ?_⟩
  · rcases genuine with ⟨-, isZero⟩ | ⟨pos, -, isMatch⟩
    · rw [isZero]
      exact ⟨Nat.zero_le _, List.nil_infix⟩
    · refine ⟨isMatch.short, ?_⟩
      rw [← isMatch.agrees]
      exact (List.take_prefix _ _).isInfix.trans (List.drop_suffix _ _).isInfix
  · by_cases isZero : count = 0
    · rw [isZero]
      exact Nat.zero_le _
    · obtain ⟨index, inside, enough⟩ :=
        exists_commonLength_ge isArray (Nat.pos_of_ne_zero isZero) short occurs
      exact Nat.le_trans enough (longest index inside)
  · rcases genuine with ⟨-, isZero⟩ | ⟨pos, isPos, isMatch⟩
    · dsimp only at long
      omega
    · refine ⟨pos, ?_, ?_⟩
      · rw [if_pos long]
        exact isPos
      · rw [← isMatch.agrees]
        exact List.take_prefix _ _
  · rw [if_neg (Nat.not_le_of_lt short)]

/-- With sums that do not overflow the search is right. -/
theorem deltaSaSearch_longest (isArray : IsSuffixArray data sa) (nonempty : pattern ≠ []) :
    LongestMatch data pattern (deltaSaSearch sa data pattern) := by
  have positive : pattern.length ≠ 0 := fun isZero => nonempty (List.length_eq_zero_iff.mp isZero)
  rw [deltaSaSearch, if_neg positive]
  exact longestMatch_of_best isArray
    (saSearchLoop_genuine sa data pattern _ _ (.inl ⟨by decide, rfl⟩))
    fun index inside => saSearchLoop_best isArray (leavesOut_start sa data pattern) inside

end Search

/-! ### The sum of the bounds -/

/-- The lower bound with which the sum overflows on the way to the right end, or one behind it. -/
def overflowLo (last lo : Nat) : Nat :=
  if lo ≤ last ∧ lo + last < 2 ^ 31 then overflowLo last ((lo + last) / 2 + 1) else lo
termination_by last + 1 - lo

theorem le_overflowLo (last lo : Nat) : lo ≤ overflowLo last lo := by
  fun_induction overflowLo last lo with
  | case1 lo inside ih => omega
  | case2 lo outside => exact Nat.le_of_eq rfl

/-- Only an array of more than 2^30 entries is long enough. -/
theorem overflowLo_le_iff {last lo : Nat} (inside : lo ≤ last) :
    overflowLo last lo ≤ last ↔ 2 ^ 30 ≤ last := by
  fun_induction overflowLo last lo with
  | case1 lo within ih =>
      by_cases room : (lo + last) / 2 + 1 ≤ last
      · exact ih room
      · have behind := le_overflowLo last ((lo + last) / 2 + 1)
        omega
  | case2 lo outside => omega

section Overflow

variable {sa : Nat → Nat} {data pattern : List UInt8}

theorem addInt32_eq_some {first second : Int} (low : 0 ≤ first + second)
    (high : first + second < 2 ^ 31) : addInt32 first second = some (first + second) :=
  if_pos ⟨by omega, high⟩

/-- Bounds in the lower half of the type never overflow. -/
theorem saSearchLoop32_eq_some {lo hi : Int} (low : 0 ≤ lo) (high : 2 * hi < 2 ^ 31)
    (best : Int × Nat) :
    saSearchLoop32 sa data pattern lo hi best = some (saSearchLoop sa data pattern lo hi best) := by
  fun_induction saSearchLoop sa data pattern lo hi best with
  | case1 lo hi best inside mid spos i better whole =>
      rw [saSearchLoop32, if_pos inside, addInt32_eq_some (by omega) (by omega)]
      exact if_pos whole
  | case2 lo hi best inside mid spos i better notWhole smaller ih =>
      rw [saSearchLoop32, if_pos inside, addInt32_eq_some (by omega) (by omega)]
      dsimp only
      rw [if_neg notWhole, if_pos smaller]
      exact ih (by omega) high
  | case3 lo hi best inside mid spos i better notWhole notSmaller ih =>
      rw [saSearchLoop32, if_pos inside, addInt32_eq_some (by omega) (by omega)]
      dsimp only
      rw [if_neg notWhole, if_neg notSmaller]
      exact ih low (by omega)
  | case4 lo hi best outside => rw [saSearchLoop32, if_neg outside]

/-- The search reaches the bounds whose sum overflows: the suffix in front of them is smaller than
the pattern. -/
def Overflows (sa : Nat → Nat) (data pattern : List UInt8) (last lo : Nat) : Prop :=
  overflowLo last lo ≤ last ∧
    (lo < overflowLo last lo → data.drop (sa (overflowLo last lo - 1)) < pattern)

/-- Behind a suffix that is not smaller than the pattern there is none that is. -/
theorem not_overflows_of_not_less {last lo mid : Nat} (isArray : IsSuffixArray data sa)
    (isLast : last + 1 = data.length) (inside : lo ≤ mid) (next : mid + 1 ≤ overflowLo last lo)
    (notLess : ¬data.drop (sa mid) < pattern) : ¬Overflows sa data pattern last lo := by
  rintro ⟨reached, less⟩
  have behind := less (by omega)
  have ordered := isArray.before (show mid ≤ overflowLo last lo - 1 by omega) (by omega)
  rcases ordered with earlier | same
  · exact notLess (List.lt_trans earlier behind)
  · rw [same] at notLess
    exact notLess behind

/-- What one comparison does, with and without the width of the sum. -/
inductive SearchStep (sa : Nat → Nat) (data pattern : List UInt8) (lo hi : Int) (mid : Nat)
    (best better : Int × Nat) : Prop
  | whole (isPrefix : pattern <+: data.drop (sa mid))
      (found32 : saSearchLoop32 sa data pattern lo hi best = some better)
      (found : saSearchLoop sa data pattern lo hi best = better)
  | right (less : data.drop (sa mid) < pattern)
      (next32 : saSearchLoop32 sa data pattern lo hi best =
        saSearchLoop32 sa data pattern (mid + 1) hi better)
      (next : saSearchLoop sa data pattern lo hi best =
        saSearchLoop sa data pattern (mid + 1) hi better)
  | left (greater : pattern < data.drop (sa mid))
      (next32 : saSearchLoop32 sa data pattern lo hi best =
        saSearchLoop32 sa data pattern lo (mid - 1) better)
      (next : saSearchLoop sa data pattern lo hi best =
        saSearchLoop sa data pattern lo (mid - 1) better)

theorem searchStep {lo hi : Int} {mid : Nat} (inside : lo ≤ hi) (low : 0 ≤ lo + hi)
    (fits : lo + hi < 2 ^ 31) (isMid : (mid : Int) = (lo + hi) / 2) (below : sa mid < data.length)
    (best : Int × Nat) :
    SearchStep sa data pattern lo hi mid best
      (keepBetter (sa mid) (commonLength (data.drop (sa mid)) pattern) best) := by
  have isEntry : ((lo + hi) / 2).toNat = mid := by omega
  have unfold32 := saSearchLoop32.eq_1 sa data pattern lo hi best
  have unfolded := saSearchLoop.eq_1 sa data pattern lo hi best
  rw [if_pos inside, addInt32_eq_some low fits] at unfold32
  rw [if_pos inside] at unfolded
  dsimp only at unfold32 unfolded
  rw [isEntry, ← isMid] at unfold32 unfolded
  have test := test_iff data pattern (commonLength (data.drop (sa mid)) pattern) below
  cases compared (data.drop (sa mid)) pattern with
  | whole isWhole isPrefix =>
      rw [if_pos isWhole] at unfold32 unfolded
      exact .whole isPrefix unfold32 unfolded
  | below notWhole isTest less =>
      rw [if_neg notWhole, if_pos (test.mpr isTest)] at unfold32 unfolded
      exact .right less unfold32 unfolded
  | above notWhole notTest greater =>
      rw [if_neg notWhole, if_neg (notTest ∘ test.mp)] at unfold32 unfolded
      exact .left greater unfold32 unfolded

/-- On the way to the right end the search fails where the sum overflows, and nowhere else. -/
theorem saSearchLoop32_spine (isArray : IsSuffixArray data sa) (pattern : List UInt8) (lo : Nat)
    {last : Nat} (isLast : last + 1 = data.length) (best : Int × Nat) :
    (Overflows sa data pattern last lo → saSearchLoop32 sa data pattern lo last best = none) ∧
      (¬Overflows sa data pattern last lo →
        saSearchLoop32 sa data pattern lo last best =
          some (saSearchLoop sa data pattern lo last best)) := by
  fun_induction overflowLo last lo generalizing best with
  | case1 lo inside ih =>
      obtain ⟨mid, isMid⟩ : ∃ mid, mid = (lo + last) / 2 := ⟨_, rfl⟩
      rw [← isMid] at ih
      have isNext : overflowLo last lo = overflowLo last (mid + 1) := by
        rw [overflowLo, if_pos inside, ← isMid]
      have behind : mid + 1 ≤ overflowLo last lo := by
        rw [isNext]
        exact le_overflowLo last (mid + 1)
      have below := isArray.lt (show mid < data.length by omega)
      have step : SearchStep sa data pattern lo last mid best _ :=
        searchStep (by omega) (by omega) (by omega) (by omega) below best
      cases step with
      | whole isPrefix found32 found =>
          have notLess := List.IsPrefix.le isPrefix
          have never := not_overflows_of_not_less isArray isLast (by omega) behind notLess
          exact ⟨fun overflows => absurd overflows never, fun _ => by rw [found32, found]⟩
      | right less next32 next =>
          have same : Overflows sa data pattern last lo ↔
              Overflows sa data pattern last (mid + 1) := by
            rw [Overflows, Overflows, isNext]
            rw [isNext] at behind
            refine and_congr_right fun reached =>
              ⟨fun smaller _ => smaller (by omega), fun smaller _ => ?_⟩
            rcases Nat.lt_or_eq_of_le behind with further | stays
            · exact smaller further
            · rw [← stays]
              exact less
          rw [same, next32, next]
          exact ih _
      | left greater next32 next =>
          have never := not_overflows_of_not_less isArray isLast (by omega) behind
            (Std.Asymm.asymm _ _ greater)
          refine ⟨fun overflows => absurd overflows never, fun _ => ?_⟩
          rw [next32, next]
          exact saSearchLoop32_eq_some (by omega) (by omega) _
  | case2 lo outside =>
      have stays : overflowLo last lo = lo := by rw [overflowLo, if_neg outside]
      rw [Overflows, stays, saSearchLoop32, saSearchLoop]
      by_cases within : lo ≤ last
      · have wide : addInt32 lo last = none := if_neg (by omega)
        rw [if_pos (by omega), wide]
        refine ⟨fun _ => rfl, fun never => absurd ⟨within, fun less => ?_⟩ never⟩
        exact absurd less (Nat.lt_irrefl lo)
      · rw [if_neg (by omega), if_neg (by omega)]
        exact ⟨fun overflows => absurd overflows.1 within, fun _ => rfl⟩

end Overflow

/-- The sums of the bounds stay below 2^31: the array is short, or the last suffix that can be
compared on the way to its right end is not smaller than the pattern. -/
def SumsFit (sa : Nat → Nat) (data pattern : List UInt8) : Prop :=
  data.length ≤ 2 ^ 30 ∨
    ¬data.drop (sa (overflowLo (data.length - 1) 0 - 1)) < pattern

section Main

variable {sa : Nat → Nat} {data pattern : List UInt8}

theorem overflows_iff_not_sumsFit {last : Nat} (isLast : last + 1 = data.length)
    (short : last < 2 ^ 31) : Overflows sa data pattern last 0 ↔ ¬SumsFit sa data pattern := by
  have same : data.length - 1 = last := by omega
  have positive : 0 < overflowLo last 0 := by
    rw [overflowLo, if_pos (by omega)]
    exact Nat.lt_of_lt_of_le (Nat.succ_pos _) (le_overflowLo last _)
  rw [Overflows, overflowLo_le_iff (Nat.zero_le last), SumsFit, same, not_or, not_not]
  constructor
  · exact fun ⟨long, less⟩ => ⟨by omega, less positive⟩
  · exact fun ⟨long, less⟩ => ⟨by omega, fun _ => less⟩

/-- The result of the search, or none where a sum overflows. -/
theorem deltaSaSearch32_eq (isArray : IsSuffixArray data sa) (nonempty : pattern ≠ [])
    (short : data.length < 2 ^ 31) :
    (SumsFit sa data pattern →
        deltaSaSearch32 sa data pattern = some (deltaSaSearch sa data pattern)) ∧
      (¬SumsFit sa data pattern → deltaSaSearch32 sa data pattern = none) := by
  have positive : pattern.length ≠ 0 := fun isZero => nonempty (List.length_eq_zero_iff.mp isZero)
  rw [deltaSaSearch32, deltaSaSearch, if_neg positive, if_neg positive]
  by_cases isEmpty : data.length = 0
  · -- An empty array is not searched at all.
    have outside : ¬(0 : Int) ≤ (data.length : Int) - 1 := by omega
    rw [saSearchLoop32, saSearchLoop, if_neg outside, if_neg outside]
    exact ⟨fun _ => rfl, fun wide => absurd (.inl (by omega)) wide⟩
  · obtain ⟨last, isLast⟩ : ∃ last, last + 1 = data.length := ⟨data.length - 1, by omega⟩
    have isHigh : (data.length : Int) - 1 = last := by omega
    obtain ⟨fails, finds⟩ := saSearchLoop32_spine isArray pattern 0 isLast (-1, 0)
    rw [overflows_iff_not_sumsFit isLast (by omega)] at fails finds
    rw [isHigh]
    refine ⟨fun fits => ?_, fun wide => ?_⟩
    · have found := finds (not_not.mpr fits)
      rw [Nat.cast_zero] at found
      rw [found]
      rfl
    · have failed := fails wide
      rw [Nat.cast_zero] at failed
      rw [failed]
      rfl

/-- The search finds the longest match exactly when the sums of its bounds fit. -/
theorem deltaSaSearch32_longest_iff (isArray : IsSuffixArray data sa) (nonempty : pattern ≠ [])
    (short : data.length < 2 ^ 31) :
    (∃ found, deltaSaSearch32 sa data pattern = some found ∧ LongestMatch data pattern found) ↔
      SumsFit sa data pattern := by
  obtain ⟨finds, fails⟩ := deltaSaSearch32_eq isArray nonempty short
  constructor
  · rintro ⟨found, searched, -⟩
    by_contra wide
    rw [fails wide] at searched
    cases searched
  · exact fun fits => ⟨_, finds fits, deltaSaSearch_longest isArray nonempty⟩

end Main

/-! ### Strings of zeros -/

theorem replicate_zero_lt {first second : Nat} (less : first < second) :
    List.replicate first (0 : UInt8) < List.replicate second 0 := by
  induction first generalizing second with
  | zero =>
      obtain ⟨rest, rfl⟩ : ∃ rest, second = rest + 1 := ⟨second - 1, by omega⟩
      rw [List.replicate_zero, List.replicate_succ]
      exact List.nil_lt_cons _ _
  | succ first ih =>
      obtain ⟨rest, rfl⟩ : ∃ rest, second = rest + 1 := ⟨second - 1, by omega⟩
      rw [List.replicate_succ, List.replicate_succ, List.cons_lt_cons_iff]
      exact .inr ⟨rfl, ih (by omega)⟩

/-- The suffixes of a string of zeros, the shortest first. -/
theorem isSuffixArray_zeros (length : Nat) :
    IsSuffixArray (List.replicate length (0 : UInt8)) fun index => length - 1 - index where
  perm := by
    rw [List.length_replicate]
    have reversed : ((List.range length).map fun index => length - 1 - index) =
        (List.range' 0 length).reverse := by
      rw [List.reverse_range', Nat.zero_add]
    rw [reversed, ← List.range_eq_range']
    exact List.reverse_perm _
  sorted := by
    intro first second less inside
    rw [List.length_replicate] at inside
    rw [List.drop_replicate, List.drop_replicate]
    exact replicate_zero_lt (by omega)

theorem deltaSaSearch32_longest_iff_zeros :
    (∃ found, deltaSaSearch32 (fun index => 9 - 1 - index) (List.replicate 9 0) [0, 0, 1] =
        some found ∧ LongestMatch (List.replicate 9 0) [0, 0, 1] found) ↔
      SumsFit (fun index => 9 - 1 - index) (List.replicate 9 0) [0, 0, 1] :=
  deltaSaSearch32_longest_iff (isSuffixArray_zeros 9) (by decide) (by decide)

/-- Among the largest number of zeros the second sum overflows. -/
theorem deltaSaSearch32_overflows :
    ¬∀ (data : List UInt8) (sa : Nat → Nat) (pattern : List UInt8), IsSuffixArray data sa →
      pattern ≠ [] → data.length < 2 ^ 31 →
      ∃ found, deltaSaSearch32 sa data pattern = some found ∧ LongestMatch data pattern found := by
  intro holds
  obtain ⟨length, isLength⟩ : ∃ length, length = 2 ^ 31 - 1 := ⟨_, rfl⟩
  have size : (List.replicate length (0 : UInt8)).length = length := List.length_replicate
  have short : (List.replicate length (0 : UInt8)).length < 2 ^ 31 := by omega
  obtain ⟨found, searched, -⟩ := holds _ _ [1] (isSuffixArray_zeros length) (by decide) short
  have wide : ¬SumsFit (fun index => length - 1 - index) (List.replicate length 0) [1] := by
    have reached : overflowLo (length - 1) 0 = 2 ^ 30 := by
      rw [overflowLo, if_pos (by omega), overflowLo, if_neg (by omega)]
      omega
    rintro (small | notLess)
    · omega
    · rw [size, reached, List.drop_replicate] at notLess
      obtain ⟨rest, isRest⟩ : ∃ rest, length - (length - 1 - (2 ^ 30 - 1)) = rest + 1 :=
        ⟨2 ^ 30 - 1, by omega⟩
      rw [isRest, List.replicate_succ] at notLess
      exact notLess (List.cons_lt_cons_iff.mpr (.inl (by decide)))
  rw [(deltaSaSearch32_eq (isSuffixArray_zeros length) (by decide) short).2 wide] at searched
  cases searched

end Ota

end MiniIotRobotEdge
