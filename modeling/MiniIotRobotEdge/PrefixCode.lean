import Mathlib.Algebra.GroupWithZero.Nat
import Mathlib.Data.List.Basic
import Mathlib.Data.List.Infix
import Mathlib.Data.List.Lattice

/-!
# Prefix codes

A binary tree gives each of its leaves the path to it, and no path is the front
of another.  A decoder that looks at a window of limited length finds the
symbol whose code word the window starts with.  One that asks before each
symbol whether bits are still unread, and not whether bits are left, loses the
end of a text.
-/

namespace MiniIotRobotEdge

namespace PrefixCode

inductive CodeTree (α : Type*)
  | leaf (symbol : α)
  | node (left right : CodeTree α)

section Trees

variable {α : Type*}

def branch (bit : Bool) (entry : α × List Bool) : α × List Bool := (entry.1, bit :: entry.2)

/-- The leaves with their paths, from left to right. -/
def CodeTree.table : CodeTree α → List (α × List Bool)
  | .leaf symbol => [(symbol, [])]
  | .node left right => left.table.map (branch false) ++ right.table.map (branch true)

def CodeTree.symbols (tree : CodeTree α) : List α := tree.table.map Prod.fst

/-- The number of nodes and leaves. -/
def CodeTree.size : CodeTree α → Nat
  | .leaf _ => 1
  | .node left right => left.size + right.size + 1

theorem symbols_node (left right : CodeTree α) :
    (CodeTree.node left right).symbols = left.symbols ++ right.symbols := by
  simp [CodeTree.symbols, CodeTree.table, branch, Function.comp_def]

/-- A tree has one leaf more than it has inner nodes. -/
theorem size_eq (tree : CodeTree α) : tree.size + 1 = 2 * tree.symbols.length := by
  induction tree with
  | leaf symbol => rfl
  | node left right leftIh rightIh =>
      rw [CodeTree.size, symbols_node, List.length_append]
      omega

theorem mem_table_node {left right : CodeTree α} {entry : α × List Bool} :
    entry ∈ (CodeTree.node left right).table ↔
      (∃ below ∈ left.table, branch false below = entry) ∨
        ∃ below ∈ right.table, branch true below = entry := by
  rw [CodeTree.table, List.mem_append, List.mem_map, List.mem_map]

/-- The path to a leaf is the front of no path to another leaf. -/
theorem table_prefixFree {tree : CodeTree α} {first second : α × List Bool}
    (firstMember : first ∈ tree.table) (secondMember : second ∈ tree.table)
    (isPrefix : first.2 <+: second.2) : first = second := by
  induction tree generalizing first second with
  | leaf symbol =>
      rw [List.mem_singleton.mp firstMember, List.mem_singleton.mp secondMember]
  | node left right leftIh rightIh =>
      rcases mem_table_node.mp firstMember with ⟨below, member, rfl⟩ | ⟨below, member, rfl⟩ <;>
        rcases mem_table_node.mp secondMember with
          ⟨other, otherMember, rfl⟩ | ⟨other, otherMember, rfl⟩ <;>
        obtain ⟨bits, isPrefix⟩ := List.cons_prefix_cons.mp isPrefix
      · rw [leftIh member otherMember isPrefix]
      · contradiction
      · contradiction
      · rw [rightIh member otherMember isPrefix]

/-- In a tree with two leaves or more every path has a step. -/
theorem path_ne_nil {tree : CodeTree α} (several : 1 < tree.symbols.length)
    {entry : α × List Bool} (member : entry ∈ tree.table) : entry.2 ≠ [] := by
  cases tree with
  | leaf symbol => exact absurd several (Nat.lt_irrefl 1)
  | node left right =>
      rcases mem_table_node.mp member with ⟨below, _, rfl⟩ | ⟨below, _, rfl⟩
      · exact List.cons_ne_nil _ _
      · exact List.cons_ne_nil _ _

/-- The leaves of a tree that stands at the end of a path. -/
def CodeTree.tableFrom (tree : CodeTree α) (path : List Bool) : List (α × List Bool) :=
  tree.table.map fun entry => (entry.1, path ++ entry.2)

theorem tableFrom_leaf (symbol : α) (path : List Bool) :
    (CodeTree.leaf symbol).tableFrom path = [(symbol, path)] := by
  simp [CodeTree.tableFrom, CodeTree.table]

theorem tableFrom_node (left right : CodeTree α) (path : List Bool) :
    (CodeTree.node left right).tableFrom path =
      left.tableFrom (path ++ [false]) ++ right.tableFrom (path ++ [true]) := by
  simp [CodeTree.tableFrom, CodeTree.table, branch, Function.comp_def]

theorem tableFrom_nil (tree : CodeTree α) : tree.tableFrom [] = tree.table := by
  simp [CodeTree.tableFrom]

section Paths

variable [DecidableEq α]

/-- The path to the first leaf with the symbol. -/
def CodeTree.pathTo (tree : CodeTree α) (symbol : α) : List Bool :=
  ((tree.table.find? fun entry => entry.1 = symbol).map Prod.snd).getD []

theorem find?_table {tree : CodeTree α} {symbol : α} (member : symbol ∈ tree.symbols) :
    (tree.table.find? fun entry => entry.1 = symbol) = some (symbol, tree.pathTo symbol) := by
  obtain ⟨entry, inTable, isSymbol⟩ := List.mem_map.mp member
  cases found : tree.table.find? fun entry => entry.1 = symbol with
  | none => simpa [isSymbol] using List.find?_eq_none.mp found entry inTable
  | some other =>
      have same : other.1 = symbol := by simpa using List.find?_some found
      rw [CodeTree.pathTo, found, ← same]
      rfl

theorem pathTo_mem {tree : CodeTree α} {symbol : α} (member : symbol ∈ tree.symbols) :
    (symbol, tree.pathTo symbol) ∈ tree.table :=
  List.mem_of_find?_eq_some (find?_table member)

end Paths

end Trees

section Decoding

variable {α : Type*} {path : α → List Bool} {symbols : List α}

/-- No code word is the front of another one. -/
def PrefixFree (path : α → List Bool) (symbols : List α) : Prop :=
  ∀ first ∈ symbols, ∀ second ∈ symbols, path first <+: path second → first = second

/-- The paths to the leaves of a tree are a prefix code. -/
theorem prefixFree_pathTo [DecidableEq α] (tree : CodeTree α) :
    PrefixFree tree.pathTo tree.symbols := by
  intro first firstMember second secondMember isPrefix
  exact congrArg Prod.fst
    (table_prefixFree (pathTo_mem firstMember) (pathTo_mem secondMember) isPrefix)

/-- The first symbol whose code word stands at the front of the window. -/
def matching (path : α → List Bool) (symbols : List α) (window : List Bool) : Option α :=
  symbols.find? fun symbol => (path symbol).isPrefixOf window

theorem matching_eq (prefixFree : PrefixFree path symbols) {symbol : α} (member : symbol ∈ symbols)
    {window : List Bool} (isPrefix : path symbol <+: window) :
    matching path symbols window = some symbol := by
  cases found : matching path symbols window with
  | none =>
      have differs := List.find?_eq_none.mp found symbol member
      exact absurd (List.isPrefixOf_iff_prefix.mpr isPrefix) differs
  | some other =>
      have otherMatches : (path other).isPrefixOf window = true :=
        List.find?_some (p := fun symbol => (path symbol).isPrefixOf window) found
      have otherPrefix := List.isPrefixOf_iff_prefix.mp otherMatches
      have otherMember := List.mem_of_find?_eq_some found
      rcases List.prefix_or_prefix_of_prefix otherPrefix isPrefix with inside | inside
      · rw [prefixFree other otherMember symbol member inside]
      · rw [prefixFree symbol member other otherMember inside]

/-- Decode at most `remaining` symbols.  As long as bits are unread, the window
is filled up to `ahead` bits, and one symbol is taken off its front. -/
def decodeAhead (path : α → List Bool) (symbols : List α) (ahead : Nat) :
    Nat → List Bool → List Bool → List α
  | 0, _, _ => []
  | remaining + 1, window, unread =>
      if unread = [] then []
      else
        let filled := window ++ unread.take (ahead - window.length)
        match matching path symbols filled with
        | none => []
        | some symbol =>
            symbol :: decodeAhead path symbols ahead remaining
              (filled.drop (path symbol).length) (unread.drop (ahead - window.length))

/-- The text has one symbol, or its last two code words are longer than the
window. -/
def EndsLong (ahead : Nat) (lengths : List Nat) : Prop :=
  lengths.length = 1 ∨ ahead < (lengths.drop (lengths.length - 2)).sum

/-- A text of several words ends long when its words together are longer than
the window, and it still ends long without the first one. -/
theorem endsLong_cons_iff {ahead first : Nat} {rest : List Nat} (nonempty : rest ≠ []) :
    EndsLong ahead (first :: rest) ↔ ahead < first + rest.sum ∧ EndsLong ahead rest := by
  have positive := List.length_pos_iff.mpr nonempty
  by_cases single : rest.length = 1
  · obtain ⟨second, rfl⟩ := List.length_eq_one_iff.mp single
    simp [EndsLong]
  · have drops : (first :: rest).drop (rest.length + 1 - 2) = rest.drop (rest.length - 2) := by
      rw [show rest.length + 1 - 2 = rest.length - 2 + 1 by omega, List.drop_succ_cons]
    have split : (rest.take (rest.length - 2)).sum + (rest.drop (rest.length - 2)).sum =
        rest.sum := by
      rw [← List.sum_append_nat, List.take_append_drop]
    rw [EndsLong, EndsLong, List.length_cons, drops]
    omega

section Window

variable {ahead : Nat} {window unread front rest : List Bool} (small : window.length ≤ ahead)
  (short : front.length ≤ ahead) (split : window ++ unread = front ++ rest)
include small short split

/-- A window that is filled up starts with the next word. -/
theorem filled_eq : window ++ unread.take (ahead - window.length) =
    front ++ rest.take (ahead - front.length) := by
  calc
    window ++ unread.take (ahead - window.length) = (window ++ unread).take ahead := by
      rw [List.take_append, List.take_of_length_le small]
    _ = front ++ rest.take (ahead - front.length) := by
      rw [split, List.take_append, List.take_of_length_le short]

/-- Behind that word the rest of the text follows. -/
theorem drop_filled : (window ++ unread.take (ahead - window.length)).drop front.length ++
    unread.drop (ahead - window.length) = rest := by
  have whole : (window ++ unread.take (ahead - window.length)) ++
      unread.drop (ahead - window.length) = front ++ rest := by
    rw [List.append_assoc, List.take_append_drop, split]
  rw [filled_eq small short split, List.append_assoc] at whole
  rw [filled_eq small short split, List.drop_left, List.append_cancel_left whole]

end Window

/-- The decoder gives back a text exactly when bits are unread before its first
symbol, and it ends long. -/
theorem decodeAhead_eq_iff {ahead : Nat} (prefixFree : PrefixFree path symbols)
    (short : ∀ symbol ∈ symbols, (path symbol).length ≤ ahead) {text : List α}
    (members : ∀ symbol ∈ text, symbol ∈ symbols) (nonempty : text ≠ [])
    {window unread : List Bool} (small : window.length ≤ ahead)
    (split : window ++ unread = text.flatMap path) :
    decodeAhead path symbols ahead text.length window unread = text ↔
      unread ≠ [] ∧ EndsLong ahead (text.map fun symbol => (path symbol).length) := by
  induction text generalizing window unread with
  | nil => contradiction
  | cons first rest ih =>
      by_cases read : unread = []
      · simp [decodeAhead, read]
      · have firstMember := members first List.mem_cons_self
        have firstShort := short first firstMember
        rw [List.flatMap_cons] at split
        have filled := filled_eq small firstShort split
        have isPrefix : path first <+: window ++ unread.take (ahead - window.length) := by
          rw [filled]
          exact List.prefix_append _ _
        have nextSmall : ((window ++ unread.take (ahead - window.length)).drop
            (path first).length).length ≤ ahead := by
          rw [List.length_drop, List.length_append, List.length_take]
          omega
        rw [List.length_cons, decodeAhead, if_neg read]
        dsimp only
        rw [matching_eq prefixFree firstMember isPrefix]
        cases rest with
        | nil => simp [decodeAhead, read, EndsLong]
        | cons second rest =>
            have later := ih (fun symbol inside => members symbol (List.mem_cons_of_mem _ inside))
              (List.cons_ne_nil _ _) nextSmall (drop_filled small firstShort split)
            have total : window.length + unread.length =
                (path first).length +
                  ((second :: rest).map fun symbol => (path symbol).length).sum := by
              rw [← List.length_append, split, List.length_append, List.length_flatMap]
            have unreadNext : unread.drop (ahead - window.length) ≠ [] ↔
                ahead < (path first).length +
                  ((second :: rest).map fun symbol => (path symbol).length).sum := by
              rw [ne_eq, List.drop_eq_nil_iff, ← total]
              omega
            simp only [List.cons.injEq, true_and, ne_eq, read, not_false_eq_true]
            rw [later, unreadNext, List.map_cons (a := first), endsLong_cons_iff (by simp)]

end Decoding

end PrefixCode

end MiniIotRobotEdge
