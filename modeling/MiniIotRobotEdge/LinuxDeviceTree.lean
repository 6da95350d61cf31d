import Mathlib.Data.List.Basic
import Mathlib.Data.List.GetD
import Mathlib.Tactic.Ring
import MiniIotRobotEdge.ByteText

/-!
# Device trees and their overlays

The model of the trees in `device_tree_overlay.c`.  Strings are lists of bytes
without their zero, no pointer is null, and the value of a property is the
memory of its union.  The tree has the path "//" at its root, and an overlay
only gives names: what is merged into a new node are the properties of another
node of the same tree.
-/

namespace MiniIotRobotEdge

namespace Linux

open Memory

def dtMaxNodes : Nat := 256
def dtMaxProperties : Nat := 128
def dtMaxFragments : Nat := 32
def dtNameMax : Nat := 64
def dtPathMax : Nat := 256
def dtValueMax : Nat := 512

inductive DtPropType
  | empty
  | u32
  | u64
  | string
  | stringList
  | bytes
  | phandle
  deriving DecidableEq, Repr

structure DtProperty where
  name : List UInt8
  len : Nat
  value : Memory
  type : DtPropType

structure DtNode where
  name : List UInt8
  fullPath : List UInt8
  properties : List DtProperty
  parentIndex : Int
  childIndices : List Nat
  isOverlay : Bool

structure DeviceTree where
  nodes : List DtNode
  rootIndex : Int

/-- A node of zeros, as `memset` leaves it. -/
def DtNode.zero : DtNode := ⟨[], [], [], 0, [], false⟩

def DtProperty.zero : DtProperty := ⟨[], 0, fun _ => 0, .empty⟩

/-- The character that separates the names of a path. -/
def slash : UInt8 := 47

/-- What `snprintf` leaves in a path. -/
def pathText (text : List UInt8) : List UInt8 := text.take (dtPathMax - 1)

def dtNodeAdd (dt : DeviceTree) (parent : Int) (name : List UInt8) : DeviceTree × Int :=
  if dtMaxNodes ≤ dt.nodes.length then (dt, -1)
  else
    let idx := dt.nodes.length
    let node := { DtNode.zero with name := name.take (dtNameMax - 1) }
    if 0 ≤ parent ∧ parent < dt.nodes.length then
      let parentPath := (dt.nodes.getD parent.toNat .zero).fullPath
      let fullPath :=
        if parentPath = [slash] then pathText (slash :: name)
        else pathText (parentPath ++ slash :: name)
      let nodes := dt.nodes.modify parent.toNat fun pnode =>
        if pnode.childIndices.length < dtMaxNodes then
          { pnode with childIndices := pnode.childIndices ++ [idx] }
        else pnode
      ({ dt with nodes := nodes ++ [{ node with fullPath := fullPath, parentIndex := parent }] },
        idx)
    else
      ({ dt with
          nodes := dt.nodes ++
            [{ node with fullPath := pathText (slash :: name), parentIndex := -1 }] }, idx)

def dtInit : DeviceTree :=
  let (dt, rootIndex) := dtNodeAdd ⟨[], 0⟩ (-1) [slash]
  { dt with rootIndex := rootIndex }

def dtNodeFind (dt : DeviceTree) (path : List UInt8) : Int :=
  match dt.nodes.findIdx? fun node => node.fullPath = path with
  | some i => i
  | none => -1

/-- The steps that the three functions share; they return different codes for a full node. -/
def dtPropAdd (full : Int) (set : DtProperty → DtProperty) (dt : DeviceTree) (node : Int)
    (name : List UInt8) : DeviceTree × Int :=
  if node < 0 ∨ node ≥ dt.nodes.length then (dt, -1)
  else
    let n := dt.nodes.getD node.toNat .zero
    if dtMaxProperties ≤ n.properties.length then (dt, full)
    else
      let write := fun p : DtProperty => set { p with name := name.take (dtNameMax - 1) }
      match n.properties.findIdx? fun p => p.name = name with
      | some dup =>
          ({ dt with nodes := dt.nodes.modify node.toNat fun n =>
              { n with properties := n.properties.modify dup write } }, dup)
      | none =>
          ({ dt with nodes := dt.nodes.modify node.toNat fun n =>
              { n with properties := n.properties ++ [write .zero] } }, n.properties.length)

def dtPropAddU32 (dt : DeviceTree) (node : Int) (name : List UInt8) (val : UInt32) :
    DeviceTree × Int :=
  dtPropAdd (-2) (fun p => { p with type := .u32, value := p.value.store 0 4 val.toNat, len := 4 })
    dt node name

def dtPropAddString (dt : DeviceTree) (node : Int) (name val : List UInt8) : DeviceTree × Int :=
  dtPropAdd (-2) (fun p =>
    { p with
      type := .string
      value := p.value.strncpy 0 val (dtValueMax - 1)
      len := val.length + 1 }) dt node name

def dtPropAddBytes (dt : DeviceTree) (node : Int) (name val : List UInt8) : DeviceTree × Int :=
  if node < 0 ∨ node ≥ dt.nodes.length then (dt, -1)
  else if val.length > dtValueMax then (dt, -2)
  else
    dtPropAdd (-3) (fun p =>
      { p with type := .bytes, value := p.value.writeBytes 0 val, len := val.length }) dt node name

/-! ### Overlays -/

structure DtFragment where
  targetPath : List UInt8
  fragmentNodes : List Nat

structure DtOverlay where
  fragments : List DtFragment
  overlayNodes : List DtNode

def dtOverlayInit : DtOverlay := ⟨[], []⟩

def dtOverlayAddFragment (overlay : DtOverlay) (targetPath : List UInt8) : DtOverlay × Int :=
  if dtMaxFragments ≤ overlay.fragments.length then (overlay, -1)
  else
    ({ overlay with
        fragments := overlay.fragments ++ [⟨targetPath.take (dtPathMax - 1), []⟩] },
      overlay.fragments.length)

def dtOverlayAddNode (overlay : DtOverlay) (fragIdx : Int) (name : List UInt8) :
    DtOverlay × Int :=
  if fragIdx < 0 ∨ fragIdx ≥ overlay.fragments.length then (overlay, -1)
  else if dtMaxNodes ≤ overlay.overlayNodes.length then (overlay, -2)
  else
    let idx := overlay.overlayNodes.length
    ({ fragments := overlay.fragments.modify fragIdx.toNat fun f =>
        if f.fragmentNodes.length < dtMaxNodes then
          { f with fragmentNodes := f.fragmentNodes ++ [idx] }
        else f
       overlayNodes := overlay.overlayNodes ++
        [{ DtNode.zero with name := name.take (dtNameMax - 1), isOverlay := true }] }, idx)

/-- The body of the loop of `dt_merge_overlay_node`. -/
def mergeProperty (baseNode : Int) (baseDt : DeviceTree) (p : DtProperty) : DeviceTree :=
  match p.type with
  | .u32 => (dtPropAddU32 baseDt baseNode p.name (.ofNat (p.value.load 0 4))).1
  | .string => (dtPropAddString baseDt baseNode p.name (p.value.text 0 dtValueMax)).1
  | .bytes => (dtPropAddBytes baseDt baseNode p.name (p.value.bytes 0 p.len)).1
  | _ => baseDt

/-- The node that is read is one of the base tree.  It is another one than the target, or
the target has no properties yet. -/
def dtMergeOverlayNode (baseDt : DeviceTree) (baseNode overlayNode : Int) : DeviceTree × Int :=
  if baseNode < 0 ∨ overlayNode < 0 then (baseDt, -1)
  else
    let ov := baseDt.nodes.getD overlayNode.toNat .zero
    (ov.properties.foldl (mergeProperty baseNode) baseDt, 0)

def symbolsName : List UInt8 := [95, 95, 115, 121, 109, 98, 111, 108, 115, 95, 95]
def overlayName : List UInt8 := [111, 118, 101, 114, 108, 97, 121]
def innerOverlayName : List UInt8 := [95, 95, 111, 118, 101, 114, 108, 97, 121, 95, 95]

/-- Whether the nodes of a fragment are merged. -/
def MergesInto (targetPath : List UInt8) : Prop :=
  let tpath := if targetPath.head? = some 38 then targetPath.tail else targetPath
  targetPath ≠ symbolsName ∧ (tpath = overlayName ∨ tpath = innerOverlayName)

instance (targetPath : List UInt8) : Decidable (MergesInto targetPath) :=
  inferInstanceAs (Decidable (_ ∧ _))

/-- The body of the inner loop of `dt_apply_overlay`. -/
def mergeNode (overlay : DtOverlay) (applied : DeviceTree × Int) (ovIdx : Nat) :
    DeviceTree × Int :=
  let (baseDt, merged) := applied
  let (baseDt, baseNode) :=
    dtNodeAdd baseDt baseDt.rootIndex (overlay.overlayNodes.getD ovIdx .zero).name
  ((dtMergeOverlayNode baseDt baseNode ovIdx).1, merged + 1)

/-- The result comes with the number of nodes that were merged. -/
def dtApplyOverlay (baseDt : DeviceTree) (overlay : DtOverlay) : DeviceTree × Int :=
  overlay.fragments.foldl (fun applied frag =>
    if MergesInto frag.targetPath then frag.fragmentNodes.foldl (mergeNode overlay) applied
    else applied) (baseDt, 0)

/-! ### What stays in place -/

/-- What the place of a node is made of. -/
structure DtPlace where
  name : List UInt8
  fullPath : List UInt8
  parentIndex : Int
  deriving DecidableEq, Repr

def DtNode.place (node : DtNode) : DtPlace := ⟨node.name, node.fullPath, node.parentIndex⟩

/-- The places of all nodes. -/
def DeviceTree.places (dt : DeviceTree) : List DtPlace := dt.nodes.map DtNode.place

/-- The place of a new child of a node with the given path. -/
def childPlace (parentPath : List UInt8) (parent : Int) (name : List UInt8) : DtPlace :=
  ⟨name.take (dtNameMax - 1),
    if parentPath = [slash] then pathText (slash :: name) else pathText (parentPath ++ slash :: name),
    parent⟩

section Places

variable {dt : DeviceTree} {node parent : Int} {name : List UInt8}

theorem map_modify {α View : Type*} {view : α → View} {change : α → α}
    (keeps : ∀ entry, view (change entry) = view entry) (entries : List α) (i : Nat) :
    (entries.modify i change).map view = entries.map view := by
  apply List.ext_getElem?
  intro j
  rw [List.getElem?_map, List.getElem?_map, List.getElem?_modify]
  cases entries[j]? with
  | none => split <;> rfl
  | some entry =>
      split
      · exact congrArg some (keeps entry)
      · rfl

/-- Properties are added to nodes that stay where they are. -/
structure Stays (before after : DeviceTree) (node : Int) : Prop where
  places : after.places = before.places
  rootIndex : after.rootIndex = before.rootIndex
  properties : ∀ count : Nat, (count : Int) ≤ node →
    (after.nodes.take count).map DtNode.properties = (before.nodes.take count).map DtNode.properties

theorem Stays.refl (dt : DeviceTree) (node : Int) : Stays dt dt node :=
  ⟨rfl, rfl, fun _ _ => rfl⟩

theorem Stays.trans {first second third : DeviceTree} (one : Stays first second node)
    (other : Stays second third node) : Stays first third node where
  places := other.places.trans one.places
  rootIndex := other.rootIndex.trans one.rootIndex
  properties := fun count before =>
    (other.properties count before).trans (one.properties count before)

/-- A node whose properties are changed. -/
theorem stays_modify (dt : DeviceTree) (node : Int) (nonneg : 0 ≤ node)
    (change : List DtProperty → List DtProperty) :
    Stays dt { dt with nodes := dt.nodes.modify node.toNat fun n =>
      { n with properties := change n.properties } } node where
  places := map_modify (fun n =>
    show DtNode.place { n with properties := change n.properties } = n.place from rfl) ..
  rootIndex := rfl
  properties := by
    intro count before
    dsimp only
    rw [List.take_modify, List.modify_eq_self]
    rw [List.length_take]
    omega

theorem dtPropAdd_stays (full : Int) (set : DtProperty → DtProperty) (dt : DeviceTree) (node : Int)
    (name : List UInt8) : Stays dt (dtPropAdd full set dt node name).1 node := by
  unfold dtPropAdd
  split
  · exact .refl dt node
  · rename_i inside
    dsimp only
    split
    · exact .refl dt node
    · split
      · exact stays_modify dt node (by omega) _
      · exact stays_modify dt node (by omega)
          (· ++ [set { DtProperty.zero with name := name.take (dtNameMax - 1) }])

theorem dtPropAddBytes_stays (dt : DeviceTree) (node : Int) (name val : List UInt8) :
    Stays dt (dtPropAddBytes dt node name val).1 node := by
  unfold dtPropAddBytes
  split_ifs
  · exact .refl dt node
  · exact .refl dt node
  · exact dtPropAdd_stays ..

theorem mergeProperty_stays (dt : DeviceTree) (node : Int) (p : DtProperty) :
    Stays dt (mergeProperty node dt p) node := by
  unfold mergeProperty
  split
  · exact dtPropAdd_stays ..
  · exact dtPropAdd_stays ..
  · exact dtPropAddBytes_stays ..
  · exact .refl dt node

theorem foldl_mergeProperty_stays (properties : List DtProperty) (dt : DeviceTree) (node : Int) :
    Stays dt (properties.foldl (mergeProperty node) dt) node := by
  induction properties generalizing dt with
  | nil => exact .refl dt node
  | cons p rest ih => exact (mergeProperty_stays dt node p).trans (ih _)

theorem dtMergeOverlayNode_stays (dt : DeviceTree) (node overlayNode : Int) :
    Stays dt (dtMergeOverlayNode dt node overlayNode).1 node := by
  unfold dtMergeOverlayNode
  split
  · exact .refl dt node
  · exact foldl_mergeProperty_stays _ dt node

theorem DeviceTree.length_places (dt : DeviceTree) : dt.places.length = dt.nodes.length :=
  List.length_map ..

theorem getElem?_places {i : Nat} {place : DtPlace} (isPlace : dt.places[i]? = some place) :
    ∃ node, dt.nodes[i]? = some node ∧ node.place = place := by
  rw [DeviceTree.places, List.getElem?_map] at isPlace
  exact Option.map_eq_some_iff.mp isPlace

/-- What becomes of a new node: there is no room for it, or it stands behind the others as
a child of the given node or as a node without a parent. -/
inductive NodeAdded (dt : DeviceTree) (parent : Int) (name : List UInt8) :
    DeviceTree × Int → Prop
  | refused (full : dtMaxNodes ≤ dt.nodes.length) : NodeAdded dt parent name (dt, -1)
  | added {after : DeviceTree} {place : DtPlace} (space : dt.nodes.length < dtMaxNodes)
      (rootIndex : after.rootIndex = dt.rootIndex) (places : after.places = dt.places ++ [place])
      (properties : after.nodes.map DtNode.properties = dt.nodes.map DtNode.properties ++ [[]])
      (child : ∀ parentPlace, 0 ≤ parent → dt.places[parent.toNat]? = some parentPlace →
        place = childPlace parentPlace.fullPath parent name)
      (orphan : (dt.nodes.length : Int) ≤ parent ∨ parent < 0 → place.parentIndex = -1) :
      NodeAdded dt parent name (after, dt.nodes.length)

theorem dtNodeAdd_cases (dt : DeviceTree) (parent : Int) (name : List UInt8) :
    NodeAdded dt parent name (dtNodeAdd dt parent name) := by
  unfold dtNodeAdd
  split
  · rename_i full
    exact .refused full
  · rename_i space
    dsimp only
    split
    · rename_i isParent
      let change : DtNode → DtNode := fun pnode =>
        if pnode.childIndices.length < dtMaxNodes then
          { pnode with childIndices := pnode.childIndices ++ [dt.nodes.length] }
        else pnode
      have keepsPlace : ∀ pnode, (change pnode).place = pnode.place := by
        intro pnode
        unfold change
        split <;> rfl
      have keepsProperties : ∀ pnode, (change pnode).properties = pnode.properties := by
        intro pnode
        unfold change
        split <;> rfl
      refine @NodeAdded.added dt parent name _
        (childPlace (dt.nodes.getD parent.toNat .zero).fullPath parent name)
        (Nat.lt_of_not_le space) rfl ?_ ?_ ?_ ?_
      · exact List.map_append.trans (congrArg (· ++ _) (map_modify keepsPlace ..))
      · exact List.map_append.trans (congrArg (· ++ _) (map_modify keepsProperties ..))
      · intro parentPlace _ isPlace
        obtain ⟨pnode, isNode, rfl⟩ := getElem?_places isPlace
        rw [List.getD_eq_getElem?_getD, isNode]
        rfl
      · omega
    · rename_i orphan
      refine @NodeAdded.added dt parent name _
        ⟨name.take (dtNameMax - 1), pathText (slash :: name), -1⟩
        (Nat.lt_of_not_le space) rfl ?_ ?_ ?_ fun _ => rfl
      · exact List.map_append
      · exact List.map_append
      · intro parentPlace nonneg isPlace
        obtain ⟨pnode, isNode, rfl⟩ := getElem?_places isPlace
        obtain ⟨inside, _⟩ := List.getElem?_eq_some_iff.mp isNode
        omega

end Places

/-! ### Trees with the root that `dt_init` makes -/

/-- The root has the path "//", so that no child of it is found where one would look. -/
structure Rooted (dt : DeviceTree) : Prop where
  rootIndex : dt.rootIndex = 0
  root : ∃ place, dt.places[0]? = some place ∧ place.fullPath = [slash, slash]
  children : ∀ place ∈ dt.places, place.parentIndex = 0 → place.fullPath ≠ slash :: place.name

/-- The place of a new child of the root. -/
def rootChild (name : List UInt8) : DtPlace := childPlace [slash, slash] 0 name

section Rooted

variable {dt after : DeviceTree}

theorem rootChild_fullPath (name : List UInt8) :
    (rootChild name).fullPath = pathText (slash :: slash :: slash :: name) := by
  rw [rootChild, childPlace, if_neg (by decide)]
  rfl

/-- The path is too long by two characters, or the name is cut and the path is not. -/
theorem rootChild_fullPath_ne (name : List UInt8) :
    (rootChild name).fullPath ≠ slash :: (rootChild name).name := by
  intro same
  have lengths := congrArg List.length same
  rw [rootChild_fullPath, pathText, List.length_take] at lengths
  simp only [rootChild, childPlace, List.length_cons, List.length_take, dtPathMax, dtNameMax] at lengths
  omega

theorem Rooted.stays {node : Int} (rooted : Rooted dt) (stays : Stays dt after node) :
    Rooted after where
  rootIndex := stays.rootIndex.trans rooted.rootIndex
  root := by
    rw [stays.places]
    exact rooted.root
  children := by
    rw [stays.places]
    exact rooted.children

theorem Rooted.nodeAdd (rooted : Rooted dt) (parent : Int) (name : List UInt8) :
    Rooted (dtNodeAdd dt parent name).1 := by
  have added := dtNodeAdd_cases dt parent name
  obtain ⟨rootPlace, isRoot, rootPath⟩ := rooted.root
  generalize dtNodeAdd dt parent name = result at added ⊢
  cases added with
  | refused _ => exact rooted
  | @added after place _ rootIndex places _ child orphan =>
      refine ⟨rootIndex.trans rooted.rootIndex, ⟨rootPlace, ?_, rootPath⟩, ?_⟩
      · obtain ⟨inside, _⟩ := List.getElem?_eq_some_iff.mp isRoot
        rw [places, List.getElem?_append_left inside, isRoot]
      · intro other listed ofRoot
        rw [places] at listed
        rcases List.mem_append.mp listed with old | new
        · exact rooted.children other old ofRoot
        · rw [List.mem_singleton.mp new] at ofRoot ⊢
          by_cases isOrphan : (dt.nodes.length : Int) ≤ parent ∨ parent < 0
          · have noParent := orphan isOrphan
            omega
          · have inside : parent.toNat < dt.places.length := by
              rw [DeviceTree.length_places]
              omega
            have isChild := child _ (by omega) (List.getElem?_eq_getElem inside)
            have isZero : parent = 0 := by
              rw [isChild] at ofRoot
              exact ofRoot
            subst isZero
            have ofRootPlace := child rootPlace le_rfl isRoot
            rw [rootPath] at ofRootPlace
            rw [ofRootPlace]
            exact rootChild_fullPath_ne name

theorem rooted_dtInit : Rooted dtInit where
  rootIndex := rfl
  root := ⟨_, rfl, rfl⟩
  children := by
    intro place listed ofRoot
    have isRoot : place = ⟨[slash], [slash, slash], -1⟩ := List.mem_singleton.mp listed
    rw [isRoot] at ofRoot
    exact absurd ofRoot (by decide)

end Rooted

/-- A call that builds a tree. -/
inductive DtCall
  | nodeAdd (parent : Int) (name : List UInt8)
  | propAddU32 (node : Int) (name : List UInt8) (val : UInt32)
  | propAddString (node : Int) (name val : List UInt8)
  | propAddBytes (node : Int) (name val : List UInt8)

def DtCall.run (dt : DeviceTree) : DtCall → DeviceTree
  | nodeAdd parent name => (dtNodeAdd dt parent name).1
  | propAddU32 node name val => (dtPropAddU32 dt node name val).1
  | propAddString node name val => (dtPropAddString dt node name val).1
  | propAddBytes node name val => (dtPropAddBytes dt node name val).1

/-- The tree that `dt_init` and some calls behind it make. -/
def builtTree (calls : List DtCall) : DeviceTree := calls.foldl DtCall.run dtInit

theorem rooted_builtTree (calls : List DtCall) : Rooted (builtTree calls) := by
  refine List.foldlRecOn calls DtCall.run rooted_dtInit fun dt rooted call _ => ?_
  cases call with
  | nodeAdd parent name => exact rooted.nodeAdd parent name
  | propAddU32 node name val => exact rooted.stays (dtPropAdd_stays ..)
  | propAddString node name val => exact rooted.stays (dtPropAdd_stays ..)
  | propAddBytes node name val => exact rooted.stays (dtPropAddBytes_stays ..)

/-! ### What an overlay adds -/

/-- New children of the root stand behind the nodes of a tree, which keep their properties. -/
structure Grown (before after : DeviceTree) (names : List (List UInt8)) : Prop where
  rootIndex : after.rootIndex = before.rootIndex
  places : after.places = before.places ++ names.map rootChild
  properties : (after.nodes.take before.nodes.length).map DtNode.properties =
    before.nodes.map DtNode.properties

/-- The nodes that are merged, in order. -/
def mergedNodes (overlay : DtOverlay) : List Nat :=
  (overlay.fragments.filter fun frag => MergesInto frag.targetPath).flatMap
    DtFragment.fragmentNodes

def mergedNames (overlay : DtOverlay) : List (List UInt8) :=
  (mergedNodes overlay).map fun ovIdx => (overlay.overlayNodes.getD ovIdx .zero).name

section Applied

variable {before after : DeviceTree} {names : List (List UInt8)}

theorem Grown.refl (dt : DeviceTree) : Grown dt dt [] where
  rootIndex := rfl
  places := (List.append_nil _).symm
  properties := by rw [List.take_length]

theorem Grown.trans {last : DeviceTree} {others : List (List UInt8)}
    (first : Grown before after names) (second : Grown after last others) :
    Grown before last (names ++ others) where
  rootIndex := second.rootIndex.trans first.rootIndex
  places := by rw [second.places, first.places, List.map_append, List.append_assoc]
  properties := by
    have longer : before.nodes.length ≤ after.nodes.length := by
      have lengths := congrArg List.length first.places
      rw [List.length_append, DeviceTree.length_places, DeviceTree.length_places] at lengths
      omega
    have kept := congrArg (List.take before.nodes.length) second.properties
    rw [← List.map_take, ← List.map_take, List.take_take, Nat.min_eq_left longer] at kept
    exact kept.trans first.properties

theorem Grown.length (grown : Grown before after names) :
    after.nodes.length = before.nodes.length + names.length := by
  have lengths := congrArg List.length grown.places
  rwa [List.length_append, List.length_map, DeviceTree.length_places,
    DeviceTree.length_places] at lengths

/-- A new node with the properties that are merged into it. -/
theorem Rooted.grown_of_added (rooted : Rooted before) {name : List UInt8} {place : DtPlace}
    (places : after.places = before.places ++ [place])
    (rootIndex : after.rootIndex = before.rootIndex)
    (properties : after.nodes.map DtNode.properties = before.nodes.map DtNode.properties ++ [[]])
    (child : ∀ parentPlace, 0 ≤ before.rootIndex →
      before.places[before.rootIndex.toNat]? = some parentPlace →
        place = childPlace parentPlace.fullPath before.rootIndex name) {last : DeviceTree}
    (stays : Stays after last before.nodes.length) : Grown before last [name] where
  rootIndex := stays.rootIndex.trans rootIndex
  places := by
    obtain ⟨rootPlace, isRoot, rootPath⟩ := rooted.root
    rw [rooted.rootIndex] at child
    have isChild := child rootPlace le_rfl isRoot
    rw [rootPath] at isChild
    rw [stays.places, places, isChild]
    rfl
  properties := by
    rw [stays.properties _ le_rfl, List.map_take, properties]
    exact List.take_left' (List.length_map ..)

/-- A turn of the loop adds one child of the root as long as there is room. -/
theorem mergeNode_grown (overlay : DtOverlay) (rooted : Rooted before) (merged : Int) (ovIdx : Nat) :
    Grown before (mergeNode overlay (before, merged) ovIdx).1
        ([(overlay.overlayNodes.getD ovIdx .zero).name].take (dtMaxNodes - before.nodes.length)) ∧
      Rooted (mergeNode overlay (before, merged) ovIdx).1 ∧
        (mergeNode overlay (before, merged) ovIdx).2 = merged + 1 := by
  simp only [mergeNode]
  generalize (overlay.overlayNodes.getD ovIdx .zero).name = name
  have added := dtNodeAdd_cases before before.rootIndex name
  have stillRooted := rooted.nodeAdd before.rootIndex name
  generalize dtNodeAdd before before.rootIndex name = result at added stillRooted ⊢
  cases added with
  | refused full =>
      have same : (dtMergeOverlayNode before (-1) ovIdx).1 = before := rfl
      rw [same, Nat.sub_eq_zero_of_le full]
      exact ⟨.refl before, rooted, trivial⟩
  | @added after place space rootIndex places properties child _ =>
      have stays := dtMergeOverlayNode_stays after before.nodes.length ovIdx
      have room : [name].take (dtMaxNodes - before.nodes.length) = [name] :=
        List.take_of_length_le (by rw [List.length_singleton]; omega)
      rw [room]
      exact ⟨rooted.grown_of_added places rootIndex properties child stays,
        stillRooted.stays stays, trivial⟩

/-- The room behind the first entry. -/
theorem take_cons_sub {α : Type*} (entry : α) (rest : List α) (space used : Nat) :
    (entry :: rest).take (space - used) =
      [entry].take (space - used) ++
        rest.take (space - (used + ([entry].take (space - used)).length)) := by
  rcases Nat.le_total space used with full | _
  · rw [Nat.sub_eq_zero_of_le full, Nat.sub_eq_zero_of_le (Nat.le_add_right_of_le full)]
    rfl
  · cases room : space - used with
    | zero =>
        rw [Nat.sub_eq_zero_of_le (Nat.le_add_right_of_le (Nat.le_of_sub_eq_zero room))]
        rfl
    | succ left =>
        have behind : space - (used + 1) = left := by omega
        rw [List.take_succ_cons, List.take_succ_cons, List.take_nil, List.length_singleton, behind]
        rfl

theorem foldl_mergeNode_grown (overlay : DtOverlay) (ovIdxs : List Nat) (rooted : Rooted before)
    (merged : Int) :
    Grown before (ovIdxs.foldl (mergeNode overlay) (before, merged)).1
      ((ovIdxs.map fun ovIdx => (overlay.overlayNodes.getD ovIdx .zero).name).take
        (dtMaxNodes - before.nodes.length)) ∧
      Rooted (ovIdxs.foldl (mergeNode overlay) (before, merged)).1 ∧
        (ovIdxs.foldl (mergeNode overlay) (before, merged)).2 = merged + ovIdxs.length := by
  induction ovIdxs generalizing before merged with
  | nil => exact ⟨by simpa using Grown.refl before, rooted, by simp⟩
  | cons ovIdx rest ih =>
      obtain ⟨grown, stillRooted, counted⟩ := mergeNode_grown overlay rooted merged ovIdx
      rw [List.foldl_cons]
      generalize mergeNode overlay (before, merged) ovIdx = next at grown stillRooted counted ⊢
      obtain ⟨after, count⟩ := next
      dsimp only at grown stillRooted counted
      obtain ⟨others, lastRooted, total⟩ := ih stillRooted count
      refine ⟨?_, lastRooted, ?_⟩
      · rw [List.map_cons, take_cons_sub, ← grown.length]
        exact grown.trans others
      · rw [total, counted, List.length_cons, Nat.cast_succ]
        ring

theorem dtApplyOverlay_eq (baseDt : DeviceTree) (overlay : DtOverlay) :
    dtApplyOverlay baseDt overlay = (mergedNodes overlay).foldl (mergeNode overlay) (baseDt, 0) := by
  rw [mergedNodes, List.foldl_flatMap, List.foldl_filter]
  simp only [dtApplyOverlay, decide_eq_true_eq]

/-- What `dt_apply_overlay` adds: a child of the root for each node, as far as there is room;
the nodes in front keep their places and their properties. -/
theorem dtApplyOverlay_grown (calls : List DtCall) (overlay : DtOverlay) :
    Grown (builtTree calls) (dtApplyOverlay (builtTree calls) overlay).1
        ((mergedNames overlay).take (dtMaxNodes - (builtTree calls).nodes.length)) ∧
      (dtApplyOverlay (builtTree calls) overlay).2 = (mergedNodes overlay).length := by
  have grown := foldl_mergeNode_grown overlay (mergedNodes overlay) (rooted_builtTree calls) 0
  rw [dtApplyOverlay_eq]
  exact ⟨grown.1, grown.2.2.trans (Int.zero_add _)⟩

/-- Only the names of the overlay's nodes matter, and none of their properties. -/
theorem dtApplyOverlay_congr (baseDt : DeviceTree) {overlay other : DtOverlay}
    (fragments : other.fragments = overlay.fragments)
    (sameNames : other.overlayNodes.map DtNode.name = overlay.overlayNodes.map DtNode.name) :
    dtApplyOverlay baseDt other = dtApplyOverlay baseDt overlay := by
  have name : ∀ ovIdx : Nat, (other.overlayNodes.getD ovIdx .zero).name =
      (overlay.overlayNodes.getD ovIdx .zero).name := by
    intro ovIdx
    have entry := congrArg (fun list => list.getD ovIdx DtNode.zero.name) sameNames
    rwa [List.getD_map, List.getD_map] at entry
  have body : mergeNode other = mergeNode overlay := by
    funext applied ovIdx
    rw [mergeNode, name, mergeNode]
  rw [dtApplyOverlay_eq, dtApplyOverlay_eq, mergedNodes, mergedNodes, fragments, body]

end Applied

/-! ### Overlays that are built and applied -/

/-- A call that builds an overlay. -/
inductive OverlayCall
  | addFragment (targetPath : List UInt8)
  | addNode (fragIdx : Int) (name : List UInt8)

def OverlayCall.run (overlay : DtOverlay) : OverlayCall → DtOverlay
  | addFragment targetPath => (dtOverlayAddFragment overlay targetPath).1
  | addNode fragIdx name => (dtOverlayAddNode overlay fragIdx name).1

/-- The overlay that some calls make; its nodes are then given properties, for which the
source has no function. -/
def builtOverlay (calls : List OverlayCall) (properties : Nat → List DtProperty) : DtOverlay :=
  let overlay := calls.foldl OverlayCall.run dtOverlayInit
  { overlay with
    overlayNodes := overlay.overlayNodes.mapIdx fun i node =>
      { node with properties := properties i } }

/-- The fragments list nodes that the overlay has. -/
def ListsOwnNodes (overlay : DtOverlay) : Prop :=
  ∀ frag ∈ overlay.fragments, ∀ ovIdx ∈ frag.fragmentNodes, ovIdx < overlay.overlayNodes.length

theorem ListsOwnNodes.run {overlay : DtOverlay} (own : ListsOwnNodes overlay)
    (call : OverlayCall) : ListsOwnNodes (call.run overlay) := by
  cases call with
  | addFragment targetPath =>
      simp only [OverlayCall.run, dtOverlayAddFragment]
      split
      · exact own
      · intro frag listed ovIdx isNode
        rcases List.mem_append.mp listed with old | new
        · exact own frag old ovIdx isNode
        · rw [List.mem_singleton.mp new] at isNode
          exact absurd isNode List.not_mem_nil
  | addNode fragIdx name =>
      simp only [OverlayCall.run, dtOverlayAddNode]
      split_ifs
      · exact own
      · exact own
      · intro frag listed ovIdx isNode
        rw [List.length_append, List.length_singleton]
        obtain ⟨i, inside, rfl⟩ := List.getElem_of_mem listed
        rw [List.length_modify] at inside
        have old := own _ (List.getElem_mem inside)
        rw [List.getElem_modify] at isNode
        split_ifs at isNode
        · rcases List.mem_append.mp isNode with listed | new
          · exact Nat.lt_succ_of_lt (old ovIdx listed)
          · rw [List.mem_singleton.mp new]
            exact Nat.lt_succ_self _
        · exact Nat.lt_succ_of_lt (old ovIdx isNode)
        · exact Nat.lt_succ_of_lt (old ovIdx isNode)

theorem listsOwnNodes_builtOverlay (calls : List OverlayCall)
    (properties : Nat → List DtProperty) : ListsOwnNodes (builtOverlay calls properties) := by
  have own : ListsOwnNodes (calls.foldl OverlayCall.run dtOverlayInit) :=
    List.foldlRecOn calls OverlayCall.run (fun _ listed => absurd listed List.not_mem_nil)
      fun _ own call _ => own.run call
  intro frag listed ovIdx isNode
  rw [builtOverlay, List.length_mapIdx]
  exact own frag listed ovIdx isNode

/-- Without nodes there is nothing to merge. -/
theorem mergedNodes_eq_nil {overlay : DtOverlay} (own : ListsOwnNodes overlay)
    (none : overlay.overlayNodes = []) : mergedNodes overlay = [] := by
  rw [mergedNodes, List.flatMap_eq_nil_iff]
  intro frag merged
  rw [List.eq_nil_iff_forall_not_mem]
  intro ovIdx isNode
  have inside := own frag (List.mem_of_mem_filter merged) ovIdx isNode
  rw [none] at inside
  exact absurd inside (Nat.not_lt_zero ovIdx)

/-- What a property shows of its value. -/
inductive DtValue
  | u32 (val : Nat)
  | string (val : List UInt8)
  | bytes (val : List UInt8)
  | other (type : DtPropType)
  deriving DecidableEq, Repr

def DtProperty.shown (p : DtProperty) : List UInt8 × DtValue :=
  (p.name, match p.type with
    | .u32 => .u32 (p.value.load 0 4)
    | .string => .string (p.value.text 0 dtValueMax)
    | .bytes => .bytes (p.value.bytes 0 p.len)
    | type => .other type)

def DtNode.shown (node : DtNode) : List (List UInt8 × DtValue) :=
  node.properties.map DtProperty.shown

/-- The node is a child of the root with the given name. -/
def IsRootChild (dt : DeviceTree) (name : List UInt8) (j : Nat) : Prop :=
  ∃ node, dt.nodes[j]? = some node ∧ node.parentIndex = dt.rootIndex ∧ node.name = name

/-- What is expected of an overlay: its nodes are the new children of the root, with their
properties and under their paths, and nothing else changes. -/
structure OverlayApplied (base : DeviceTree) (overlay : DtOverlay) (after : DeviceTree) :
    Prop where
  added : ∀ ovNode ∈ overlay.overlayNodes, ∃ j,
    base.nodes.length ≤ j ∧ IsRootChild after ovNode.name j ∧
      (∀ other, IsRootChild after ovNode.name other → other = j) ∧
      (∀ node, after.nodes[j]? = some node → node.shown = ovNode.shown) ∧
      dtNodeFind after (slash :: ovNode.name) = j
  unchanged : ∀ (i : Nat) (node : DtNode), base.nodes[i]? = some node → ∃ kept : DtNode,
    after.nodes[i]? = some kept ∧ kept.properties = node.properties ∧
      kept.fullPath = node.fullPath

theorem dtNodeFind_eq {dt : DeviceTree} {path : List UInt8} {j : Nat}
    (found : dtNodeFind dt path = j) : ∃ node, dt.nodes[j]? = some node ∧ node.fullPath = path := by
  unfold dtNodeFind at found
  split at found
  · rename_i i first
    obtain ⟨inside, isPath, _⟩ := List.findIdx?_eq_some_iff_getElem.mp first
    obtain rfl : i = j := Nat.cast_inj.mp found
    exact ⟨_, List.getElem?_eq_getElem inside, of_decide_eq_true isPath⟩
  · omega

/-- No child of the root is found under its path. -/
theorem Rooted.dtNodeFind_ne {dt : DeviceTree} (rooted : Rooted dt) {name : List UInt8} {j : Nat}
    (child : IsRootChild dt name j) : dtNodeFind dt (slash :: name) ≠ j := by
  intro found
  obtain ⟨node, isNode, ofRoot, rfl⟩ := child
  obtain ⟨_, isFound, isPath⟩ := dtNodeFind_eq found
  rw [isNode] at isFound
  cases isFound
  have listed : node.place ∈ dt.places := List.mem_map_of_mem (List.mem_of_getElem? isNode)
  exact rooted.children _ listed (ofRoot.trans rooted.rootIndex) isPath

theorem Grown.unchanged {before after : DeviceTree} {names : List (List UInt8)}
    (grown : Grown before after names) {i : Nat} {node : DtNode}
    (isNode : before.nodes[i]? = some node) :
    ∃ kept, after.nodes[i]? = some kept ∧ kept.properties = node.properties ∧
      kept.fullPath = node.fullPath := by
  obtain ⟨inside, _⟩ := List.getElem?_eq_some_iff.mp isNode
  have isPlace : before.places[i]? = some node.place := by
    rw [DeviceTree.places, List.getElem?_map, isNode]
    rfl
  have later : after.places[i]? = some node.place := by
    rw [grown.places, List.getElem?_append_left (by rwa [DeviceTree.length_places]), isPlace]
  obtain ⟨kept, isKept, samePlace⟩ := getElem?_places later
  refine ⟨kept, isKept, ?_, congrArg DtPlace.fullPath samePlace⟩
  have entries := congrArg (fun list => list[i]?) grown.properties
  simp only [List.getElem?_map, List.getElem?_take_of_lt inside, isNode, isKept,
    Option.map_some] at entries
  exact Option.some_inj.mp entries

/-- The nodes in front stay what they were. -/
theorem dtApplyOverlay_unchanged (calls : List DtCall) (overlay : DtOverlay) {i : Nat}
    {node : DtNode} (isNode : (builtTree calls).nodes[i]? = some node) :
    ∃ kept, (dtApplyOverlay (builtTree calls) overlay).1.nodes[i]? = some kept ∧
      kept.properties = node.properties ∧ kept.fullPath = node.fullPath :=
  (dtApplyOverlay_grown calls overlay).1.unchanged isNode

/-- For every tree and every overlay that the functions build, and any properties of the
overlay's nodes, the nodes in front keep their paths and properties; but a node of the overlay
is not found under its path. -/
theorem dtApplyOverlay_applied_iff (treeCalls : List DtCall) (overlayCalls : List OverlayCall)
    (properties : Nat → List DtProperty) :
    OverlayApplied (builtTree treeCalls) (builtOverlay overlayCalls properties)
        (dtApplyOverlay (builtTree treeCalls) (builtOverlay overlayCalls properties)).1 ↔
      (builtOverlay overlayCalls properties).overlayNodes = [] := by
  generalize isBase : builtTree treeCalls = base
  have rooted : Rooted base := by
    rw [← isBase]
    exact rooted_builtTree treeCalls
  have own := listsOwnNodes_builtOverlay overlayCalls properties
  generalize builtOverlay overlayCalls properties = overlay at own ⊢
  rw [dtApplyOverlay_eq]
  constructor
  · intro applied
    obtain ⟨_, stillRooted, _⟩ := foldl_mergeNode_grown overlay (mergedNodes overlay) rooted 0
    rw [List.eq_nil_iff_forall_not_mem]
    intro ovNode listed
    obtain ⟨j, _, child, _, _, found⟩ := applied.added ovNode listed
    exact stillRooted.dtNodeFind_ne child found
  · intro none
    rw [mergedNodes_eq_nil own none, List.foldl_nil]
    refine ⟨?_, fun i node isNode => ⟨node, isNode, rfl, rfl⟩⟩
    rw [none]
    exact fun ovNode listed => absurd listed List.not_mem_nil

/-- One node "led" with the property "status" of value 1. -/
def ledOverlay : DtOverlay :=
  builtOverlay [.addFragment overlayName, .addNode 0 [108, 101, 100]] fun _ =>
    [⟨[115, 116, 97, 116, 117, 115], 4, Memory.store (fun _ => 0) 0 4 1, .u32⟩]

theorem dtApplyOverlay_hides :
    ¬ OverlayApplied dtInit ledOverlay (dtApplyOverlay dtInit ledOverlay).1 := by
  intro applied
  obtain ⟨j, _, _, _, _, found⟩ := applied.added _ (List.mem_singleton.mpr rfl)
  have missing :
      dtNodeFind (dtApplyOverlay dtInit ledOverlay).1 [slash, 108, 101, 100] = -1 := by decide
  have natural : dtNodeFind (dtApplyOverlay dtInit ledOverlay).1 [slash, 108, 101, 100] = j := found
  omega

/-- The new node of that overlay has no properties, as the root of the tree has none. -/
example : ((dtApplyOverlay dtInit ledOverlay).1.nodes.map fun node => node.properties.length) =
    [0, 0] := by decide

end Linux

end MiniIotRobotEdge
