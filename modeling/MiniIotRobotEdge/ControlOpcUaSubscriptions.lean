import MiniIotRobotEdge.ControlOpcUa
import MiniIotRobotEdge.StepRuns

/-!
# Subscriptions and the items that belong to them

Items name their subscription by its id.  No operation on subscriptions looks at
the items and no operation on items looks at the subscriptions, so the two
tables agree exactly as long as the callers take care: an item is added under a
subscription that exists, a subscription goes after its items, and neither
counter comes round to an id in use.
-/

namespace MiniIotRobotEdge

namespace Control

open KeyedList StepRuns

/-- What an item says about the rest of the address space. -/
def OpcuaMonitoredItem.link (item : OpcuaMonitoredItem) : UInt32 × UInt32 × UInt32 :=
  (item.monitoredItemId, item.subscriptionId, item.nodeId)

def OpcuaAddressSpace.subscriptionIds (space : OpcuaAddressSpace) : List UInt32 :=
  space.subscriptions.map OpcuaSubscription.subscriptionId

def OpcuaAddressSpace.itemIds (space : OpcuaAddressSpace) : List UInt32 :=
  space.monitoredItems.map OpcuaMonitoredItem.monitoredItemId

/-- The two spaces differ at most in what the items remember of their values. -/
structure OpcuaSameTables (space next : OpcuaAddressSpace) : Prop where
  nodes : next.nodes = space.nodes
  subscriptions : next.subscriptions = space.subscriptions
  nextMonitoredItemId : next.nextMonitoredItemId = space.nextMonitoredItemId
  links : next.monitoredItems.map OpcuaMonitoredItem.link =
    space.monitoredItems.map OpcuaMonitoredItem.link

namespace OpcuaSameTables

variable {space next last : OpcuaAddressSpace}

theorem refl (space : OpcuaAddressSpace) : OpcuaSameTables space space :=
  ⟨rfl, rfl, rfl, rfl⟩

theorem trans (first : OpcuaSameTables space next) (second : OpcuaSameTables next last) :
    OpcuaSameTables space last :=
  ⟨second.nodes.trans first.nodes, second.subscriptions.trans first.subscriptions,
    second.nextMonitoredItemId.trans first.nextMonitoredItemId,
    second.links.trans first.links⟩

theorem itemIds (same : OpcuaSameTables space next) : next.itemIds = space.itemIds := by
  have first := congrArg (List.map Prod.fst) same.links
  simpa [OpcuaAddressSpace.itemIds, OpcuaMonitoredItem.link, Function.comp_def] using first

end OpcuaSameTables

theorem opcuaCheckDataChange_tables (space : OpcuaAddressSpace) (id : UInt32) :
    OpcuaSameTables space (opcuaCheckDataChange space id).1 := by
  unfold opcuaCheckDataChange
  split
  case h_1 => exact .refl space
  case h_2 item found =>
    split
    case h_1 => exact .refl space
    case h_2 node present =>
      split
      case isTrue => exact ⟨rfl, rfl, rfl, map_change fun _ => rfl⟩
      case isFalse => exact .refl space

theorem opcuaCheckItems_tables (ids : List UInt32) (room : Nat) (space : OpcuaAddressSpace) :
    OpcuaSameTables space (opcuaCheckItems space ids room).1 := by
  induction ids generalizing room space with
  | nil => exact .refl space
  | cons id rest ih =>
      have checked := opcuaCheckDataChange_tables space id
      cases room with
      | zero => exact .refl space
      | succ room =>
          rw [opcuaCheckItems]
          split
          case h_1 unchanged result =>
            rw [result] at checked
            exact checked.trans (ih (room + 1) unchanged)
          case h_2 changed value result =>
            rw [result] at checked
            exact checked.trans (ih room changed)

theorem opcuaCheckAllMonitoredItems_tables (space : OpcuaAddressSpace) (maxResults : Int) :
    OpcuaSameTables space (opcuaCheckAllMonitoredItems space maxResults).1 := by
  unfold opcuaCheckAllMonitoredItems
  split
  · exact .refl space
  · exact opcuaCheckItems_tables _ _ space

theorem opcuaStamp_tables (time index : Nat) (space : OpcuaAddressSpace) :
    OpcuaSameTables space (opcuaStamp time index space) := by
  refine ⟨rfl, rfl, rfl, ?_⟩
  apply List.ext_getElem?
  intro position
  simp only [opcuaStamp, List.getElem?_map, List.getElem?_modify]
  cases space.monitoredItems[position]? with
  | none => rfl
  | some item =>
      by_cases here : index = position
      · simp [here, OpcuaMonitoredItem.link]
      · simp [here]

theorem opcuaUpdateFrom_tables (time left index : Nat) (space : OpcuaAddressSpace) :
    OpcuaSameTables space (opcuaUpdateFrom time space index left) := by
  induction left generalizing index space with
  | zero => exact .refl space
  | succ left ih =>
      have stamped := opcuaStamp_tables time index space
      rw [opcuaUpdateFrom]
      split
      case h_1 => exact stamped
      case h_2 item found =>
        have checked := opcuaCheckDataChange_tables (opcuaStamp time index space)
          item.monitoredItemId
        exact (stamped.trans checked).trans (ih (index + 1) _)

/-- The tables refer to each other as they should. -/
structure OpcuaTablesSound (space : OpcuaAddressSpace) : Prop where
  subscribed : ∀ item ∈ space.monitoredItems, item.subscriptionId ∈ space.subscriptionIds
  subscriptionIds : space.subscriptionIds.Nodup
  itemIds : space.itemIds.Nodup

/-- The call keeps the references: a new id is not in use, an item is added
under a subscription that exists, a subscription goes after its items. -/
def OpcuaReferencesKept (space : OpcuaAddressSpace) : OpcuaCall → Prop
  | .createSubscription _ =>
      space.subscriptions.length < opcuaMaxSubscriptions →
        space.nextSubscriptionId ∉ space.subscriptionIds
  | .deleteSubscription id => ∀ item ∈ space.monitoredItems, item.subscriptionId ≠ id
  | .addMonitoredItem subscriptionId _ _ =>
      space.monitoredItems.length < opcuaMaxMonitoredItems →
        subscriptionId ∈ space.subscriptionIds ∧ space.nextMonitoredItemId ∉ space.itemIds
  | _ => True

/-- Deleting a subscription leaves the other subscriptions and their items. -/
def OpcuaDeletionLocal (space : OpcuaAddressSpace) : OpcuaCall → Prop
  | .deleteSubscription id =>
      (opcuaDeleteSubscription space id).1.subscriptions.filter (·.subscriptionId ≠ id) =
          space.subscriptions.filter (·.subscriptionId ≠ id) ∧
        (opcuaDeleteSubscription space id).1.monitoredItems.filter (·.subscriptionId ≠ id) =
          space.monitoredItems.filter (·.subscriptionId ≠ id)
  | _ => True

theorem opcuaDeletionLocal (space : OpcuaAddressSpace) (call : OpcuaCall) :
    OpcuaDeletionLocal space call := by
  cases call with
  | deleteSubscription id =>
      refine ⟨?_, rfl⟩
      apply filter_remove
      intro subscription same
      simp [same]
  | _ => trivial

/-- The references depend on the ids and the links only. -/
theorem OpcuaTablesSound.congr {space next : OpcuaAddressSpace}
    (same : OpcuaSameTables space next) : OpcuaTablesSound next ↔ OpcuaTablesSound space := by
  have subscriptionIds : next.subscriptionIds = space.subscriptionIds := by
    simp only [OpcuaAddressSpace.subscriptionIds, same.subscriptions]
  have named : (∀ item ∈ next.monitoredItems, item.subscriptionId ∈ next.subscriptionIds) ↔
      ∀ item ∈ space.monitoredItems, item.subscriptionId ∈ space.subscriptionIds := by
    have byLink : ∀ other : OpcuaAddressSpace,
        (∀ item ∈ other.monitoredItems, item.subscriptionId ∈ space.subscriptionIds) ↔
          ∀ link ∈ other.monitoredItems.map OpcuaMonitoredItem.link,
            link.2.1 ∈ space.subscriptionIds := by
      intro other
      simp [OpcuaMonitoredItem.link]
    rw [subscriptionIds, byLink next, byLink space, same.links]
  constructor
  · rintro ⟨subscribed, subscriptions, items⟩
    exact ⟨named.mp subscribed, subscriptionIds ▸ subscriptions, same.itemIds ▸ items⟩
  · rintro ⟨subscribed, subscriptions, items⟩
    exact ⟨named.mpr subscribed, subscriptionIds ▸ subscriptions, same.itemIds ▸ items⟩

section Steps

variable {space : OpcuaAddressSpace}

theorem opcuaAddNode_sound (name : List UInt8) (parentId : UInt32) (nodeClass : OpcuaNodeClass)
    (dataType : OpcuaDataType) (access : Nat) (sound : OpcuaTablesSound space) :
    OpcuaTablesSound (opcuaAddNode space name parentId nodeClass dataType access).1 := by
  unfold opcuaAddNode
  split
  · exact sound
  · exact ⟨sound.subscribed, sound.subscriptionIds, sound.itemIds⟩

theorem opcuaWriteValue_sound (nodeId : UInt32) (value : OpcuaVariant)
    (sound : OpcuaTablesSound space) :
    OpcuaTablesSound (opcuaWriteValue space nodeId value).1 := by
  have unchanged : ∀ nodes, OpcuaTablesSound { space with nodes := nodes } :=
    fun _ => ⟨sound.subscribed, sound.subscriptionIds, sound.itemIds⟩
  unfold opcuaWriteValue
  split
  · exact sound
  · split_ifs
    · exact sound
    · exact sound
    · exact sound
    · exact unchanged _

theorem opcuaCreateSubscription_sound (interval : UInt64) (sound : OpcuaTablesSound space) :
    OpcuaTablesSound (opcuaCreateSubscription space interval).1 ↔
      OpcuaReferencesKept space (.createSubscription interval) := by
  unfold opcuaCreateSubscription OpcuaReferencesKept
  split
  case isTrue full => simp [sound, Nat.not_lt.mpr full]
  case isFalse hasRoom =>
    constructor
    · intro after _
      exact (distinct_append_iff.mp after.subscriptionIds).2
    · intro fresh
      refine ⟨fun item member => ?_, ?_, sound.itemIds⟩
      · have old := sound.subscribed item member
        simp only [OpcuaAddressSpace.subscriptionIds, List.map_append] at old ⊢
        exact List.mem_append_left _ old
      · have unused := fresh (Nat.not_le.mp hasRoom)
        exact distinct_append_iff.mpr ⟨sound.subscriptionIds, unused⟩

theorem opcuaDeleteSubscription_sound (id : UInt32) (sound : OpcuaTablesSound space) :
    OpcuaTablesSound (opcuaDeleteSubscription space id).1 ↔
      OpcuaReferencesKept space (.deleteSubscription id) := by
  have distinct : Distinct OpcuaSubscription.subscriptionId space.subscriptions :=
    sound.subscriptionIds
  constructor
  · intro after item member same
    have present := after.subscribed item member
    rw [same] at present
    exact find_eq_none_iff.mp distinct.find_remove_self present
  · intro unused
    refine ⟨fun item member => ?_, distinct.remove, sound.itemIds⟩
    have old := sound.subscribed item member
    obtain ⟨subscription, present, named⟩ := List.mem_map.mp old
    have kept : subscription ∈ space.subscriptions.filter (·.subscriptionId ≠ id) := by
      simp [present, named, unused item member]
    rw [← (opcuaDeletionLocal space (.deleteSubscription id)).1] at kept
    exact List.mem_map.mpr ⟨subscription, (List.mem_filter.mp kept).1, named⟩

theorem opcuaAddMonitoredItem_sound (subscriptionId nodeId : UInt32) (interval : UInt64)
    (sound : OpcuaTablesSound space) :
    OpcuaTablesSound (opcuaAddMonitoredItem space subscriptionId nodeId interval).1 ↔
      OpcuaReferencesKept space (.addMonitoredItem subscriptionId nodeId interval) := by
  unfold opcuaAddMonitoredItem OpcuaReferencesKept
  split
  case isTrue full => simp [sound, Nat.not_lt.mpr full]
  case isFalse hasRoom =>
    constructor
    · intro after _
      have named := after.subscribed _ (List.mem_append_right _ (List.mem_singleton_self _))
      exact ⟨named, (distinct_append_iff.mp after.itemIds).2⟩
    · intro kept
      obtain ⟨present, fresh⟩ := kept (Nat.not_le.mp hasRoom)
      refine ⟨fun item member => ?_, sound.subscriptionIds, ?_⟩
      · rcases List.mem_append.mp member with old | added
        · exact sound.subscribed item old
        · rw [List.mem_singleton.mp added]
          exact present
      · exact distinct_append_iff.mpr ⟨sound.itemIds, fresh⟩

theorem opcuaRemoveMonitoredItem_sound (id : UInt32) (sound : OpcuaTablesSound space) :
    OpcuaTablesSound (opcuaRemoveMonitoredItem space id).1 := by
  have distinct : Distinct OpcuaMonitoredItem.monitoredItemId space.monitoredItems :=
    sound.itemIds
  refine ⟨fun item member => ?_, sound.subscriptionIds, distinct.remove⟩
  exact sound.subscribed item (remove_sublist.subset member)

/-- A step from agreeing tables leads to agreeing tables exactly when the call
keeps the references. -/
theorem opcuaStep_sound_iff (call : OpcuaCall) (sound : OpcuaTablesSound space) :
    OpcuaTablesSound (opcuaStep space call) ↔ OpcuaReferencesKept space call := by
  cases call with
  | addObjectNode name parentId => exact iff_of_true (opcuaAddNode_sound _ _ _ _ _ sound) trivial
  | addVariableNode name parentId dataType access =>
      exact iff_of_true (opcuaAddNode_sound _ _ _ _ _ sound) trivial
  | addMethodNode name parentId => exact iff_of_true (opcuaAddNode_sound _ _ _ _ _ sound) trivial
  | writeValue nodeId value => exact iff_of_true (opcuaWriteValue_sound _ _ sound) trivial
  | createSubscription interval => exact opcuaCreateSubscription_sound interval sound
  | deleteSubscription id => exact opcuaDeleteSubscription_sound id sound
  | addMonitoredItem subscriptionId nodeId interval =>
      exact opcuaAddMonitoredItem_sound subscriptionId nodeId interval sound
  | removeMonitoredItem id => exact iff_of_true (opcuaRemoveMonitoredItem_sound id sound) trivial
  | checkDataChange id =>
      have same := opcuaCheckDataChange_tables space id
      exact iff_of_true ((OpcuaTablesSound.congr same).mpr sound) trivial
  | checkAllMonitoredItems maxResults =>
      have same := opcuaCheckAllMonitoredItems_tables space maxResults
      exact iff_of_true ((OpcuaTablesSound.congr same).mpr sound) trivial
  | updateMonitoredItems time =>
      have same := opcuaUpdateFrom_tables time space.monitoredItems.length 0 space
      exact iff_of_true ((OpcuaTablesSound.congr same).mpr sound) trivial

end Steps

theorem opcuaInitAddressSpace_sound : OpcuaTablesSound opcuaInitAddressSpace := by
  refine ⟨?_, ?_, ?_⟩ <;> decide

/-- Over every run from an initialised address space: the items name existing
subscriptions, the ids are distinct and deletions are local, exactly when every
call of the run keeps the references. -/
theorem opcua_tables_sound_iff (calls : List OpcuaCall) :
    (Always opcuaStep OpcuaTablesSound opcuaInitAddressSpace calls ∧
        Throughout opcuaStep OpcuaDeletionLocal opcuaInitAddressSpace calls) ↔
      Throughout opcuaStep OpcuaReferencesKept opcuaInitAddressSpace calls := by
  have decided : Always opcuaStep OpcuaTablesSound opcuaInitAddressSpace calls ↔
      Throughout opcuaStep OpcuaReferencesKept opcuaInitAddressSpace calls := by
    apply always_iff_throughout (fun _ _ (anything : True) => anything) _ trivial
      opcuaInitAddressSpace_sound
    exact fun _ call _ sound => opcuaStep_sound_iff call sound
  rw [decided]
  exact and_iff_left (throughout_of_forall opcuaDeletionLocal)

/-- A subscription is deleted while an item belongs to it: the item stays. -/
theorem item_outlives_subscription :
    ¬Always opcuaStep OpcuaTablesSound opcuaInitAddressSpace
      [.createSubscription 0, .addMonitoredItem 1 1 0, .deleteSubscription 1] := by
  intro always
  have subscribed := always.last.subscribed
  revert subscribed
  decide

end Control

end MiniIotRobotEdge
