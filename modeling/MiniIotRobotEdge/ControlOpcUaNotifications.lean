import Mathlib.Algebra.Group.Nat.Defs
import MiniIotRobotEdge.ControlOpcUaSubscriptions

/-!
# The changes a client hears of

A client hears of a monitored variable through the checks; `reported` remembers
what it heard last for each item, the cleared variant that an item starts from
at first.  The checks compare with `last_value`, which the periodic update
advances as well, without telling anyone.
-/

namespace MiniIotRobotEdge

namespace Control

open KeyedList StepRuns

/-- The value of the node that the item monitors, where there is one. -/
def OpcuaAddressSpace.monitoredValue (space : OpcuaAddressSpace) (id : UInt32) :
    Option OpcuaVariant :=
  ((find OpcuaMonitoredItem.monitoredItemId id space.monitoredItems).map
    OpcuaMonitoredItem.nodeId).bind fun nodeId =>
      (opcuaFindNode space nodeId).map OpcuaNode.value

/-- `last_value` of the item. -/
def OpcuaAddressSpace.lastValue (space : OpcuaAddressSpace) (id : UInt32) : OpcuaVariant :=
  ((find OpcuaMonitoredItem.monitoredItemId id space.monitoredItems).map
    OpcuaMonitoredItem.lastValue).getD .zero

/-- An address space and what its client heard of each item last. -/
structure OpcuaSession where
  space : OpcuaAddressSpace
  reported : UInt32 → OpcuaVariant

def opcuaSessionStart : OpcuaSession := ⟨opcuaInitAddressSpace, fun _ => .zero⟩

/-- What the client knows after the call. -/
def OpcuaSession.hears (session : OpcuaSession) : OpcuaCall → UInt32 → OpcuaVariant
  | .addMonitoredItem _ _ _ =>
      if session.space.monitoredItems.length < opcuaMaxMonitoredItems then
        Function.update session.reported session.space.nextMonitoredItemId .zero
      else session.reported
  | .checkDataChange id =>
      match (opcuaCheckDataChange session.space id).2 with
      | none => session.reported
      | some value => Function.update session.reported id value
  | .checkAllMonitoredItems maxResults => fun id =>
      if id ∈ (opcuaCheckAllMonitoredItems session.space maxResults).2 then
        (session.space.monitoredValue id).getD .zero
      else session.reported id
  | _ => session.reported

def opcuaSessionStep (session : OpcuaSession) (call : OpcuaCall) : OpcuaSession :=
  ⟨opcuaStep session.space call, session.hears call⟩

/-- The value of a monitored variable that differs from the one reported last. -/
def OpcuaSession.news (session : OpcuaSession) (id : UInt32) : Option OpcuaVariant :=
  (session.space.monitoredValue id).filter (· ≠ session.reported id)

/-- Both checks, made now, report the changes since the last report and nothing
else; the one over all items reports as many as fit, the first ones first. -/
structure OpcuaChecksReportNews (session : OpcuaSession) : Prop where
  single : ∀ id, (opcuaCheckDataChange session.space id).2 = session.news id
  all : ∀ maxResults : Int, (opcuaCheckAllMonitoredItems session.space maxResults).2 =
    (session.space.itemIds.filter fun id => (session.news id).isSome).take maxResults.toNat

/-- The periodic update comes when no change waits for a check. -/
def OpcuaUpdateIdle (session : OpcuaSession) : OpcuaCall → Prop
  | .updateMonitoredItems _ => ∀ id ∈ session.space.itemIds,
      ∀ value, session.space.monitoredValue id = some value →
        value = session.space.lastValue id
  | _ => True

/-- A new item gets an id that no item has: the counter has not come round. -/
def OpcuaItemIdFresh (session : OpcuaSession) : OpcuaCall → Prop
  | .addMonitoredItem _ _ _ =>
      session.space.monitoredItems.length < opcuaMaxMonitoredItems →
        session.space.nextMonitoredItemId ∉ session.space.itemIds
  | _ => True

section Items

variable (space : OpcuaAddressSpace)

theorem opcuaAddNode_items (name : List UInt8) (parentId : UInt32) (nodeClass : OpcuaNodeClass)
    (dataType : OpcuaDataType) (access : Nat) :
    (opcuaAddNode space name parentId nodeClass dataType access).1.monitoredItems =
        space.monitoredItems ∧
      (opcuaAddNode space name parentId nodeClass dataType access).1.nextMonitoredItemId =
        space.nextMonitoredItemId := by
  unfold opcuaAddNode
  split <;> exact ⟨rfl, rfl⟩

theorem opcuaWriteValue_items (nodeId : UInt32) (value : OpcuaVariant) :
    (opcuaWriteValue space nodeId value).1.monitoredItems = space.monitoredItems ∧
      (opcuaWriteValue space nodeId value).1.nextMonitoredItemId =
        space.nextMonitoredItemId := by
  unfold opcuaWriteValue
  split
  · exact ⟨rfl, rfl⟩
  · split_ifs <;> exact ⟨rfl, rfl⟩

theorem opcuaCreateSubscription_items (interval : UInt64) :
    (opcuaCreateSubscription space interval).1.monitoredItems = space.monitoredItems ∧
      (opcuaCreateSubscription space interval).1.nextMonitoredItemId =
        space.nextMonitoredItemId := by
  unfold opcuaCreateSubscription
  split <;> exact ⟨rfl, rfl⟩

end Items

section Checks

variable {space next : OpcuaAddressSpace}

theorem OpcuaSameTables.monitoredValue (same : OpcuaSameTables space next) (id : UInt32) :
    next.monitoredValue id = space.monitoredValue id := by
  have pairs : next.monitoredItems.map (fun item => (item.monitoredItemId, item.nodeId)) =
      space.monitoredItems.map fun item => (item.monitoredItemId, item.nodeId) := by
    have projected := congrArg (List.map fun link => (link.1, link.2.2)) same.links
    simpa [OpcuaMonitoredItem.link, Function.comp_def] using projected
  have nodes : opcuaFindNode next = opcuaFindNode space := by
    ext nodeId
    simp only [opcuaFindNode, same.nodes]
  unfold OpcuaAddressSpace.monitoredValue
  rw [find_congr pairs, nodes]

theorem monitoredValue_eq_none {id : UInt32} (absent : id ∉ space.itemIds) :
    space.monitoredValue id = none := by
  have missing : find OpcuaMonitoredItem.monitoredItemId id space.monitoredItems = none :=
    find_eq_none_iff.mpr absent
  simp [OpcuaAddressSpace.monitoredValue, missing]

theorem lastValue_append {item : OpcuaMonitoredItem}
    (items : next.monitoredItems = space.monitoredItems ++ [item])
    (fresh : item.monitoredItemId ∉ space.itemIds) :
    next.lastValue = Function.update space.lastValue item.monitoredItemId item.lastValue := by
  ext id
  simp only [OpcuaAddressSpace.lastValue, items]
  cases found : find OpcuaMonitoredItem.monitoredItemId id space.monitoredItems with
  | none =>
      rw [find_append found]
      by_cases added : id = item.monitoredItemId
      · simp [added]
      · have differs : ¬item.monitoredItemId = id := fun same => added same.symm
        simp [added, differs, OpcuaAddressSpace.lastValue, found]
  | some old =>
      have apart : id ≠ item.monitoredItemId := by
        intro same
        apply fresh
        rw [← same, ← find_key found]
        exact List.mem_map_of_mem (find_mem found)
      simp [find_append_of_some found, apart, OpcuaAddressSpace.lastValue, found]

/-- A check reports a value that differs from the last one, and remembers it. -/
theorem opcuaCheckDataChange_eq (space : OpcuaAddressSpace) (id : UInt32) :
    (opcuaCheckDataChange space id).2 =
        (space.monitoredValue id).filter (· ≠ space.lastValue id) ∧
      (opcuaCheckDataChange space id).1.lastValue =
        match (opcuaCheckDataChange space id).2 with
        | none => space.lastValue
        | some value => Function.update space.lastValue id value := by
  unfold opcuaCheckDataChange OpcuaAddressSpace.monitoredValue
  cases found : find OpcuaMonitoredItem.monitoredItemId id space.monitoredItems with
  | none => simp
  | some item =>
      have remembered : space.lastValue id = item.lastValue := by
        simp [OpcuaAddressSpace.lastValue, found]
      cases present : opcuaFindNode space item.nodeId with
      | none => simp [present]
      | some node =>
          by_cases changed : item.lastValue = node.value
          · simp [present, remembered, changed, Option.filter_some]
          · have differs : ¬node.value = item.lastValue := fun same => changed same.symm
            simp only [changed, Option.map_some, Option.bind_some, present, remembered,
              Option.filter_some, differs, ne_eq, not_false_eq_true, decide_true, if_true,
              true_and]
            ext other
            have keeps : ∀ item : OpcuaMonitoredItem,
                (item.remember node.value).monitoredItemId = item.monitoredItemId :=
              fun _ => rfl
            unfold OpcuaAddressSpace.lastValue
            by_cases same : other = id
            · rw [same, Function.update_self, find_change_self keeps, found]
              rfl
            · rw [Function.update_of_ne same, find_change_other keeps same]

theorem check_result (space : OpcuaAddressSpace) (id : UInt32) :
    (opcuaCheckDataChange space id).2 =
      (space.monitoredValue id).filter (· ≠ space.lastValue id) :=
  (opcuaCheckDataChange_eq space id).1

theorem check_lastValue_of_none {id : UInt32} (quiet : (opcuaCheckDataChange space id).2 = none) :
    (opcuaCheckDataChange space id).1.lastValue = space.lastValue := by
  rw [(opcuaCheckDataChange_eq space id).2, quiet]

theorem check_lastValue_of_some {id : UInt32} {value : OpcuaVariant}
    (changed : (opcuaCheckDataChange space id).2 = some value) :
    (opcuaCheckDataChange space id).1.lastValue = Function.update space.lastValue id value := by
  rw [(opcuaCheckDataChange_eq space id).2, changed]

/-- What is reported is the value of the variable. -/
theorem monitoredValue_of_check {id : UInt32} {value : OpcuaVariant}
    (changed : (opcuaCheckDataChange space id).2 = some value) :
    space.monitoredValue id = some value := by
  rw [check_result, Option.filter_eq_some_iff] at changed
  exact changed.1

/-- Two spaces with the same values and the same last values check alike. -/
theorem check_congr {id : UInt32} (values : next.monitoredValue id = space.monitoredValue id)
    (last : next.lastValue id = space.lastValue id) :
    (opcuaCheckDataChange next id).2 = (opcuaCheckDataChange space id).2 := by
  rw [check_result, check_result, values, last]

/-- A check of one item is none of the others' business. -/
theorem check_other {id other : UInt32} (apart : other ≠ id) :
    (opcuaCheckDataChange (opcuaCheckDataChange space id).1 other).2 =
      (opcuaCheckDataChange space other).2 := by
  apply check_congr
  · exact (opcuaCheckDataChange_tables space id).monitoredValue other
  · cases result : (opcuaCheckDataChange space id).2 with
    | none => rw [check_lastValue_of_none result]
    | some value => rw [check_lastValue_of_some result, Function.update_of_ne apart]

/-- A second check right after the first has nothing to report. -/
theorem check_self (space : OpcuaAddressSpace) (id : UInt32) :
    (opcuaCheckDataChange (opcuaCheckDataChange space id).1 id).2 = none := by
  have values := (opcuaCheckDataChange_tables space id).monitoredValue id
  cases result : (opcuaCheckDataChange space id).2 with
  | none =>
      have last := congrFun (check_lastValue_of_none result) id
      rw [check_congr values last, result]
  | some value =>
      rw [check_result, values, check_lastValue_of_some result, Function.update_self,
        monitoredValue_of_check result]
      simp

end Checks

section Loops

/-- The loop over distinct items reports those with a change, as many as fit,
and remembers what it reported. -/
theorem opcuaCheckItems_eq (ids : List UInt32) (room : Nat) (space : OpcuaAddressSpace)
    (distinct : ids.Nodup) :
    (opcuaCheckItems space ids room).2 =
        (ids.filter fun id => (opcuaCheckDataChange space id).2.isSome).take room ∧
      (opcuaCheckItems space ids room).1.lastValue = fun id =>
        if id ∈ (opcuaCheckItems space ids room).2 then
          (space.monitoredValue id).getD .zero
        else space.lastValue id := by
  induction ids generalizing room space with
  | nil => simp [opcuaCheckItems]
  | cons id rest ih =>
      obtain ⟨fresh, later⟩ := List.nodup_cons.mp distinct
      have others : rest.filter (fun other =>
            (opcuaCheckDataChange (opcuaCheckDataChange space id).1 other).2.isSome) =
          rest.filter fun other => (opcuaCheckDataChange space other).2.isSome := by
        apply List.filter_congr
        intro other member
        have apart : other ≠ id := fun same => fresh (same ▸ member)
        rw [check_other apart]
      have values := (opcuaCheckDataChange_tables space id).monitoredValue
      cases room with
      | zero => simp [opcuaCheckItems]
      | succ room =>
          rw [opcuaCheckItems]
          split
          case h_1 checked result =>
            have quiet : (opcuaCheckDataChange space id).2 = none := by rw [result]
            have last := check_lastValue_of_none quiet
            rw [result] at others values last
            have loop := ih (room + 1) checked later
            rw [others, last] at loop
            simp only [values] at loop
            rw [List.filter_cons_of_neg (by simp [quiet])]
            exact loop
          case h_2 checked value result =>
            have changed : (opcuaCheckDataChange space id).2 = some value := by rw [result]
            have last := check_lastValue_of_some changed
            rw [result] at others values last
            have loop := ih room checked later
            rw [others, last] at loop
            simp only [values] at loop
            dsimp only
            constructor
            · rw [List.filter_cons_of_pos (by simp [changed]), List.take_succ_cons, loop.1]
            · rw [loop.2]
              ext other
              by_cases same : other = id
              · simp [same, monitoredValue_of_check changed]
              · simp [same]

theorem opcuaCheckAllMonitoredItems_eq {space : OpcuaAddressSpace} (distinct : space.itemIds.Nodup)
    (maxResults : Int) :
    (opcuaCheckAllMonitoredItems space maxResults).2 =
        (space.itemIds.filter fun id =>
          (opcuaCheckDataChange space id).2.isSome).take maxResults.toNat ∧
      (opcuaCheckAllMonitoredItems space maxResults).1.lastValue = fun id =>
        if id ∈ (opcuaCheckAllMonitoredItems space maxResults).2 then
          (space.monitoredValue id).getD .zero
        else space.lastValue id := by
  unfold opcuaCheckAllMonitoredItems
  split
  case isTrue nothing => simp [Int.toNat_of_nonpos nothing]
  case isFalse => exact opcuaCheckItems_eq _ _ space distinct

theorem opcuaStamp_lastValue (time index : Nat) (space : OpcuaAddressSpace) :
    (opcuaStamp time index space).lastValue = space.lastValue := by
  ext id
  unfold OpcuaAddressSpace.lastValue
  congr 1
  apply find_congr
  apply List.ext_getElem?
  intro position
  simp only [opcuaStamp, List.getElem?_map, List.getElem?_modify]
  cases space.monitoredItems[position]? with
  | none => rfl
  | some item =>
      by_cases here : index = position
      · simp [here]
      · simp [here]

theorem opcuaStamp_check (time index : Nat) (space : OpcuaAddressSpace) (id : UInt32) :
    (opcuaCheckDataChange (opcuaStamp time index space) id).2 =
      (opcuaCheckDataChange space id).2 :=
  check_congr ((opcuaStamp_tables time index space).monitoredValue id)
    (congrFun (opcuaStamp_lastValue time index space) id)

/-- The update leaves nothing to report about the items it passes. -/
theorem opcuaUpdateFrom_check (time left index : Nat) (space : OpcuaAddressSpace) (id : UInt32) :
    (opcuaCheckDataChange (opcuaUpdateFrom time space index left) id).2 =
      if id ∈ (space.itemIds.drop index).take left then none
      else (opcuaCheckDataChange space id).2 := by
  induction left generalizing index space with
  | zero => simp [opcuaUpdateFrom]
  | succ left ih =>
      have stamped := opcuaStamp_tables time index space
      rw [opcuaUpdateFrom]
      split
      case h_1 missing =>
        have short : space.itemIds.length ≤ index := by
          rw [← stamped.itemIds]
          simpa [OpcuaAddressSpace.itemIds] using missing
        simp [opcuaStamp_check, List.drop_eq_nil_of_le short]
      case h_2 item found =>
        have checked := opcuaCheckDataChange_tables (opcuaStamp time index space)
          item.monitoredItemId
        have here : space.itemIds[index]? = some item.monitoredItemId := by
          rw [← stamped.itemIds]
          simp [OpcuaAddressSpace.itemIds, found]
        have first : (space.itemIds.drop index).take (left + 1) =
            item.monitoredItemId :: (space.itemIds.drop (index + 1)).take left := by
          obtain ⟨inside, value⟩ := List.getElem?_eq_some_iff.mp here
          rw [List.drop_eq_getElem_cons inside, value, List.take_succ_cons]
        rw [ih, (stamped.trans checked).itemIds, first]
        by_cases same : id = item.monitoredItemId
        · simp [same, check_self]
        · simp [same, check_other same, opcuaStamp_check]

theorem opcuaUpdateMonitoredItems_check (space : OpcuaAddressSpace) (time : Nat) (id : UInt32) :
    (opcuaCheckDataChange (opcuaUpdateMonitoredItems space time) id).2 = none := by
  unfold opcuaUpdateMonitoredItems
  rw [opcuaUpdateFrom_check, List.drop_zero, List.take_of_length_le (by
    simp [OpcuaAddressSpace.itemIds])]
  split
  case isTrue => rfl
  case isFalse absent => simp [check_result, monitoredValue_eq_none absent]

/-- An update that finds no change leaves the last values as they are. -/
theorem opcuaUpdateFrom_lastValue (time left index : Nat) (space : OpcuaAddressSpace)
    (idle : ∀ id, (opcuaCheckDataChange space id).2 = none) :
    (opcuaUpdateFrom time space index left).lastValue = space.lastValue := by
  induction left generalizing index space with
  | zero => rfl
  | succ left ih =>
      have stamped := opcuaStamp_lastValue time index space
      rw [opcuaUpdateFrom]
      split
      case h_1 => exact stamped
      case h_2 item found =>
        have quiet : ∀ id, (opcuaCheckDataChange (opcuaStamp time index space) id).2 = none := by
          intro id
          rw [opcuaStamp_check, idle]
        rw [ih]
        · rw [check_lastValue_of_none (quiet _), stamped]
        · intro id
          by_cases same : id = item.monitoredItemId
          · rw [same, check_self]
          · rw [check_other same, quiet]

end Loops

/-- Every item remembers what the client heard last. -/
structure OpcuaSessionInStep (session : OpcuaSession) : Prop where
  distinct : session.space.itemIds.Nodup
  known : ∀ id ∈ session.space.itemIds, session.space.lastValue id = session.reported id

namespace OpcuaSessionInStep

variable {session : OpcuaSession}

theorem check_eq_news (inStep : OpcuaSessionInStep session) (id : UInt32) :
    (opcuaCheckDataChange session.space id).2 = session.news id := by
  rw [check_result]
  unfold OpcuaSession.news
  by_cases member : id ∈ session.space.itemIds
  · rw [inStep.known id member]
  · simp [monitoredValue_eq_none member]

theorem checksReportNews (inStep : OpcuaSessionInStep session) :
    OpcuaChecksReportNews session := by
  refine ⟨inStep.check_eq_news, fun maxResults => ?_⟩
  rw [(opcuaCheckAllMonitoredItems_eq inStep.distinct maxResults).1]
  simp only [inStep.check_eq_news]

/-- Calls that touch neither the items nor what the client heard. -/
theorem of_items {next : OpcuaSession} (inStep : OpcuaSessionInStep session)
    (items : next.space.monitoredItems = session.space.monitoredItems)
    (heard : next.reported = session.reported) : OpcuaSessionInStep next := by
  have ids : next.space.itemIds = session.space.itemIds := by
    simp only [OpcuaAddressSpace.itemIds, items]
  have last : next.space.lastValue = session.space.lastValue := by
    ext id
    simp only [OpcuaAddressSpace.lastValue, items]
  refine ⟨ids ▸ inStep.distinct, fun id member => ?_⟩
  rw [last, heard]
  exact inStep.known id (ids ▸ member)

theorem addMonitoredItem (inStep : OpcuaSessionInStep session) (subscriptionId nodeId : UInt32)
    (interval : UInt64)
    (fresh : OpcuaItemIdFresh session (.addMonitoredItem subscriptionId nodeId interval)) :
    OpcuaSessionInStep (opcuaSessionStep session
      (.addMonitoredItem subscriptionId nodeId interval)) := by
  simp only [opcuaSessionStep, opcuaStep, OpcuaSession.hears, opcuaAddMonitoredItem]
  by_cases full : opcuaMaxMonitoredItems ≤ session.space.monitoredItems.length
  · simp only [full, if_true, if_neg (Nat.not_lt.mpr full)]
    exact inStep.of_items rfl rfl
  · have unused := fresh (Nat.not_le.mp full)
    simp only [full, if_false, if_pos (Nat.not_le.mp full)]
    refine ⟨distinct_append_iff.mpr ⟨inStep.distinct, unused⟩, fun id member => ?_⟩
    rw [lastValue_append rfl unused]
    dsimp only
    by_cases added : id = session.space.nextMonitoredItemId
    · simp [added]
    · have old : id ∈ session.space.itemIds := by
        simpa [OpcuaAddressSpace.itemIds, added] using member
      rw [Function.update_of_ne added, Function.update_of_ne added, inStep.known id old]

theorem removeMonitoredItem (inStep : OpcuaSessionInStep session) (removed : UInt32) :
    OpcuaSessionInStep (opcuaSessionStep session (.removeMonitoredItem removed)) := by
  have distinct : Distinct OpcuaMonitoredItem.monitoredItemId session.space.monitoredItems :=
    inStep.distinct
  refine ⟨distinct.remove, fun id member => ?_⟩
  have apart : id ≠ removed := by
    intro same
    exact find_eq_none_iff.mp distinct.find_remove_self (same ▸ member)
  have old : id ∈ session.space.itemIds := (remove_sublist.map _).subset member
  calc (opcuaRemoveMonitoredItem session.space removed).1.lastValue id
      = session.space.lastValue id := by
        unfold OpcuaAddressSpace.lastValue opcuaRemoveMonitoredItem
        rw [find_remove_other apart]
    _ = session.reported id := inStep.known id old

theorem checkDataChange (inStep : OpcuaSessionInStep session) (checked : UInt32) :
    OpcuaSessionInStep (opcuaSessionStep session (.checkDataChange checked)) := by
  have ids := (opcuaCheckDataChange_tables session.space checked).itemIds
  simp only [opcuaSessionStep, opcuaStep, OpcuaSession.hears]
  refine ⟨ids ▸ inStep.distinct, fun id member => ?_⟩
  have known := inStep.known id (ids ▸ member)
  cases result : (opcuaCheckDataChange session.space checked).2 with
  | none =>
      rw [check_lastValue_of_none result]
      exact known
  | some value =>
      rw [check_lastValue_of_some result]
      by_cases same : id = checked
      · simp [same]
      · simpa [same] using known

theorem checkAllMonitoredItems (inStep : OpcuaSessionInStep session) (maxResults : Int) :
    OpcuaSessionInStep (opcuaSessionStep session (.checkAllMonitoredItems maxResults)) := by
  have ids := (opcuaCheckAllMonitoredItems_tables session.space maxResults).itemIds
  have last := (opcuaCheckAllMonitoredItems_eq inStep.distinct maxResults).2
  simp only [opcuaSessionStep, opcuaStep, OpcuaSession.hears]
  refine ⟨ids ▸ inStep.distinct, fun id member => ?_⟩
  have known := inStep.known id (ids ▸ member)
  rw [last]
  dsimp only
  rw [known]

end OpcuaSessionInStep

theorem opcuaUpdateIdle_iff {session : OpcuaSession} {time : Nat} :
    OpcuaUpdateIdle session (.updateMonitoredItems time) ↔
      ∀ id, (opcuaCheckDataChange session.space id).2 = none := by
  constructor
  · intro idle id
    rw [check_result]
    by_cases member : id ∈ session.space.itemIds
    · rw [Option.filter_eq_none_iff]
      intro value monitored
      simp [idle id member value monitored]
    · simp [monitoredValue_eq_none member]
  · intro quiet id _ value monitored
    have nothing := quiet id
    rw [check_result, Option.filter_eq_none_iff] at nothing
    simpa using nothing value monitored

theorem OpcuaSessionInStep.updateMonitoredItems {session : OpcuaSession} {time : Nat}
    (inStep : OpcuaSessionInStep session)
    (idle : OpcuaUpdateIdle session (.updateMonitoredItems time)) :
    OpcuaSessionInStep (opcuaSessionStep session (.updateMonitoredItems time)) := by
  have quiet := opcuaUpdateIdle_iff.mp idle
  have ids := (opcuaUpdateFrom_tables time session.space.monitoredItems.length 0
    session.space).itemIds
  have last := opcuaUpdateFrom_lastValue time session.space.monitoredItems.length 0
    session.space quiet
  refine ⟨ids ▸ inStep.distinct, fun id member => ?_⟩
  calc (opcuaUpdateMonitoredItems session.space time).lastValue id
      = session.space.lastValue id := congrFun last id
    _ = session.reported id := inStep.known id (ids ▸ member)

/-- The session stays in step as long as no update swallows a change. -/
theorem OpcuaSessionInStep.step {session : OpcuaSession} {call : OpcuaCall}
    (inStep : OpcuaSessionInStep session) (fresh : OpcuaItemIdFresh session call)
    (idle : OpcuaUpdateIdle session call) :
    OpcuaSessionInStep (opcuaSessionStep session call) := by
  cases call with
  | addObjectNode name parentId => exact inStep.of_items (opcuaAddNode_items ..).1 rfl
  | addVariableNode name parentId dataType access =>
      exact inStep.of_items (opcuaAddNode_items ..).1 rfl
  | addMethodNode name parentId => exact inStep.of_items (opcuaAddNode_items ..).1 rfl
  | writeValue nodeId value => exact inStep.of_items (opcuaWriteValue_items ..).1 rfl
  | createSubscription interval => exact inStep.of_items (opcuaCreateSubscription_items ..).1 rfl
  | deleteSubscription id => exact inStep.of_items rfl rfl
  | addMonitoredItem subscriptionId nodeId interval =>
      exact inStep.addMonitoredItem subscriptionId nodeId interval fresh
  | removeMonitoredItem id => exact inStep.removeMonitoredItem id
  | checkDataChange id => exact inStep.checkDataChange id
  | checkAllMonitoredItems maxResults => exact inStep.checkAllMonitoredItems maxResults
  | updateMonitoredItems time => exact inStep.updateMonitoredItems idle

/-- After an update nothing is left to report, so the checks report the news
only when there was none. -/
theorem OpcuaSessionInStep.reportNews_step_iff {session : OpcuaSession} {call : OpcuaCall}
    (inStep : OpcuaSessionInStep session) (fresh : OpcuaItemIdFresh session call) :
    OpcuaChecksReportNews (opcuaSessionStep session call) ↔ OpcuaUpdateIdle session call := by
  refine ⟨fun reports => ?_, fun idle => (inStep.step fresh idle).checksReportNews⟩
  cases call with
  | updateMonitoredItems time =>
      apply opcuaUpdateIdle_iff.mpr
      intro id
      have same := opcuaUpdateFrom_tables time session.space.monitoredItems.length 0 session.space
      have news : (opcuaSessionStep session (.updateMonitoredItems time)).news id =
          session.news id :=
        congrArg (Option.filter _) (same.monitoredValue id)
      calc (opcuaCheckDataChange session.space id).2
          = session.news id := inStep.check_eq_news id
        _ = (opcuaCheckDataChange (opcuaUpdateMonitoredItems session.space time) id).2 := by
            rw [← news]
            exact (reports.single id).symm
        _ = none := opcuaUpdateMonitoredItems_check session.space time id
  | _ => trivial

theorem opcuaSessionStart_itemIds : opcuaSessionStart.space.itemIds = [] :=
  rfl

theorem opcuaSessionStart_inStep : OpcuaSessionInStep opcuaSessionStart :=
  ⟨by simp [opcuaSessionStart_itemIds], by simp [opcuaSessionStart_itemIds]⟩

section Counter

def OpcuaCall.addsItem : OpcuaCall → Bool
  | .addMonitoredItem _ _ _ => true
  | _ => false

/-- The ids in use are among the first `count`, and the counter is behind them. -/
structure OpcuaItemCounter (count : Nat) (space : OpcuaAddressSpace) : Prop where
  next : space.nextMonitoredItemId.toNat = count + 1
  used : ∀ id ∈ space.itemIds, id.toNat ≤ count

theorem OpcuaItemCounter.fresh {count : Nat} {session : OpcuaSession}
    (counter : OpcuaItemCounter count session.space) (call : OpcuaCall) :
    OpcuaItemIdFresh session call := by
  cases call with
  | addMonitoredItem subscriptionId nodeId interval =>
      intro _ inUse
      have bound := counter.used _ inUse
      rw [counter.next] at bound
      omega
  | _ => trivial

theorem OpcuaItemCounter.of_items {count : Nat} {space next : OpcuaAddressSpace}
    (counter : OpcuaItemCounter count space)
    (kept : next.nextMonitoredItemId = space.nextMonitoredItemId)
    (ids : next.itemIds ⊆ space.itemIds) : OpcuaItemCounter count next :=
  ⟨kept ▸ counter.next, fun id member => counter.used id (ids member)⟩

theorem OpcuaItemCounter.of_same {count : Nat} {space next : OpcuaAddressSpace}
    (counter : OpcuaItemCounter count space) (same : OpcuaSameTables space next) :
    OpcuaItemCounter count next :=
  counter.of_items same.nextMonitoredItemId fun _ member => same.itemIds ▸ member

theorem OpcuaItemCounter.step {count : Nat} {space : OpcuaAddressSpace}
    (counter : OpcuaItemCounter count space) {call : OpcuaCall} (other : call.addsItem = false) :
    OpcuaItemCounter count (opcuaStep space call) := by
  have unchanged : ∀ {next : OpcuaAddressSpace},
      next.monitoredItems = space.monitoredItems ∧
        next.nextMonitoredItemId = space.nextMonitoredItemId → OpcuaItemCounter count next := by
    rintro next ⟨items, kept⟩
    exact counter.of_items kept (by simp [OpcuaAddressSpace.itemIds, items])
  cases call with
  | addObjectNode name parentId => exact unchanged (opcuaAddNode_items ..)
  | addVariableNode name parentId dataType access => exact unchanged (opcuaAddNode_items ..)
  | addMethodNode name parentId => exact unchanged (opcuaAddNode_items ..)
  | writeValue nodeId value => exact unchanged (opcuaWriteValue_items ..)
  | createSubscription interval => exact unchanged (opcuaCreateSubscription_items ..)
  | deleteSubscription id => exact unchanged ⟨rfl, rfl⟩
  | addMonitoredItem subscriptionId nodeId interval => simp [OpcuaCall.addsItem] at other
  | removeMonitoredItem id => exact counter.of_items rfl (remove_sublist.map _).subset
  | checkDataChange id => exact counter.of_same (opcuaCheckDataChange_tables space id)
  | checkAllMonitoredItems maxResults =>
      exact counter.of_same (opcuaCheckAllMonitoredItems_tables space maxResults)
  | updateMonitoredItems time => exact counter.of_same (opcuaUpdateFrom_tables time _ 0 space)

theorem OpcuaItemCounter.add {count : Nat} {space : OpcuaAddressSpace}
    (counter : OpcuaItemCounter count space) (subscriptionId nodeId : UInt32)
    (interval : UInt64) (short : count + 2 < 2 ^ 32) :
    OpcuaItemCounter count (opcuaAddMonitoredItem space subscriptionId nodeId interval).1 ∨
      OpcuaItemCounter (count + 1)
        (opcuaAddMonitoredItem space subscriptionId nodeId interval).1 := by
  unfold opcuaAddMonitoredItem
  split
  · exact .inl counter
  · refine .inr ⟨?_, fun id member => ?_⟩
    · have one : (1 : UInt32).toNat = 1 := rfl
      rw [UInt32.toNat_add, counter.next, one, Nat.mod_eq_of_lt short]
    · simp only [OpcuaAddressSpace.itemIds, List.map_append] at member
      rcases List.mem_append.mp member with earlier | added
      · have bound := counter.used id earlier
        omega
      · have newest : id = space.nextMonitoredItemId := by simpa using added
        rw [newest, counter.next]

theorem OpcuaItemCounter.throughout {calls : List OpcuaCall} {count : Nat}
    {session : OpcuaSession} (counter : OpcuaItemCounter count session.space)
    (short : count + calls.countP OpcuaCall.addsItem + 2 < 2 ^ 32) :
    Throughout opcuaSessionStep OpcuaItemIdFresh session calls := by
  induction calls generalizing count session with
  | nil => trivial
  | cons call rest ih =>
      refine ⟨counter.fresh call, ?_⟩
      rw [List.countP_cons] at short
      cases added : call.addsItem with
      | false => exact ih (counter.step added) (by omega)
      | true =>
          rw [added, if_pos rfl] at short
          obtain ⟨subscriptionId, nodeId, interval, rfl⟩ : ∃ subscriptionId nodeId interval,
              call = .addMonitoredItem subscriptionId nodeId interval := by
            cases call with
            | addMonitoredItem subscriptionId nodeId interval => exact ⟨_, _, _, rfl⟩
            | _ => simp [OpcuaCall.addsItem] at added
          rcases counter.add subscriptionId nodeId interval (by omega) with same | more
          · exact ih same (by omega)
          · exact ih more (by omega)

/-- Fewer items than ids: as long as the counter has not come round, every id
that is given out is fresh. -/
theorem opcuaItemIdFresh_of_few {calls : List OpcuaCall}
    (few : calls.countP OpcuaCall.addsItem + 2 < 2 ^ 32) :
    Throughout opcuaSessionStep OpcuaItemIdFresh opcuaSessionStart calls := by
  have start : OpcuaItemCounter 0 opcuaSessionStart.space :=
    ⟨rfl, by simp [opcuaSessionStart_itemIds]⟩
  exact start.throughout (by omega)

end Counter

/-- Over every run in which no item id is used twice: in all states the checks
report exactly what changed since the last report, if and only if every
periodic update comes when no change waits for a check. -/
theorem opcua_changes_reported_iff (calls : List OpcuaCall)
    (fresh : Throughout opcuaSessionStep OpcuaItemIdFresh opcuaSessionStart calls) :
    Always opcuaSessionStep OpcuaChecksReportNews opcuaSessionStart calls ↔
      Throughout opcuaSessionStep OpcuaUpdateIdle opcuaSessionStart calls := by
  have start := opcuaSessionStart_inStep
  apply fresh.always_iff _ _ start start.checksReportNews
  · exact fun _ _ inStep allowed idle => inStep.step allowed idle
  · exact fun _ _ inStep _ allowed => inStep.reportNews_step_iff allowed

/-- A variable is monitored and read, written, and then updated. -/
def opcuaSwallowedWrite : List OpcuaCall :=
  [.addVariableNode [0x76] 1 .int32 3, .addMonitoredItem 1 2 0, .checkAllMonitoredItems 10,
    .writeValue 2 ⟨.int32, 5 :: List.replicate 75 0⟩, .updateMonitoredItems 1000]

theorem opcua_changes_reported_swallowed :
    Always opcuaSessionStep OpcuaChecksReportNews opcuaSessionStart opcuaSwallowedWrite ↔
      Throughout opcuaSessionStep OpcuaUpdateIdle opcuaSessionStart opcuaSwallowedWrite :=
  opcua_changes_reported_iff opcuaSwallowedWrite
    ⟨trivial, fun _ => by decide, trivial, trivial, trivial, trivial⟩

/-- The update takes the written value as known, and the checks after it say
nothing. -/
theorem opcua_write_swallowed_by_update :
    ¬Always opcuaSessionStep OpcuaChecksReportNews opcuaSessionStart opcuaSwallowedWrite := by
  intro always
  have reported := always.last.all 10
  revert reported
  decide

end Control

end MiniIotRobotEdge
