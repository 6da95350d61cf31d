import MiniIotRobotEdge.KeyedList

/-!
# The OPC UA server of mini-industrial-control

The model of the address space of `opc_ua_sim.c`: nodes, subscriptions and
monitored items.  The tables are lists as long as their `num_` counters; node
identifiers are the positions of the nodes, subscriptions and items are
compacted when one goes.  A double is kept as its 64 bits, since nothing
computes with it.
-/

namespace MiniIotRobotEdge

namespace Control

open KeyedList

def opcuaMaxNodes : Nat := 256
def opcuaMaxBrowseResults : Nat := 64
def opcuaMaxSubscriptions : Nat := 32
def opcuaMaxMonitoredItems : Nat := 128
def opcuaMaxNameLen : Nat := 64

inductive OpcuaNodeClass
  | object
  | variable
  | method
  | view
  | dataType
  | reference
  deriving DecidableEq, Repr

inductive OpcuaDataType
  | null
  | boolean
  | sbyte
  | byte
  | int16
  | uint16
  | int32
  | uint32
  | int64
  | uint64
  | float
  | double
  | string
  | bytestring
  deriving DecidableEq, Repr

/-- `OPCUA_ACCESS_WRITE`, a bit of the access level. -/
def opcuaAccessWrite : Nat := 2

/-- `opcua_variant_t`: the type and the bytes behind it, which `memcmp`
compares. -/
structure OpcuaVariant where
  type : OpcuaDataType
  bytes : List UInt8
  deriving DecidableEq, Repr

/-- The bytes of a variant behind its type. -/
def opcuaVariantPayload : Nat := 76

def OpcuaVariant.cleared (type : OpcuaDataType) : OpcuaVariant :=
  ⟨type, List.replicate opcuaVariantPayload 0⟩

/-- A variant after `memset`. -/
def OpcuaVariant.zero : OpcuaVariant := .cleared .null

structure OpcuaNode where
  identifier : UInt32
  nodeClass : OpcuaNodeClass
  displayName : List UInt8
  value : OpcuaVariant
  dataType : OpcuaDataType
  accessLevel : Nat
  parentNodeId : UInt32
  children : List UInt32
  active : Bool
  deriving Repr

structure OpcuaSubscription where
  subscriptionId : UInt32
  publishingIntervalMs : UInt64
  enabled : Bool
  keepAliveCount : Nat
  lifetimeCount : Nat
  deriving DecidableEq, Repr

structure OpcuaMonitoredItem where
  monitoredItemId : UInt32
  subscriptionId : UInt32
  nodeId : UInt32
  attributeId : Nat
  samplingIntervalMs : UInt64
  queueSize : Nat
  discardOldest : Bool
  lastValue : OpcuaVariant
  lastTimestamp : Nat
  triggered : Bool
  deriving DecidableEq, Repr

structure OpcuaAddressSpace where
  nodes : List OpcuaNode
  subscriptions : List OpcuaSubscription
  monitoredItems : List OpcuaMonitoredItem
  nextNodeId : UInt32
  nextSubscriptionId : UInt32
  nextMonitoredItemId : UInt32
  deriving Repr

/-- A name cut to the field, and without its terminator. -/
def opcuaDisplayName (name : List UInt8) : List UInt8 :=
  name.take (opcuaMaxNameLen - 1)

def OpcuaNode.appendChild (id : UInt32) (parent : OpcuaNode) : OpcuaNode :=
  if parent.children.length < opcuaMaxBrowseResults then
    { parent with children := parent.children ++ [id] }
  else parent

/-- What the three functions that add a node have in common. -/
def opcuaAddNode (space : OpcuaAddressSpace) (name : List UInt8) (parentId : UInt32)
    (nodeClass : OpcuaNodeClass) (dataType : OpcuaDataType) (access : Nat) :
    OpcuaAddressSpace × UInt32 :=
  if opcuaMaxNodes ≤ space.nodes.length then (space, 0)
  else
    let id := space.nextNodeId
    let node : OpcuaNode :=
      { identifier := id, nodeClass := nodeClass, displayName := opcuaDisplayName name
        value := .cleared dataType, dataType := dataType, accessLevel := access
        parentNodeId := parentId, children := [], active := true }
    let linked :=
      if 0 < parentId ∧ parentId.toNat ≤ space.nodes.length then
        space.nodes.modify (parentId.toNat - 1) (OpcuaNode.appendChild id)
      else space.nodes
    ({ space with nodes := linked ++ [node], nextNodeId := id + 1 }, id)

def opcuaAddObjectNode (space : OpcuaAddressSpace) (name : List UInt8) (parentId : UInt32) :
    OpcuaAddressSpace × UInt32 :=
  opcuaAddNode space name parentId .object .null 0

def opcuaAddVariableNode (space : OpcuaAddressSpace) (name : List UInt8) (parentId : UInt32)
    (dataType : OpcuaDataType) (access : Nat) : OpcuaAddressSpace × UInt32 :=
  opcuaAddNode space name parentId .variable dataType access

def opcuaAddMethodNode (space : OpcuaAddressSpace) (name : List UInt8) (parentId : UInt32) :
    OpcuaAddressSpace × UInt32 :=
  opcuaAddNode space name parentId .method .null 0

/-- The bytes of `"Root"`. -/
def opcuaRootName : List UInt8 := [0x52, 0x6f, 0x6f, 0x74]

def opcuaInitAddressSpace : OpcuaAddressSpace :=
  (opcuaAddObjectNode
    { nodes := [], subscriptions := [], monitoredItems := [], nextNodeId := 1
      nextSubscriptionId := 1, nextMonitoredItemId := 1 } opcuaRootName 0).1

def opcuaFindNode (space : OpcuaAddressSpace) (nodeId : UInt32) : Option OpcuaNode :=
  if nodeId = 0 then none else find OpcuaNode.identifier nodeId space.nodes

/-- `opcua_write_value` with its result. -/
def opcuaWriteValue (space : OpcuaAddressSpace) (nodeId : UInt32) (value : OpcuaVariant) :
    OpcuaAddressSpace × Bool :=
  match opcuaFindNode space nodeId with
  | none => (space, false)
  | some node =>
      if node.nodeClass ≠ .variable then (space, false)
      else if node.accessLevel &&& opcuaAccessWrite = 0 then (space, false)
      else if node.dataType ≠ value.type then (space, false)
      else
        ({ space with
            nodes := change OpcuaNode.identifier nodeId
              (fun written => { written with value := value }) space.nodes }, true)

/-- `opcua_create_subscription` with its result. -/
def opcuaCreateSubscription (space : OpcuaAddressSpace) (publishingIntervalMs : UInt64) :
    OpcuaAddressSpace × UInt32 :=
  if opcuaMaxSubscriptions ≤ space.subscriptions.length then (space, 0)
  else
    let id := space.nextSubscriptionId
    ({ space with
        subscriptions := space.subscriptions ++
          [{ subscriptionId := id, publishingIntervalMs := publishingIntervalMs
             enabled := true, keepAliveCount := 3, lifetimeCount := 10 }]
        nextSubscriptionId := id + 1 }, id)

/-- `opcua_delete_subscription` with its result. -/
def opcuaDeleteSubscription (space : OpcuaAddressSpace) (subscriptionId : UInt32) :
    OpcuaAddressSpace × Bool :=
  ({ space with
      subscriptions := remove OpcuaSubscription.subscriptionId subscriptionId
        space.subscriptions },
    (find OpcuaSubscription.subscriptionId subscriptionId space.subscriptions).isSome)

/-- `opcua_add_monitored_item` with its result. -/
def opcuaAddMonitoredItem (space : OpcuaAddressSpace) (subscriptionId nodeId : UInt32)
    (samplingIntervalMs : UInt64) : OpcuaAddressSpace × UInt32 :=
  if opcuaMaxMonitoredItems ≤ space.monitoredItems.length then (space, 0)
  else
    let id := space.nextMonitoredItemId
    ({ space with
        monitoredItems := space.monitoredItems ++
          [{ monitoredItemId := id, subscriptionId := subscriptionId, nodeId := nodeId
             attributeId := 13, samplingIntervalMs := samplingIntervalMs, queueSize := 10
             discardOldest := true, lastValue := .zero, lastTimestamp := 0
             triggered := false }]
        nextMonitoredItemId := id + 1 }, id)

/-- `opcua_remove_monitored_item` with its result. -/
def opcuaRemoveMonitoredItem (space : OpcuaAddressSpace) (monitoredItemId : UInt32) :
    OpcuaAddressSpace × Bool :=
  ({ space with
      monitoredItems := remove OpcuaMonitoredItem.monitoredItemId monitoredItemId
        space.monitoredItems },
    (find OpcuaMonitoredItem.monitoredItemId monitoredItemId space.monitoredItems).isSome)

def OpcuaMonitoredItem.remember (value : OpcuaVariant) (item : OpcuaMonitoredItem) :
    OpcuaMonitoredItem :=
  { item with lastValue := value, triggered := true }

/-- `opcua_check_data_change`: the new value when the result is true. -/
def opcuaCheckDataChange (space : OpcuaAddressSpace) (monitoredItemId : UInt32) :
    OpcuaAddressSpace × Option OpcuaVariant :=
  match find OpcuaMonitoredItem.monitoredItemId monitoredItemId space.monitoredItems with
  | none => (space, none)
  | some item =>
      match opcuaFindNode space item.nodeId with
      | none => (space, none)
      | some node =>
          if item.lastValue ≠ node.value then
            ({ space with
                monitoredItems := change OpcuaMonitoredItem.monitoredItemId monitoredItemId
                  (OpcuaMonitoredItem.remember node.value) space.monitoredItems },
              some node.value)
          else (space, none)

/-- The loop of `opcua_check_all_monitored_items` over the ids of the items that
are left, with room for so many results. -/
def opcuaCheckItems (space : OpcuaAddressSpace) :
    List UInt32 → Nat → OpcuaAddressSpace × List UInt32
  | [], _ => (space, [])
  | _ :: _, 0 => (space, [])
  | id :: rest, room + 1 =>
      match opcuaCheckDataChange space id with
      | (checked, none) => opcuaCheckItems checked rest (room + 1)
      | (checked, some _) =>
          let result := opcuaCheckItems checked rest room
          (result.1, id :: result.2)

/-- `opcua_check_all_monitored_items` with the ids it returns. -/
def opcuaCheckAllMonitoredItems (space : OpcuaAddressSpace) (maxResults : Int) :
    OpcuaAddressSpace × List UInt32 :=
  if maxResults ≤ 0 then (space, [])
  else opcuaCheckItems space (space.monitoredItems.map OpcuaMonitoredItem.monitoredItemId)
    maxResults.toNat

def opcuaStamp (time index : Nat) (space : OpcuaAddressSpace) : OpcuaAddressSpace :=
  { space with
    monitoredItems := space.monitoredItems.modify index fun item =>
      { item with lastTimestamp := time } }

/-- The loop of `opcua_update_monitored_items` from an index on. -/
def opcuaUpdateFrom (time : Nat) (space : OpcuaAddressSpace) (index : Nat) :
    Nat → OpcuaAddressSpace
  | 0 => space
  | left + 1 =>
      let stamped := opcuaStamp time index space
      match stamped.monitoredItems[index]? with
      | none => stamped
      | some item =>
          opcuaUpdateFrom time (opcuaCheckDataChange stamped item.monitoredItemId).1
            (index + 1) left

def opcuaUpdateMonitoredItems (space : OpcuaAddressSpace) (currentTimeMs : Nat) :
    OpcuaAddressSpace :=
  opcuaUpdateFrom currentTimeMs space 0 space.monitoredItems.length

/-- The calls that change an address space. -/
inductive OpcuaCall
  | addObjectNode (name : List UInt8) (parentId : UInt32)
  | addVariableNode (name : List UInt8) (parentId : UInt32) (dataType : OpcuaDataType)
      (access : Nat)
  | addMethodNode (name : List UInt8) (parentId : UInt32)
  | writeValue (nodeId : UInt32) (value : OpcuaVariant)
  | createSubscription (publishingIntervalMs : UInt64)
  | deleteSubscription (subscriptionId : UInt32)
  | addMonitoredItem (subscriptionId nodeId : UInt32) (samplingIntervalMs : UInt64)
  | removeMonitoredItem (monitoredItemId : UInt32)
  | checkDataChange (monitoredItemId : UInt32)
  | checkAllMonitoredItems (maxResults : Int)
  | updateMonitoredItems (currentTimeMs : Nat)

def opcuaStep (space : OpcuaAddressSpace) : OpcuaCall → OpcuaAddressSpace
  | .addObjectNode name parentId => (opcuaAddObjectNode space name parentId).1
  | .addVariableNode name parentId dataType access =>
      (opcuaAddVariableNode space name parentId dataType access).1
  | .addMethodNode name parentId => (opcuaAddMethodNode space name parentId).1
  | .writeValue nodeId value => (opcuaWriteValue space nodeId value).1
  | .createSubscription interval => (opcuaCreateSubscription space interval).1
  | .deleteSubscription id => (opcuaDeleteSubscription space id).1
  | .addMonitoredItem subscriptionId nodeId interval =>
      (opcuaAddMonitoredItem space subscriptionId nodeId interval).1
  | .removeMonitoredItem id => (opcuaRemoveMonitoredItem space id).1
  | .checkDataChange id => (opcuaCheckDataChange space id).1
  | .checkAllMonitoredItems maxResults => (opcuaCheckAllMonitoredItems space maxResults).1
  | .updateMonitoredItems time => opcuaUpdateMonitoredItems space time

end Control

end MiniIotRobotEdge
