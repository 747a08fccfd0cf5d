import PwDart.RegistryMonitor
import PwDart.PwGraph

namespace PwDart

open Json

def memberOf (name : String) (value : Value) : Text × Value := (utf16 name, value)

def textValue (s : String) : Value := .str (utf16 s)

def idValue (id : UInt32) : Value := .int id.toNat

def StringMap.toJson (m : StringMap) : Value :=
  .obj (m.toList.map fun entry => (utf16 entry.1, textValue entry.2))

/-- The members each `glz::meta` lists, in its order. -/
def NodeInfo.toJson (node : NodeInfo) : Members :=
  [memberOf "id" (idValue node.id), memberOf "name" (textValue node.name),
    memberOf "media_class" (textValue node.mediaClass), memberOf "state" (textValue node.state),
    memberOf "properties" node.properties.toJson]

def PortInfo.toJson (port : PortInfo) : Members :=
  [memberOf "id" (idValue port.id), memberOf "node_id" (idValue port.nodeId),
    memberOf "name" (textValue port.name), memberOf "direction" (textValue port.direction),
    memberOf "media_type" (textValue port.mediaType),
    memberOf "is_physical" (.bool port.isPhysical), memberOf "is_terminal" (.bool port.isTerminal),
    memberOf "alias" (textValue port.aliasName), memberOf "properties" port.properties.toJson]

def LinkInfo.toJson (link : LinkInfo) : Members :=
  [memberOf "id" (idValue link.id), memberOf "output_node_id" (idValue link.outputNodeId),
    memberOf "output_port_id" (idValue link.outputPortId),
    memberOf "input_node_id" (idValue link.inputNodeId),
    memberOf "input_port_id" (idValue link.inputPortId), memberOf "state" (textValue link.state),
    memberOf "error" (textValue link.error), memberOf "properties" link.properties.toJson]

def DeviceInfo.toJson (device : DeviceInfo) : Members :=
  [memberOf "id" (idValue device.id), memberOf "name" (textValue device.name),
    memberOf "description" (textValue device.description),
    memberOf "media_class" (textValue device.mediaClass), memberOf "api" (textValue device.api),
    memberOf "properties" device.properties.toJson]

def GraphEvent.toJson : GraphEvent → Members
  | .nodeAdded node => [memberOf "type" (textValue "node_added"), memberOf "node" (.obj node.toJson)]
  | .nodeRemoved nodeId =>
    [memberOf "type" (textValue "node_removed"), memberOf "node_id" (idValue nodeId)]
  | .nodeInfoChanged node =>
    [memberOf "type" (textValue "node_info_changed"), memberOf "node" (.obj node.toJson)]
  | .portAdded port => [memberOf "type" (textValue "port_added"), memberOf "port" (.obj port.toJson)]
  | .portRemoved portId =>
    [memberOf "type" (textValue "port_removed"), memberOf "port_id" (idValue portId)]
  | .linkAdded link => [memberOf "type" (textValue "link_added"), memberOf "link" (.obj link.toJson)]
  | .linkRemoved linkId =>
    [memberOf "type" (textValue "link_removed"), memberOf "link_id" (idValue linkId)]
  | .linkStateChanged link =>
    [memberOf "type" (textValue "link_state_changed"), memberOf "link" (.obj link.toJson)]
  | .paramChanged nodeId key value =>
    [memberOf "type" (textValue "param_changed"), memberOf "node_id" (idValue nodeId),
      memberOf "key" (textValue key), memberOf "value" (textValue value)]

def GraphSnapshot.toJson (snapshot : GraphSnapshot) : Members :=
  [memberOf "nodes" (.arr (snapshot.nodes.map fun n => .obj n.toJson)),
    memberOf "ports" (.arr (snapshot.ports.map fun p => .obj p.toJson)),
    memberOf "links" (.arr (snapshot.links.map fun l => .obj l.toJson)),
    memberOf "devices" (.arr (snapshot.devices.map fun d => .obj d.toJson))]

def dartId (id : UInt32) : Int := id.toNat

def StringMap.image (m : StringMap) : TextMap :=
  LinkedMap.ofEntries (m.toList.map fun entry => (utf16 entry.1, utf16 entry.2))

/-- What a native record is to Dart: the same fields, states and directions by name. -/
def NodeInfo.image (node : NodeInfo) : PwNode :=
  ⟨dartId node.id, utf16 node.name, utf16 node.mediaClass,
    PwNodeState.fromString (utf16 node.state), node.properties.image⟩

def PortInfo.image (port : PortInfo) : PwPort :=
  ⟨dartId port.id, dartId port.nodeId, utf16 port.name,
    PwDirection.fromString (utf16 port.direction), utf16 port.mediaType, port.isPhysical,
    port.isTerminal, utf16 port.aliasName, port.properties.image⟩

def LinkInfo.image (link : LinkInfo) : PwLink :=
  ⟨dartId link.id, dartId link.outputNodeId, dartId link.outputPortId, dartId link.inputNodeId,
    dartId link.inputPortId, PwLinkState.fromString (utf16 link.state), utf16 link.error,
    link.properties.image⟩

def DeviceInfo.image (device : DeviceInfo) : PwDevice :=
  ⟨dartId device.id, utf16 device.name, utf16 device.description, utf16 device.mediaClass,
    utf16 device.api, device.properties.image⟩

def GraphEvent.image : GraphEvent → PwGraphEvent
  | .nodeAdded node => .nodeAdded node.image
  | .nodeRemoved nodeId => .nodeRemoved (dartId nodeId)
  | .nodeInfoChanged node => .nodeInfoChanged node.image
  | .portAdded port => .portAdded port.image
  | .portRemoved portId => .portRemoved (dartId portId)
  | .linkAdded link => .linkAdded link.image
  | .linkRemoved linkId => .linkRemoved (dartId linkId)
  | .linkStateChanged link => .linkStateChanged link.image
  | .paramChanged nodeId key value =>
    .paramChanged (dartId nodeId) (utf16 key) (textValue value)

theorem dartId_inj {a b : UInt32} : dartId a = dartId b ↔ a = b := by
  simp [dartId, UInt32.toNat_inj]

theorem asProperties_toJson (m : StringMap) : asProperties m.toJson = .ok m.image := by
  simp [StringMap.toJson, asProperties, StringMap.image, textValue, toDartText, Function.comp_def]

theorem PwNode.fromJson_toJson (node : NodeInfo) : PwNode.fromJson node.toJson = .ok node.image := by
  have props := asProperties_toJson node.properties
  simp [PwNode.fromJson, NodeInfo.toJson, Members.get, memberOf, idValue, textValue, asInt,
    asStringOr, props, NodeInfo.image, dartId, bind, Except.bind, pure, Except.pure]

theorem PwPort.fromJson_toJson (port : PortInfo) : PwPort.fromJson port.toJson = .ok port.image := by
  have props := asProperties_toJson port.properties
  simp [PwPort.fromJson, PortInfo.toJson, Members.get, memberOf, idValue, textValue, asInt,
    asStringOr, asBoolOr, props, PortInfo.image, dartId, bind, Except.bind, pure, Except.pure]

theorem PwLink.fromJson_toJson (link : LinkInfo) : PwLink.fromJson link.toJson = .ok link.image := by
  have props := asProperties_toJson link.properties
  simp [PwLink.fromJson, LinkInfo.toJson, Members.get, memberOf, idValue, textValue, asInt,
    asStringOr, props, LinkInfo.image, dartId, bind, Except.bind, pure, Except.pure]

theorem PwDevice.fromJson_toJson (device : DeviceInfo) :
    PwDevice.fromJson device.toJson = .ok device.image := by
  have props := asProperties_toJson device.properties
  simp [PwDevice.fromJson, DeviceInfo.toJson, Members.get, memberOf, idValue, textValue, asInt,
    asStringOr, props, DeviceInfo.image, dartId, bind, Except.bind, pure, Except.pure]

/-- Every posted event decodes to the Dart event of its class, field by field. -/
theorem deserializeEventValue_toJson (event : GraphEvent) :
    deserializeEventValue (.obj event.toJson) = some event.image := by
  cases event <;>
    simp [deserializeEventValue, asMembers, PwGraphEvent.fromJson, ParamChanged.fromJson, decodeField,
      GraphEvent.toJson, GraphEvent.image, Members.get, memberOf, idValue, textValue, asStringOr,
      asString, asInt, dartId, bind, Except.bind, pure, Except.pure, PwNode.fromJson_toJson,
      PwPort.fromJson_toJson, PwLink.fromJson_toJson]

theorem foldlM_collectStep {α ρ : Type} {decode : Members → DartResult α} {idOf : α → Int}
    {encode : ρ → Members} {image : ρ → α} (agree : ∀ r, decode (encode r) = .ok (image r))
    (records : List ρ) (found : LinkedMap Int α) :
    (records.map fun r => Value.obj (encode r)).foldlM (collectStep decode idOf) found =
      (.ok ((records.map fun r => (idOf (image r), image r)).foldl
        (fun found entry => found.put entry.1 entry.2) found) : DartResult _) := by
  induction records generalizing found with
  | nil => rfl
  | cons r records ih =>
    have step : collectStep decode idOf found (.obj (encode r)) =
        .ok (found.put (idOf (image r)) (image r)) := by
      simp [collectStep, asMembers, agree, bind, Except.bind, pure, Except.pure]
    simp only [List.map_cons, List.foldlM_cons, List.foldl_cons, step]
    exact ih _

theorem collect_arr {α ρ : Type} {decode : Members → DartResult α} (idOf : α → Int) (json : Members)
    (name : String) (records : List ρ) {encode : ρ → Members} {image : ρ → α}
    (field : json.get name = .arr (records.map fun r => .obj (encode r)))
    (agree : ∀ r, decode (encode r) = .ok (image r)) :
    collect decode idOf json name =
      .ok (LinkedMap.ofEntries (records.map fun r => (idOf (image r), image r))) := by
  rw [collect, field]
  exact foldlM_collectStep agree records ∅

/-- Every snapshot decodes, to the images of its records keyed by their ids. -/
theorem PwGraph.fromJsonValue_toJson (snapshot : GraphSnapshot) :
    PwGraph.fromJsonValue (.obj snapshot.toJson) = .ok
      { nodes := LinkedMap.ofEntries (snapshot.nodes.map fun n => (dartId n.id, n.image))
        ports := LinkedMap.ofEntries (snapshot.ports.map fun p => (dartId p.id, p.image))
        links := LinkedMap.ofEntries (snapshot.links.map fun l => (dartId l.id, l.image))
        devices := LinkedMap.ofEntries (snapshot.devices.map fun d => (dartId d.id, d.image)) } := by
  have nodes := collect_arr PwNode.id snapshot.toJson "nodes" snapshot.nodes
    (by simp [GraphSnapshot.toJson, Members.get, memberOf])
    PwNode.fromJson_toJson
  have ports := collect_arr PwPort.id snapshot.toJson "ports" snapshot.ports
    (by simp [GraphSnapshot.toJson, Members.get, memberOf])
    PwPort.fromJson_toJson
  have links := collect_arr PwLink.id snapshot.toJson "links" snapshot.links
    (by simp [GraphSnapshot.toJson, Members.get, memberOf])
    PwLink.fromJson_toJson
  have devices := collect_arr PwDevice.id snapshot.toJson "devices" snapshot.devices
    (by simp [GraphSnapshot.toJson, Members.get, memberOf])
    PwDevice.fromJson_toJson
  simp only [fromJsonValue, asMembers, fromJson, nodes, ports, links, devices, bind, Except.bind,
    pure, Except.pure]
  rfl

end PwDart
