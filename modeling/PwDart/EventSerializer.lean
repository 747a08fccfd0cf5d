import PwDart.JsonCodec
import PwDart.PwParams
import PwDart.WireEncoding

namespace PwDart

open Json

/-- The `glz::meta` tables, with the defaults of the structs. -/
def NodeInfo.meta : Meta NodeInfo where
  fields :=
    [⟨"id", Codec.uint32, NodeInfo.id, fun n id => { n with id := id }⟩,
      ⟨"name", Codec.text, NodeInfo.name, fun n name => { n with name := name }⟩,
      ⟨"media_class", Codec.text, NodeInfo.mediaClass, fun n mediaClass => { n with mediaClass := mediaClass }⟩,
      ⟨"state", Codec.text, NodeInfo.state, fun n state => { n with state := state }⟩,
      ⟨"properties", Codec.textMap, NodeInfo.properties, fun n properties => { n with properties := properties }⟩]
  default := {}
  distinct := by decide
  complete _ := rfl

def PortInfo.meta : Meta PortInfo where
  fields :=
    [⟨"id", Codec.uint32, PortInfo.id, fun p id => { p with id := id }⟩,
      ⟨"node_id", Codec.uint32, PortInfo.nodeId, fun p nodeId => { p with nodeId := nodeId }⟩,
      ⟨"name", Codec.text, PortInfo.name, fun p name => { p with name := name }⟩,
      ⟨"direction", Codec.text, PortInfo.direction, fun p direction => { p with direction := direction }⟩,
      ⟨"media_type", Codec.text, PortInfo.mediaType, fun p mediaType => { p with mediaType := mediaType }⟩,
      ⟨"is_physical", Codec.bool, PortInfo.isPhysical, fun p physical => { p with isPhysical := physical }⟩,
      ⟨"is_terminal", Codec.bool, PortInfo.isTerminal, fun p terminal => { p with isTerminal := terminal }⟩,
      ⟨"alias", Codec.text, PortInfo.aliasName, fun p aliasName => { p with aliasName := aliasName }⟩,
      ⟨"properties", Codec.textMap, PortInfo.properties, fun p properties => { p with properties := properties }⟩]
  default := {}
  distinct := by decide
  complete _ := rfl

def LinkInfo.meta : Meta LinkInfo where
  fields :=
    [⟨"id", Codec.uint32, LinkInfo.id, fun l id => { l with id := id }⟩,
      ⟨"output_node_id", Codec.uint32, LinkInfo.outputNodeId, fun l id => { l with outputNodeId := id }⟩,
      ⟨"output_port_id", Codec.uint32, LinkInfo.outputPortId, fun l id => { l with outputPortId := id }⟩,
      ⟨"input_node_id", Codec.uint32, LinkInfo.inputNodeId, fun l id => { l with inputNodeId := id }⟩,
      ⟨"input_port_id", Codec.uint32, LinkInfo.inputPortId, fun l id => { l with inputPortId := id }⟩,
      ⟨"state", Codec.text, LinkInfo.state, fun l state => { l with state := state }⟩,
      ⟨"error", Codec.text, LinkInfo.error, fun l error => { l with error := error }⟩,
      ⟨"properties", Codec.textMap, LinkInfo.properties, fun l properties => { l with properties := properties }⟩]
  default := {}
  distinct := by decide
  complete _ := rfl

def DeviceInfo.meta : Meta DeviceInfo where
  fields :=
    [⟨"id", Codec.uint32, DeviceInfo.id, fun d id => { d with id := id }⟩,
      ⟨"name", Codec.text, DeviceInfo.name, fun d name => { d with name := name }⟩,
      ⟨"description", Codec.text, DeviceInfo.description, fun d description => { d with description := description }⟩,
      ⟨"media_class", Codec.text, DeviceInfo.mediaClass, fun d mediaClass => { d with mediaClass := mediaClass }⟩,
      ⟨"api", Codec.text, DeviceInfo.api, fun d api => { d with api := api }⟩,
      ⟨"properties", Codec.textMap, DeviceInfo.properties, fun d properties => { d with properties := properties }⟩]
  default := {}
  distinct := by decide
  complete _ := rfl

def GraphSnapshot.meta : Meta GraphSnapshot where
  fields :=
    [⟨"nodes", NodeInfo.meta.codec.list, GraphSnapshot.nodes, fun s nodes => { s with nodes := nodes }⟩,
      ⟨"ports", PortInfo.meta.codec.list, GraphSnapshot.ports, fun s ports => { s with ports := ports }⟩,
      ⟨"links", LinkInfo.meta.codec.list, GraphSnapshot.links, fun s links => { s with links := links }⟩,
      ⟨"devices", DeviceInfo.meta.codec.list, GraphSnapshot.devices, fun s devices => { s with devices := devices }⟩]
  default := {}
  distinct := by decide
  complete _ := rfl

theorem write_meta (snapshot : GraphSnapshot) : GraphSnapshot.meta.codec.write snapshot = .obj snapshot.toJson :=
  rfl

theorem isNative_event (event : GraphEvent) : (Value.obj event.toJson).IsNative := by
  cases event with
  | nodeAdded node | nodeInfoChanged node =>
    exact ⟨codePoints_utf16 _, codePoints_utf16 _, codePoints_utf16 _, NodeInfo.meta.codec.native node, trivial⟩
  | portAdded port =>
    exact ⟨codePoints_utf16 _, codePoints_utf16 _, codePoints_utf16 _, PortInfo.meta.codec.native port, trivial⟩
  | linkAdded link | linkStateChanged link =>
    exact ⟨codePoints_utf16 _, codePoints_utf16 _, codePoints_utf16 _, LinkInfo.meta.codec.native link, trivial⟩
  | nodeRemoved id | portRemoved id | linkRemoved id =>
    exact ⟨codePoints_utf16 _, codePoints_utf16 _, codePoints_utf16 _, Codec.uint32.native id, trivial⟩
  | paramChanged nodeId key value =>
    exact ⟨codePoints_utf16 _, codePoints_utf16 _, codePoints_utf16 _, Codec.uint32.native nodeId,
      codePoints_utf16 _, codePoints_utf16 _, codePoints_utf16 _, codePoints_utf16 _, trivial⟩

/-- `writeJson` is `glz::write_json`, which fails with no text. -/
def serializeEvent (writeJson : Value → Option String) (event : GraphEvent) : String :=
  (writeJson (.obj event.toJson)).getD "\x7b\"type\":\"error\",\"message\":\"serialization_failed\"\x7d"

def serializeSnapshot (writeJson : Value → Option String) (snapshot : GraphSnapshot) : String :=
  (writeJson (.obj snapshot.toJson)).getD "\x7b\"nodes\":[],\"ports\":[],\"links\":[],\"devices\":[]\x7d"

/-- `readJson` is `glz::read_json` into a new `GraphSnapshot`. -/
def deserializeSnapshot (readJson : String → Option GraphSnapshot) (json : String) : GraphSnapshot :=
  (readJson json).getD {}

/-- What is relied on of `glz::write_json`: it writes native values as RFC 8259 has them. -/
def WritesJson (writeJson : Value → Option String) : Prop :=
  ∀ v, v.IsNative → ∃ json, writeJson v = some json ∧ decode (utf16 json) = some v

/-- What is relied on of `glz::read_json`: it reads objects by their metadata. -/
def ReadsSnapshots (readJson : String → Option GraphSnapshot) : Prop :=
  ∀ json v snapshot, decode (utf16 json) = some v → GraphSnapshot.meta.codec.read v = some snapshot →
    readJson json = some snapshot

/-- `PwEventDeserializer.deserializeEvent`. -/
def deserializeEvent (json : Text) : Option PwGraphEvent :=
  match jsonDecode json with
  | .ok value => deserializeEventValue value
  | .error _ => none

def PwGraph.fromJsonString (json : Text) : DartResult PwGraph := do
  fromJsonValue (← jsonDecode json)

theorem jsonDecode_write {writeJson : Value → Option String} (writes : WritesJson writeJson) {v : Value}
    (native : v.IsNative) (orElse : String) : jsonDecode (utf16 ((writeJson v).getD orElse)) = .ok v := by
  obtain ⟨json, written, decoded⟩ := writes v native
  rw [written, Option.getD_some, jsonDecode, decoded]

theorem deserializeEvent_serializeEvent {writeJson : Value → Option String} (writes : WritesJson writeJson)
    (event : GraphEvent) : deserializeEvent (utf16 (serializeEvent writeJson event)) = some event.image := by
  rw [deserializeEvent, serializeEvent, jsonDecode_write writes (isNative_event event)]
  exact deserializeEventValue_toJson event

theorem deserializeSnapshot_serializeSnapshot {writeJson : Value → Option String}
    {readJson : String → Option GraphSnapshot} (writes : WritesJson writeJson) (reads : ReadsSnapshots readJson)
    (snapshot : GraphSnapshot) :
    deserializeSnapshot readJson (serializeSnapshot writeJson snapshot) = snapshot := by
  obtain ⟨json, written, decoded⟩ := writes _ (GraphSnapshot.meta.codec.native snapshot)
  rw [write_meta] at written decoded
  have read := reads json _ snapshot decoded (GraphSnapshot.meta.codec.read_write snapshot)
  rw [serializeSnapshot, written, Option.getD_some, deserializeSnapshot, read, Option.getD_some]

end PwDart
