import PwDart.PwParams
import PwDart.WireEncoding

namespace PwDart

open Json

/-- The names by which Dart knows the values of its enums. -/
def PwNodeState.name : PwNodeState → String
  | error => "error"
  | creating => "creating"
  | suspended => "suspended"
  | idle => "idle"
  | running => "running"

def PwDirection.name : PwDirection → String
  | input => "input"
  | output => "output"

def PwLinkState.name : PwLinkState → String
  | error => "error"
  | unlinked => "unlinked"
  | init => "init"
  | negotiating => "negotiating"
  | allocating => "allocating"
  | paused => "paused"
  | active => "active"

def PwParamType.toJsonString : PwParamType → String
  | int => "Int"
  | float => "Float"
  | double => "Double"
  | string => "String"
  | bool => "Bool"
  | bytes => "Bytes"
  | unknown => "Unknown"

def TextMap.toJson (m : TextMap) : Value := .obj (m.entries.map fun entry => (entry.1, .str entry.2))

def PwNode.toJson (node : PwNode) : Members :=
  [memberOf "id" (.int node.id), memberOf "name" (.str node.name), memberOf "media_class" (.str node.mediaClass),
    memberOf "state" (textValue node.state.name), memberOf "properties" (TextMap.toJson node.properties)]

def PwPort.toJson (port : PwPort) : Members :=
  [memberOf "id" (.int port.id), memberOf "node_id" (.int port.nodeId), memberOf "name" (.str port.name),
    memberOf "direction" (textValue port.direction.name), memberOf "media_type" (.str port.mediaType),
    memberOf "is_physical" (.bool port.isPhysical), memberOf "is_terminal" (.bool port.isTerminal),
    memberOf "alias" (.str port.aliasName), memberOf "properties" (TextMap.toJson port.properties)]

def PwLink.toJson (link : PwLink) : Members :=
  [memberOf "id" (.int link.id), memberOf "output_node_id" (.int link.outputNodeId),
    memberOf "output_port_id" (.int link.outputPortId), memberOf "input_node_id" (.int link.inputNodeId),
    memberOf "input_port_id" (.int link.inputPortId), memberOf "state" (textValue link.state.name),
    memberOf "error" (.str link.error), memberOf "properties" (TextMap.toJson link.properties)]

def PwDevice.toJson (device : PwDevice) : Members :=
  [memberOf "id" (.int device.id), memberOf "name" (.str device.name),
    memberOf "description" (.str device.description), memberOf "media_class" (.str device.mediaClass),
    memberOf "api" (.str device.api), memberOf "properties" (TextMap.toJson device.properties)]

/-- `if (value != null) name: value`. -/
def optionalMember (name : String) : Value → Members
  | .null => []
  | value => [memberOf name value]

def PwGraphEvent.toJson : PwGraphEvent → Members
  | .nodeAdded node => [memberOf "type" (textValue "node_added"), memberOf "node" (.obj node.toJson)]
  | .nodeRemoved nodeId => [memberOf "type" (textValue "node_removed"), memberOf "node_id" (.int nodeId)]
  | .nodeInfoChanged node =>
    [memberOf "type" (textValue "node_info_changed"), memberOf "node" (.obj node.toJson)]
  | .portAdded port => [memberOf "type" (textValue "port_added"), memberOf "port" (.obj port.toJson)]
  | .portRemoved portId => [memberOf "type" (textValue "port_removed"), memberOf "port_id" (.int portId)]
  | .linkAdded link => [memberOf "type" (textValue "link_added"), memberOf "link" (.obj link.toJson)]
  | .linkRemoved linkId => [memberOf "type" (textValue "link_removed"), memberOf "link_id" (.int linkId)]
  | .linkStateChanged link =>
    [memberOf "type" (textValue "link_state_changed"), memberOf "link" (.obj link.toJson)]
  | .paramChanged nodeId key value =>
    [memberOf "type" (textValue "param_changed"), memberOf "node_id" (.int nodeId), memberOf "key" (.str key)] ++
      optionalMember "value" value

def PwParamFlags.toJson (flags : PwParamFlags) : Members :=
  [memberOf "readable" (.bool flags.readable), memberOf "writable" (.bool flags.writable)]

def PwParam.toJson (param : PwParam) : Members :=
  [memberOf "key" (.str param.key), memberOf "value" param.value,
    memberOf "type" (textValue param.type.toJsonString), memberOf "flags" (.obj param.flags.toJson)] ++
    optionalMember "default" param.defaultValue ++ optionalMember "min" param.min ++ optionalMember "max" param.max

def PwGraph.toJson (g : PwGraph) : Members :=
  [memberOf "nodes" (.arr (g.nodes.values.map fun n => .obj n.toJson)),
    memberOf "ports" (.arr (g.ports.values.map fun p => .obj p.toJson)),
    memberOf "links" (.arr (g.links.values.map fun l => .obj l.toJson)),
    memberOf "devices" (.arr (g.devices.values.map fun d => .obj d.toJson))]

theorem PwNodeState.fromString_name (state : PwNodeState) : fromString (utf16 state.name) = state := by
  cases state <;> decide

theorem PwDirection.fromString_name (direction : PwDirection) : fromString (utf16 direction.name) = direction := by
  cases direction <;> decide

theorem PwLinkState.fromString_name (state : PwLinkState) : fromString (utf16 state.name) = state := by
  cases state <;> decide

theorem PwParamType.fromString_toJsonString (type : PwParamType) :
    fromString (utf16 type.toJsonString) = type := by
  cases type <;> decide

theorem asProperties_textMap (m : TextMap) : asProperties (TextMap.toJson m) = .ok m := by
  have same := LinkedMap.ofEntries_entries m
  simp [TextMap.toJson, asProperties, toDartText, Function.comp_def, same]

theorem PwNode.reads_toJson (node : PwNode) : PwNode.fromJson node.toJson = .ok node := by
  have props := asProperties_textMap node.properties
  have state := PwNodeState.fromString_name node.state
  simp [PwNode.fromJson, PwNode.toJson, Members.get, memberOf, textValue, asInt, asStringOr, props, state, bind,
    Except.bind, pure, Except.pure]

theorem PwPort.reads_toJson (port : PwPort) : PwPort.fromJson port.toJson = .ok port := by
  have props := asProperties_textMap port.properties
  have direction := PwDirection.fromString_name port.direction
  simp [PwPort.fromJson, PwPort.toJson, Members.get, memberOf, textValue, asInt, asStringOr, asBoolOr, props,
    direction, bind, Except.bind, pure, Except.pure]

theorem PwLink.reads_toJson (link : PwLink) : PwLink.fromJson link.toJson = .ok link := by
  have props := asProperties_textMap link.properties
  have state := PwLinkState.fromString_name link.state
  simp [PwLink.fromJson, PwLink.toJson, Members.get, memberOf, textValue, asInt, asStringOr, props, state, bind,
    Except.bind, pure, Except.pure]

theorem PwDevice.reads_toJson (device : PwDevice) : PwDevice.fromJson device.toJson = .ok device := by
  have props := asProperties_textMap device.properties
  simp [PwDevice.fromJson, PwDevice.toJson, Members.get, memberOf, asInt, asStringOr, props, bind, Except.bind,
    pure, Except.pure]

theorem get_append_optional (members : Members) (name field : String) (value : Value) (absent : members.get name = .null) :
    (members ++ optionalMember name value).get field =
      if utf16 name = utf16 field then value else members.get field := by
  have single (v : Value) : (members ++ [memberOf name v]).get field =
      if utf16 name = utf16 field then v else members.get field := by
    simp [Members.get, memberOf, List.foldl_append]
  cases value with
  | null =>
    rw [optionalMember, List.append_nil]
    split_ifs with same
    · rw [← absent, Members.get, Members.get, same]
    · rfl
  | _ => exact single _

theorem PwGraphEvent.reads_toJson (event : PwGraphEvent) : PwGraphEvent.fromJson event.toJson = .ok (some event) := by
  cases event with
  | paramChanged nodeId key value =>
    let always : Members :=
      [memberOf "type" (textValue "param_changed"), memberOf "node_id" (.int nodeId), memberOf "key" (.str key)]
    have noValue : always.get "value" = .null := by
      simp [always, Members.get, memberOf]
    have field (name : String) : (toJson (.paramChanged nodeId key value)).get name =
        if utf16 "value" = utf16 name then value else always.get name :=
      get_append_optional always "value" name value noValue
    have type : always.get "type" = textValue "param_changed" := by
      simp [always, Members.get, memberOf]
    have node : always.get "node_id" = .int nodeId := by
      simp [always, Members.get, memberOf]
    have keyed : always.get "key" = .str key := by
      simp [always, Members.get, memberOf]
    simp [PwGraphEvent.fromJson, ParamChanged.fromJson, field, type, node, keyed, textValue, asStringOr, asString, asInt,
      bind, Except.bind, pure, Except.pure]
  | _ =>
    simp [PwGraphEvent.fromJson, decodeField, asMembers, toJson, Members.get, memberOf, textValue, asStringOr, asInt,
      bind, Except.bind, pure, Except.pure, PwNode.reads_toJson, PwPort.reads_toJson, PwLink.reads_toJson]

theorem paramFlags_toJson (flags : PwParamFlags) : paramFlags (.obj flags.toJson) = .ok flags := by
  simp [paramFlags, PwParamFlags.fromJson, PwParamFlags.toJson, asMembers, Members.get, memberOf, asBoolOr, bind,
    Except.bind, pure, Except.pure]

theorem PwParam.reads_toJson (param : PwParam) : PwParam.fromJson param.toJson = .ok param := by
  let always : Members := [memberOf "key" (.str param.key), memberOf "value" param.value,
    memberOf "type" (textValue param.type.toJsonString), memberOf "flags" (.obj param.flags.toJson)]
  have noDefault : always.get "default" = .null := by
    simp [always, Members.get, memberOf]
  have withDefault (name : String) := get_append_optional always "default" name param.defaultValue noDefault
  have noMin : (always ++ optionalMember "default" param.defaultValue).get "min" = .null := by
    rw [withDefault]
    simp [always, Members.get, memberOf]
  have withMin (name : String) := get_append_optional (always ++ optionalMember "default" param.defaultValue) "min" name
    param.min noMin
  have noMax : (always ++ optionalMember "default" param.defaultValue ++ optionalMember "min" param.min).get "max" =
      .null := by
    rw [withMin, withDefault]
    simp [always, Members.get, memberOf]
  have field (name : String) : param.toJson.get name = if utf16 "max" = utf16 name then param.max
      else if utf16 "min" = utf16 name then param.min
      else if utf16 "default" = utf16 name then param.defaultValue else always.get name := by
    rw [PwParam.toJson, get_append_optional _ "max" name param.max noMax, withMin, withDefault]
  have keyed : always.get "key" = .str param.key := by
    simp [always, Members.get, memberOf]
  have valued : always.get "value" = param.value := by
    simp [always, Members.get, memberOf]
  have typed : always.get "type" = textValue param.type.toJsonString := by
    simp [always, Members.get, memberOf]
  have flagged : always.get "flags" = .obj param.flags.toJson := by
    simp [always, Members.get, memberOf]
  have flags := paramFlags_toJson param.flags
  have type := PwParamType.fromString_toJsonString param.type
  simp [PwParam.fromJson, field, keyed, valued, typed, flagged, textValue, asString, asStringOr, flags, type, bind,
    Except.bind, pure, Except.pure]

end PwDart
