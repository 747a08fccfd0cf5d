import PwDart.DartModels

namespace PwDart

open Json

inductive PwGraphEvent
  | nodeAdded (node : PwNode)
  | nodeRemoved (nodeId : Int)
  | nodeInfoChanged (node : PwNode)
  | portAdded (port : PwPort)
  | portRemoved (portId : Int)
  | linkAdded (link : PwLink)
  | linkRemoved (linkId : Int)
  | linkStateChanged (link : PwLink)
  | paramChanged (nodeId : Int) (key : Text) (value : Value)

/-- `Foo.fromJson(json[name] as Map<String, dynamic>)`. -/
def decodeField {α : Type} (decode : Members → DartResult α) (json : Members) (name : String) :
    DartResult α := do
  decode (← asMembers (json.get name))

def ParamChanged.fromJson (json : Members) : DartResult PwGraphEvent := do
  let nodeId ← asInt (json.get "node_id")
  let key ← asString (json.get "key")
  return .paramChanged nodeId key (json.get "value")

/-- `null` for an unknown or absent type. -/
def PwGraphEvent.fromJson (json : Members) : DartResult (Option PwGraphEvent) := do
  let type ← asStringOr "" (json.get "type")
  if type = utf16 "node_added" then
    return some (.nodeAdded (← decodeField PwNode.fromJson json "node"))
  else if type = utf16 "node_removed" then
    return some (.nodeRemoved (← asInt (json.get "node_id")))
  else if type = utf16 "node_info_changed" then
    return some (.nodeInfoChanged (← decodeField PwNode.fromJson json "node"))
  else if type = utf16 "port_added" then
    return some (.portAdded (← decodeField PwPort.fromJson json "port"))
  else if type = utf16 "port_removed" then
    return some (.portRemoved (← asInt (json.get "port_id")))
  else if type = utf16 "link_added" then
    return some (.linkAdded (← decodeField PwLink.fromJson json "link"))
  else if type = utf16 "link_removed" then
    return some (.linkRemoved (← asInt (json.get "link_id")))
  else if type = utf16 "link_state_changed" then
    return some (.linkStateChanged (← decodeField PwLink.fromJson json "link"))
  else if type = utf16 "param_changed" then
    return some (← ParamChanged.fromJson json)
  else return none

/-- The body of `deserializeEvent` after `jsonDecode`: both exception types are caught. -/
def deserializeEventValue (json : Value) : Option PwGraphEvent :=
  match asMembers json >>= PwGraphEvent.fromJson with
  | .ok event => event
  | .error _ => none

structure PwGraph where
  nodes : LinkedMap Int PwNode := ∅
  ports : LinkedMap Int PwPort := ∅
  links : LinkedMap Int PwLink := ∅
  devices : LinkedMap Int PwDevice := ∅

/-- The loop body of `fromJson`: `final x = T.fromJson(item as Map<String, dynamic>); m[x.id] = x;`. -/
def collectStep {α : Type} (decode : Members → DartResult α) (idOf : α → Int)
    (found : LinkedMap Int α) (item : Value) : DartResult (LinkedMap Int α) := do
  let x ← decode (← asMembers item)
  return found.put (idOf x) x

/-- `if (json[name] case final List<dynamic> list)` the loop over it, on an empty map. -/
def collect {α : Type} (decode : Members → DartResult α) (idOf : α → Int) (json : Members)
    (name : String) : DartResult (LinkedMap Int α) :=
  match json.get name with
  | .arr items => items.foldlM (collectStep decode idOf) ∅
  | _ => return ∅

namespace PwGraph

def fromJson (json : Members) : DartResult PwGraph := do
  let nodes ← collect PwNode.fromJson PwNode.id json "nodes"
  let ports ← collect PwPort.fromJson PwPort.id json "ports"
  let links ← collect PwLink.fromJson PwLink.id json "links"
  let devices ← collect PwDevice.fromJson PwDevice.id json "devices"
  return ⟨nodes, ports, links, devices⟩

/-- `fromJsonString` after `jsonDecode`. -/
def fromJsonValue (json : Value) : DartResult PwGraph := do
  fromJson (← asMembers json)

def withNode (g : PwGraph) (node : PwNode) : PwGraph := { g with nodes := g.nodes.put node.id node }

def withoutNode (g : PwGraph) (nodeId : Int) : PwGraph := { g with nodes := g.nodes.erase nodeId }

def withPort (g : PwGraph) (port : PwPort) : PwGraph := { g with ports := g.ports.put port.id port }

def withoutPort (g : PwGraph) (portId : Int) : PwGraph := { g with ports := g.ports.erase portId }

def withLink (g : PwGraph) (link : PwLink) : PwGraph := { g with links := g.links.put link.id link }

def withoutLink (g : PwGraph) (linkId : Int) : PwGraph := { g with links := g.links.erase linkId }

def applyEvent (g : PwGraph) : PwGraphEvent → PwGraph
  | .nodeAdded node => g.withNode node
  | .nodeRemoved nodeId => g.withoutNode nodeId
  | .nodeInfoChanged node => g.withNode node
  | .portAdded port => g.withPort port
  | .portRemoved portId => g.withoutPort portId
  | .linkAdded link => g.withLink link
  | .linkRemoved linkId => g.withoutLink linkId
  | .linkStateChanged link => g.withLink link
  | .paramChanged _ _ _ => g

end PwGraph

end PwDart
