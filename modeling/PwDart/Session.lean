import PwDart.DrainedQueue
import PwDart.HandshakeView

namespace PwDart

open LabelledRun DrainedQueue

/-- A `pw_registry_bind` on its way to the server. -/
structure Bind where
  id : UInt32
  type : Option String
  proxy : PwProxy
deriving DecidableEq

/-- The client, with all binds it has sent and all events it has posted. -/
structure SessionClient where
  monitor : RegistryMonitor := {}
  nextProxy : PwProxy := 1
  sent : List Bind := []
  posted : List GraphEvent := []

/-- One event from the server; an info whose proxy is gone is dropped. -/
def SessionClient.receive (c : SessionClient) : ServerEvent → SessionClient
  | .global object =>
    { c with
      monitor := (c.monitor.call (.global object.id object.type object.props (some c.nextProxy))).1
      nextProxy := c.nextProxy + 1
      sent := c.sent ++ if object.kind = none then [] else [⟨object.id, object.type, c.nextProxy⟩] }
  | .globalRemove object =>
    { c with
      monitor := (c.monitor.call (.globalRemove object.id)).1
      posted := c.posted ++ (c.monitor.call (.globalRemove object.id)).2 }
  | .info proxy report =>
    match c.monitor.proxyId proxy with
    | none => c
    | some id =>
      { c with
        monitor := (c.monitor.call (report.callback id)).1
        posted := c.posted ++ (c.monitor.call (report.callback id)).2 }
  | .done _ _ => c

/-- What the properties of the object say it is. -/
def ServerObject.record (object : ServerObject) : Option ObjectInfo :=
  announced object.id object.type object.props

/-- The node of a port. -/
def ServerObject.portNode (object : ServerObject) : Option UInt32 :=
  match object.record with
  | some (.port port) => some port.nodeId
  | _ => none

def HasNode (objects : List ServerObject) (id : UInt32) : Prop :=
  ∃ node ∈ objects, node.id = id ∧ node.kind = some .node

instance (objects : List ServerObject) (id : UInt32) : Decidable (HasNode objects id) :=
  inferInstanceAs (Decidable (∃ node ∈ objects, node.id = id ∧ node.kind = some .node))

def HasPort (objects : List ServerObject) (id nodeId : UInt32) : Prop :=
  ∃ port ∈ objects, port.id = id ∧ port.portNode = some nodeId

instance (objects : List ServerObject) (id nodeId : UInt32) : Decidable (HasPort objects id nodeId) :=
  inferInstanceAs (Decidable (∃ port ∈ objects, port.id = id ∧ port.portNode = some nodeId))

/-- The objects that this one names in its properties are there: the node of a port, the ports of a link
and their nodes. -/
def supported (objects : List ServerObject) (object : ServerObject) : Bool :=
  match object.record with
  | some (.port port) => HasNode objects port.nodeId
  | some (.link link) =>
    HasPort objects link.outputPortId link.outputNodeId && HasPort objects link.inputPortId link.inputNodeId
  | _ => true

/-- An info struct the server can send for the object. -/
def truthful (object : ServerObject) (report : InfoReport) : Bool :=
  match object.record, report with
  | some (.node _), .node _ => true
  | some (.port _), .port _ => true
  | some (.link link), .link info =>
    info.outputNodeId = link.outputNodeId && info.outputPortId = link.outputPortId &&
      info.inputNodeId = link.inputNodeId && info.inputPortId = link.inputPortId
  | some (.device _), .device _ => true
  | _, _ => false

/-- Server and client of a connection. `objects` are those announced and not removed since, each with
its position among all that were announced; `bound` says which proxy was bound to which of them, and the
server has handled the first `handled` binds the client sent. -/
structure Session where
  objects : List ServerObject := []
  nextSerial : Nat := 1
  bound : List (PwProxy × ServerObject) := []
  handled : Nat := 0
  toClient : List ServerEvent := []
  client : SessionClient := {}

inductive SessionStep
  | announce (object : ServerObject)
  | remove (object : ServerObject)
  | answer (report : InfoReport)
  | inform (proxy : PwProxy) (object : ServerObject) (report : InfoReport)
  | receive

namespace Session

/-- The server handles the next bind: an object of that id and type is bound and its info sent. -/
def answer (s : Session) (report : InfoReport) : Option Session :=
  match s.client.sent[s.handled]? with
  | none => none
  | some bind =>
    match s.objects.find? fun object => object.id = bind.id ∧ object.type = bind.type with
    | none => some { s with handled := s.handled + 1 }
    | some object =>
      if truthful object report then
        some { s with
          handled := s.handled + 1
          bound := s.bound ++ [(bind.proxy, object)]
          toClient := s.toClient ++ [.info bind.proxy report] }
      else none

/-- An object comes after what it names and goes before it. -/
def next (s : Session) : SessionStep → Option Session
  | .announce object =>
    if object.serial = s.nextSerial ∧ (∀ other ∈ s.objects, other.id ≠ object.id) ∧
        supported s.objects object then
      some { s with
        objects := s.objects ++ [object]
        nextSerial := s.nextSerial + 1
        toClient := s.toClient ++ [.global object] }
    else none
  | .remove object =>
    let rest := s.objects.filter fun other => other ≠ object
    if object ∈ s.objects ∧ ∀ other ∈ rest, supported rest other then
      some { s with objects := rest, toClient := s.toClient ++ [.globalRemove object] }
    else none
  | .answer report => s.answer report
  | .inform proxy object report =>
    if (proxy, object) ∈ s.bound ∧ object ∈ s.objects ∧ truthful object report then
      some { s with toClient := s.toClient ++ [.info proxy report] }
    else none
  | .receive =>
    match s.toClient with
    | [] => none
    | event :: rest => some { s with toClient := rest, client := s.client.receive event }

end Session

/-- The Dart graph after these events. -/
def graphOf (events : List GraphEvent) : PwGraph := (events.map GraphEvent.image).foldl PwGraph.applyEvent {}

/-- Every port names a node of the graph, and every link two ports and two nodes of it. -/
structure PwGraph.Integral (g : PwGraph) : Prop where
  ports : ∀ key port, g.ports.lookup key = some port → port.nodeId ∈ g.nodes
  links : ∀ key link, g.links.lookup key = some link →
    link.outputPortId ∈ g.ports ∧ link.inputPortId ∈ g.ports ∧
      link.outputNodeId ∈ g.nodes ∧ link.inputNodeId ∈ g.nodes

end PwDart
