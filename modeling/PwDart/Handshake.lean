import PwDart.LabelledRun
import PwDart.MarkedQueue
import PwDart.RegistryEffects
import PwDart.Connect

namespace PwDart

open LabelledRun

/-- An object on the server, with the position of its creation. Its announcement does not make
`on_global` throw. -/
structure ServerObject where
  serial : Nat
  id : UInt32
  type : Option String
  props : Option SpaDict
  parses : (({} : RegistryMonitor).onGlobal id type props none).2 = none
deriving DecidableEq

def ServerObject.kind (object : ServerObject) : Option Kind :=
  if object.type = some interfaceNode then some .node
  else if object.type = some interfacePort then some .port
  else if object.type = some interfaceLink then some .link
  else if object.type = some interfaceDevice then some .device
  else none

/-- An info struct of one of the four interfaces. -/
inductive InfoReport
  | node (info : PwNodeInfo)
  | port (info : PwPortInfo)
  | link (info : PwLinkInfo)
  | device (info : PwDeviceInfo)
deriving DecidableEq

def InfoReport.kind : InfoReport → Kind
  | node _ => .node
  | port _ => .port
  | link _ => .link
  | device _ => .device

/-- The call a proxy listener makes with the id in its `ProxyData`. -/
def InfoReport.callback (id : UInt32) : InfoReport → Callback
  | node info => .nodeInfo id (some info)
  | port info => .portInfo id (some info)
  | link info => .linkInfo id (some info)
  | device info => .deviceInfo id (some info)

inductive Request
  | getRegistry
  | bind (id : UInt32) (proxy : PwProxy)
  | sync (seq : Int)
deriving DecidableEq

inductive ServerEvent
  | global (object : ServerObject)
  | globalRemove (object : ServerObject)
  | info (proxy : PwProxy) (report : InfoReport)
  | done (id : UInt32) (seq : Int)
deriving DecidableEq

/-- What the two calls of `pw_core_sync` return. -/
structure SyncSeqs where
  first : Int
  second : Int
  distinct : first ≠ second

/-- The round `connect` is in, or that it has left both. -/
inductive ConnectStage
  | first
  | second
  | settled
deriving DecidableEq

/-- Client and server during the two rounds. `view` is the client's copy of the server's objects,
with the proxies it bound, `deleted` what `on_global_remove` has run for, `atFirstSync` what was
there when the server handled the first sync, and `bound` the number of proxies when the second
round began. -/
structure Handshake where
  objects : List ServerObject
  registered : Bool := false
  toServer : List Request
  toClient : List ServerEvent := []
  stage : ConnectStage := .first
  sync : SyncState
  monitor : RegistryMonitor := {}
  nextProxy : PwProxy := 1
  calls : List Callback := []
  view : List (ServerObject × PwProxy) := []
  deleted : List ServerObject := []
  atFirstSync : Option (List ServerObject) := none
  bound : PwProxy := 1
  nextSerial : Nat

inductive HandshakeStep
  | handle (report : InfoReport)
  | add (object : ServerObject)
  | remove (object : ServerObject)
  | receive
  | nextRound
  | leave

namespace Handshake

/-- A server with these objects, and a client that has sent its first two requests. -/
def start (seqs : SyncSeqs) (objects : List ServerObject) (nextSerial : Nat) : Handshake :=
  { objects := objects
    toServer := [.getRegistry, .sync seqs.first]
    sync := ⟨false, seqs.first⟩
    nextSerial := nextSerial }

/-- The server handles its next request. -/
def handle (seqs : SyncSeqs) (s : Handshake) (report : InfoReport) : Option Handshake :=
  match s.toServer with
  | [] => none
  | .getRegistry :: rest =>
    some { s with
      toServer := rest, registered := true, toClient := s.toClient ++ s.objects.map .global }
  | .bind id proxy :: rest =>
    match s.objects.find? fun object => object.id = id with
    | none => some { s with toServer := rest }
    | some object =>
      if object.kind = none then some { s with toServer := rest }
      else if object.kind = some report.kind then
        some { s with toServer := rest, toClient := s.toClient ++ [.info proxy report] }
      else none
  | .sync seq :: rest =>
    some { s with
      toServer := rest
      toClient := s.toClient ++ [.done PW_ID_CORE seq]
      atFirstSync := if s.atFirstSync = none ∧ seq = seqs.first then some s.objects else s.atFirstSync }

end Handshake

/-- The id in the `ProxyData` that a live proxy was given. -/
def RegistryMonitor.proxyId (m : RegistryMonitor) (proxy : PwProxy) : Option UInt32 :=
  (m.proxies.toList.find? fun entry => entry.2.proxy = some proxy).map Prod.fst

namespace Handshake

/-- The client handles one event. -/
def receive (s : Handshake) (rest : List ServerEvent) : ServerEvent → Handshake
  | .global object =>
    let c := Callback.global object.id object.type object.props (some s.nextProxy)
    { s with
      toClient := rest
      toServer := s.toServer ++ if object.kind = none then [] else [.bind object.id s.nextProxy]
      monitor := (s.monitor.call c).1
      nextProxy := s.nextProxy + 1
      calls := s.calls ++ [c]
      view := s.view ++ [(object, s.nextProxy)] }
  | .globalRemove object =>
    let c := Callback.globalRemove object.id
    { s with
      toClient := rest
      monitor := (s.monitor.call c).1
      calls := s.calls ++ [c]
      view := s.view.filter fun entry => entry.1 ≠ object
      deleted := s.deleted ++ [object] }
  | .info proxy report =>
    match s.monitor.proxyId proxy with
    | none => { s with toClient := rest }
    | some id =>
      { s with
        toClient := rest
        monitor := (s.monitor.call (report.callback id)).1
        calls := s.calls ++ [report.callback id] }
  | .done id seq => { s with toClient := rest, sync := s.sync.onCoreDone id seq }

def next (seqs : SyncSeqs) (s : Handshake) : HandshakeStep → Option Handshake
  | .handle report => s.handle seqs report
  | .add object =>
    if object.serial = s.nextSerial ∧ ∀ other ∈ s.objects, other.id ≠ object.id then
      some { s with
        objects := s.objects ++ [object]
        nextSerial := s.nextSerial + 1
        toClient := s.toClient ++ if s.registered then [.global object] else [] }
    else none
  | .remove object =>
    if object ∈ s.objects then
      some { s with
        objects := s.objects.filter fun other => other ≠ object
        toClient := s.toClient ++ if s.registered then [.globalRemove object] else [] }
    else none
  | .receive =>
    match s.toClient with
    | [] => none
    | event :: rest => if s.stage = .settled then none else some (s.receive rest event)
  | .nextRound =>
    if s.stage = .first ∧ s.sync.syncDone then
      some { s with
        stage := .second
        sync := ⟨false, seqs.second⟩
        toServer := s.toServer ++ [.sync seqs.second]
        bound := s.nextProxy }
    else none
  | .leave =>
    if s.stage = .second ∧ s.sync.syncDone then some { s with stage := .settled } else none

end Handshake

end PwDart
