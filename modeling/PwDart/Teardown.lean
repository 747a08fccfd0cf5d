import PwDart.CommandLoop
import PwDart.ObjectTrace
import PwDart.RegistryCalls

namespace PwDart

open ObjectTrace

inductive PwKind
  | loop
  | context
  | core
  | registry
  | proxy
  | link
  | source
deriving DecidableEq

/-- An object PipeWire has made for the client: `proxy` is one from `pw_registry_bind`, `link` one from
`pw_core_create_object`. The hook that is allocated for it goes by the same name. -/
structure PwObject where
  kind : PwKind
  number : Nat
deriving DecidableEq

abbrev PwCall : Type := Call PwObject PwObject

/-- The order in which objects have to go. -/
def PwKind.goesBefore : PwKind → PwKind → Bool
  | proxy, registry => true
  | proxy, core => true
  | proxy, context => true
  | proxy, loop => true
  | registry, core => true
  | registry, context => true
  | registry, loop => true
  | core, context => true
  | core, loop => true
  | context, loop => true
  | source, loop => true
  | _, _ => false

def goesBefore (p o : PwObject) : Bool := p.kind.goesBefore o.kind

/-- `settling` is `connect` in its rounds, `disconnecting` is `disconnect` before the loop thread is
joined. -/
inductive ClientStage
  | idle
  | settling
  | connected
  | disconnecting
  | destroyed
deriving DecidableEq

/-- The client's pointers, by the numbers of the objects, and the calls it has made. `coreListener` and
`registryListener` are the hooks of `PwDartClientImpl` and `RegistryMonitor`. -/
structure TracedClient where
  stage : ClientStage := .idle
  connected : Bool := false
  loop : Option Nat := none
  context : Option Nat := none
  core : Option Nat := none
  coreListener : Option Nat := none
  registryPw : Option Nat := none
  registryListener : Option Nat := none
  monitor : Option RegistryMonitor := none
  loopEventSource : Option Nat := none
  next : Nat := 0
  trace : List PwCall := []

/-- Which of the constructors in `connect` return something. -/
structure ConnectAnswers where
  mainLoopNew : Bool
  contextNew : Bool
  contextConnect : Bool
  getRegistry : Bool
  addEvent : Bool

/-- What `create_link` is given by `pw_properties_new` and `pw_core_create_object`. -/
inductive LinkAnswer
  | noProperties
  | noProxy
  | proxy
deriving DecidableEq

inductive TracedStep
  | connect (answers : ConnectAnswers)
  | sync
  | iterate
  | settled
  | callback (c : Callback)
  | command (cmd : Command) (answer : LinkAnswer)
  | disconnect
  | teardown
  | destruct

/-- The types of object that `on_global` binds. -/
def bindsType (type : Option String) : Bool :=
  type = some interfaceNode || type = some interfacePort || type = some interfaceLink || type = some interfaceDevice

/-- `~ProxyData`, and the release of its hook after the destructor's body. -/
def ProxyData.destroyCalls (data : ProxyData) : List PwCall :=
  match data.proxy with
  | none => []
  | some p =>
    (if data.listener then [.hookRemove ⟨.proxy, p⟩] else []) ++ [.destroy ⟨.proxy, p⟩] ++
      if data.listener then [.freeHook ⟨.proxy, p⟩] else []

/-- `pw_registry_bind`, and the listener when it returns a proxy. -/
def bindCalls (registry : Nat) : Option PwProxy → List PwCall
  | none => [.use ⟨.registry, registry⟩]
  | some p => [.create ⟨.proxy, p⟩ [⟨.registry, registry⟩], .addListener ⟨.proxy, p⟩ ⟨.proxy, p⟩]

namespace RegistryMonitor

/-- After the bind the new `ProxyData` takes the place of the old one of the id, or is unwound by an
exception. -/
def globalCalls (m : RegistryMonitor) (registry : Nat) (id : UInt32) (type : Option String) (props : Option SpaDict)
    (bound : Option PwProxy) : List PwCall :=
  if bindsType type then
    bindCalls registry bound ++
      if (m.onGlobal id type props bound).2 = none then m.proxies[id]?.toList.flatMap ProxyData.destroyCalls
      else (newProxyData id "" bound).destroyCalls
  else []

def globalRemoveCalls (m : RegistryMonitor) (id : UInt32) : List PwCall :=
  if (m.idTypes[id]?).isSome then m.proxies[id]?.toList.flatMap ProxyData.destroyCalls else []

end RegistryMonitor

namespace TracedClient

def emit (s : TracedClient) (calls : List PwCall) : TracedClient := { s with trace := s.trace ++ calls }

/-- A pointer as an argument. -/
def object (kind : PwKind) (pointer : Option Nat) : List PwObject := pointer.toList.map fun n => ⟨kind, n⟩

def useAll (s : TracedClient) (objects : List PwObject) : TracedClient := s.emit (objects.map Call.use)

def newLoop (s : TracedClient) : TracedClient :=
  { s.emit [.create ⟨.loop, s.next⟩ []] with loop := some s.next, next := s.next + 1 }

def newContext (s : TracedClient) : TracedClient :=
  { s.emit [.create ⟨.context, s.next⟩ (object .loop s.loop)] with context := some s.next, next := s.next + 1 }

def newCore (s : TracedClient) : TracedClient :=
  { s.emit [.create ⟨.core, s.next⟩ (object .context s.context)] with core := some s.next, next := s.next + 1 }

/-- The new hook takes the place of an old one, which is freed. -/
def newCoreListener (s : TracedClient) : TracedClient :=
  { s.emit ((object .core s.coreListener).map Call.freeHook ++
      (object .core s.core).map fun core => .addListener core core) with coreListener := s.core }

def newRegistry (s : TracedClient) : TracedClient :=
  { s.emit [.create ⟨.registry, s.next⟩ (object .core s.core)] with registryPw := some s.next, next := s.next + 1 }

def newMonitor (s : TracedClient) : TracedClient :=
  { s.emit ((object .registry s.registryPw).map fun registry => .addListener registry registry) with
    monitor := some {}
    registryListener := s.registryPw }

def newSource (s : TracedClient) (made : Bool) : TracedClient :=
  if made then
    { s.emit [.create ⟨.source, s.next⟩ (object .loop s.loop)] with
      loopEventSource := some s.next
      next := s.next + 1 }
  else { s.useAll (object .loop s.loop) with loopEventSource := none }

def dropLoop (s : TracedClient) : TracedClient :=
  { s.emit ((object .loop s.loop).map Call.destroy) with loop := none }

def dropContext (s : TracedClient) : TracedClient :=
  { s.emit ((object .context s.context).map Call.destroy) with context := none }

def dropCore (s : TracedClient) : TracedClient :=
  { s.emit ((object .core s.core).map Call.destroy) with core := none }

def dropCoreListener (s : TracedClient) : TracedClient :=
  { s.emit ((object .core s.coreListener).flatMap fun h => [.hookRemove h, .freeHook h]) with coreListener := none }

def dropRegistry (s : TracedClient) : TracedClient :=
  { s.emit ((object .registry s.registryPw).map Call.destroy) with registryPw := none }

/-- `~RegistryMonitor`: the proxies, then its own hook. -/
def dropMonitor (s : TracedClient) : TracedClient :=
  match s.monitor with
  | none => s
  | some m =>
    { s.emit (m.proxies.toList.flatMap (fun entry => entry.2.destroyCalls) ++
        (object .registry s.registryListener).flatMap fun h => [.hookRemove h, .freeHook h]) with
      monitor := none
      registryListener := none }

def dropSource (s : TracedClient) : TracedClient :=
  match s.loopEventSource, s.loop with
  | some n, some loop => { s.emit [.use ⟨.loop, loop⟩, .destroy ⟨.source, n⟩] with loopEventSource := none }
  | _, _ => s

/-- The exits of `connect` without a context, a core and a registry. -/
def failContext (s : TracedClient) : TracedClient :=
  { s.useAll (object .loop s.loop) with context := none }.dropLoop

def failCore (s : TracedClient) : TracedClient :=
  { s.useAll (object .context s.context) with core := none }.dropContext.dropLoop

def failRegistry (s : TracedClient) : TracedClient :=
  { s.useAll (object .core s.core) with registryPw := none }.dropCore.dropContext.dropLoop

/-- `connect` up to its rounds. -/
def connect (s : TracedClient) (answers : ConnectAnswers) : TracedClient :=
  if s.connected then s
  else if !answers.mainLoopNew then { s with loop := none }
  else if !answers.contextNew then s.newLoop.failContext
  else if !answers.contextConnect then s.newLoop.newContext.failCore
  else if !answers.getRegistry then s.newLoop.newContext.newCore.newCoreListener.failRegistry
  else
    { s.newLoop.newContext.newCore.newCoreListener.newRegistry.newMonitor.newSource answers.addEvent with
      stage := .settling }

/-- A registry callback or the info callback of a proxy; a bind gives a new proxy or none. -/
def callback (s : TracedClient) (c : Callback) : Option TracedClient :=
  match s.monitor, s.registryPw with
  | some m, some registry =>
    match c with
    | .global id type props bound =>
      if bound = none ∨ bound = some s.next then
        some { s.emit (m.globalCalls registry id type props bound) with
          monitor := some (m.call (.global id type props bound)).1
          next := s.next + 1 }
      else none
    | .globalRemove id =>
      some { s.emit (m.globalRemoveCalls id) with monitor := some (m.call (.globalRemove id)).1 }
    | c => some { s with monitor := some (m.call c).1 }
  | _, _ => none

/-- `process_command` as far as it calls PipeWire. The link manager keeps nothing of the proxy it gets. -/
def command (s : TracedClient) (answer : LinkAnswer) : Command → TracedClient
  | .createLink _ _ _ =>
    if s.connected then
      match s.core, answer with
      | some core, .noProxy => s.emit [.use ⟨.core, core⟩]
      | some core, .proxy =>
        { s.emit [.create ⟨.link, s.next⟩ [⟨.core, core⟩], .use ⟨.link, s.next⟩] with next := s.next + 1 }
      | _, _ => s
    else s
  | .destroyLink _ _ => if s.connected then s.useAll (object .registry s.registryPw) else s
  | .disconnect => s.useAll (object .loop s.loop)
  | .setParam _ _ _ => s
  | .enumParams _ _ => s
  | .getSnapshot _ => s

def teardown (s : TracedClient) : TracedClient :=
  s.dropMonitor.dropSource.dropRegistry.dropCoreListener.dropCore.dropContext.dropLoop

/-- The end of `~PwDartClientImpl`, whose body is a `disconnect`. -/
def destruct (s : TracedClient) : TracedClient :=
  { s.dropMonitor.emit ((object .core s.coreListener).map Call.freeHook) with coreListener := none }

/-- The loop thread runs from `settled` to `teardown`. -/
def take (s : TracedClient) : TracedStep → Option TracedClient
  | .connect answers =>
    if s.stage = .idle ∨ s.stage = .connected then some (s.connect answers) else none
  | .sync => if s.stage = .settling then some (s.useAll (object .core s.core)) else none
  | .iterate => if s.stage = .settling then some (s.useAll (object .loop s.loop)) else none
  | .settled =>
    if s.stage = .settling then
      some { s.useAll (object .loop s.loop) with connected := true, stage := .connected }
    else none
  | .callback c => s.callback c
  | .command cmd answer =>
    if s.stage = .connected ∨ s.stage = .disconnecting then some (s.command answer cmd) else none
  | .disconnect =>
    if s.stage = .idle then some s
    else if s.stage = .connected then
      some { s.useAll (object .loop s.loop) with connected := false, stage := .disconnecting }
    else none
  | .teardown => if s.stage = .disconnecting then some { s.teardown with stage := .idle } else none
  | .destruct => if s.stage = .idle then some { s.destruct with stage := .destroyed } else none

end TracedClient

end PwDart
