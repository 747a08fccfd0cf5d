import PwDart.LabelledRun
import PwDart.Replica
import PwDart.RegistryEffects
import PwDart.WireEncoding

namespace PwDart

open Json LabelledRun

inductive DartObject
  | node (node : PwNode)
  | port (port : PwPort)
  | link (link : PwLink)
  | device (device : PwDevice)

def ObjectInfo.image : ObjectInfo → DartObject
  | node info => .node info.image
  | port info => .port info.image
  | link info => .link info.image
  | device info => .device info.image

/-- The four maps of the graph as one. -/
def PwGraph.entry (g : PwGraph) (kind : Kind) (id : Int) : Option DartObject :=
  match kind with
  | .node => (g.nodes.lookup id).map .node
  | .port => (g.ports.lookup id).map .port
  | .link => (g.links.lookup id).map .link
  | .device => (g.devices.lookup id).map .device

/-- The monitor, the messages waiting on the receive port and the graph of a client, with what the
native maps have held so far. A message is what `jsonDecode` reads from its text. -/
structure Mirror where
  monitor : RegistryMonitor := {}
  port : List Value := []
  graph : Option PwGraph := none
  trace : Replica.State (Kind × UInt32) (Option ObjectInfo) := Replica.State.start none

inductive MirrorLabel
  | callback (c : Callback)
  | connect
  | refreshGraph
  | deliver

namespace Mirror

def callback (s : Mirror) (c : Callback) : Mirror :=
  { s with
    monitor := (s.monitor.call c).1
    port := s.port ++ (s.monitor.call c).2.map fun event => .obj event.toJson
    trace :=
      match s.monitor.target c with
      | none => s.trace
      | some key =>
        if (s.monitor.call c).2 = [] then s.trace.write key ((s.monitor.call c).1.record key.1 key.2)
        else s.trace.publish key ((s.monitor.call c).1.record key.1 key.2) }

/-- Storing `getGraphSnapshot()`. -/
def storeSnapshot (s : Mirror) : DartResult Mirror := do
  let graph ← PwGraph.fromJsonValue (.obj s.monitor.getSnapshot.toJson)
  return { s with graph := some graph, trace := s.trace.snapshot }

/-- The listener of `_startListening` on one message. -/
def listen (g : PwGraph) (message : Value) : PwGraph :=
  match deserializeEventValue message with
  | some event => g.applyEvent event
  | none => g

def next (s : Mirror) : MirrorLabel → Option Mirror
  | .callback c => if s.monitor.raised c = none then some (s.callback c) else none
  | .connect => if s.graph.isNone then s.storeSnapshot.toOption else none
  | .refreshGraph => if s.graph.isSome then s.storeSnapshot.toOption else none
  | .deliver =>
    match s.graph, s.port with
    | some g, message :: rest =>
      some { s with port := rest, graph := some (listen g message), trace := s.trace.deliver }
    | _, _ => none

def Step : Mirror → MirrorLabel → Mirror → Prop := Takes next

theorem step_cases {s t : Mirror} {l : MirrorLabel} (step : Step s l t) :
    (∃ c, l = .callback c ∧ s.monitor.raised c = none ∧ t = s.callback c) ∨
      ((l = .connect ∧ s.graph = none ∨ l = .refreshGraph ∧ s.graph.isSome) ∧
        s.storeSnapshot = .ok t) ∨
      ∃ g message rest, l = .deliver ∧ s.graph = some g ∧ s.port = message :: rest ∧
        t = { s with port := rest, graph := some (listen g message), trace := s.trace.deliver } := by
  have stored {r : DartResult Mirror} (h : r.toOption = some t) : r = .ok t := by
    cases r with
    | error e => simp [Except.toOption] at h
    | ok u => exact congrArg Except.ok (Option.some.inj h)
  cases l with
  | callback c =>
    obtain ⟨returns, same⟩ := Option.ite_none_right_eq_some.mp step
    exact Or.inl ⟨c, rfl, returns, (Option.some.inj same).symm⟩
  | connect =>
    obtain ⟨closed, h⟩ := Option.ite_none_right_eq_some.mp step
    exact Or.inr (Or.inl ⟨Or.inl ⟨rfl, by simpa using closed⟩, stored h⟩)
  | refreshGraph =>
    obtain ⟨opened, h⟩ := Option.ite_none_right_eq_some.mp step
    exact Or.inr (Or.inl ⟨Or.inr ⟨rfl, opened⟩, stored h⟩)
  | deliver =>
    simp only [Step, Takes, next] at step
    split at step
    next g message rest opened first =>
      exact Or.inr (Or.inr ⟨g, message, rest, rfl, opened, first, (Option.some.inj step).symm⟩)
    next => simp at step

end Mirror

theorem distinct_dartIds {ρ : Type} (records : IdMap ρ) :
    (records.toList.map fun entry => dartId entry.1).Nodup := by
  rw [List.Nodup, List.pairwise_map]
  refine records.distinct_keys_toList.imp fun {a b} different same => ?_
  rw [dartId_inj.mp same] at different
  exact different Std.ReflCmp.compare_self

/-- A list of records keyed by their own ids is the map they came from. -/
theorem lookup_ofEntries_toList {ρ α : Type} {records : IdMap ρ} {idOf : ρ → UInt32}
    (keyed : ∀ id r, records[id]? = some r → idOf r = id) (image : ρ → α) :
    (∀ id, (LinkedMap.ofEntries ((records.toList.map Prod.snd).map fun r =>
        (dartId (idOf r), image r))).lookup (dartId id) = records[id]?.map image) ∧
      ∀ i, (∀ id, dartId id ≠ i) → (LinkedMap.ofEntries ((records.toList.map Prod.snd).map fun r =>
        (dartId (idOf r), image r))).lookup i = none := by
  have entries : ((records.toList.map Prod.snd).map fun r => (dartId (idOf r), image r)) =
      records.toList.map fun entry => (dartId entry.1, image entry.2) := by
    rw [List.map_map]
    refine List.map_congr_left fun entry hentry => ?_
    have := keyed entry.1 entry.2 (Std.ExtTreeMap.mem_toList_iff_getElem?_eq_some.mp hentry)
    simp [this]
  rw [entries]
  refine ⟨fun id => ?_, fun i foreign => LinkedMap.lookup_ofEntries_of_notMem ?_⟩
  · cases found : records[id]? with
    | none =>
      refine LinkedMap.lookup_ofEntries_of_notMem fun hmem => ?_
      simp only [List.map_map, List.mem_map, Function.comp_apply] at hmem
      obtain ⟨entry, hentry, same⟩ := hmem
      have := Std.ExtTreeMap.mem_toList_iff_getElem?_eq_some.mp hentry
      rw [dartId_inj.mp same, found] at this
      cases this
    | some r =>
      refine LinkedMap.lookup_ofEntries_of_mem ?_ ?_
      · simpa [Function.comp_def] using distinct_dartIds records
      · exact List.mem_map.mpr ⟨(id, r), Std.ExtTreeMap.mem_toList_iff_getElem?_eq_some.mpr found, rfl⟩
  · intro hmem
    simp only [List.map_map, List.mem_map, Function.comp_apply] at hmem
    obtain ⟨entry, _, same⟩ := hmem
    exact foreign entry.1 same

theorem entry_snapshot {m : RegistryMonitor} (wf : m.WellFormed) {g : PwGraph}
    (decoded : PwGraph.fromJsonValue (.obj m.getSnapshot.toJson) = .ok g) (kind : Kind) :
    (∀ id, g.entry kind (dartId id) = (m.record kind id).map ObjectInfo.image) ∧
      ∀ i, (∀ id, dartId id ≠ i) → g.entry kind i = none := by
  rw [PwGraph.fromJsonValue_toJson] at decoded
  cases Except.ok.inj decoded
  cases kind with
  | node =>
    have keyed (id : UInt32) (r : NodeInfo) (h : m.nodes[id]? = some r) : r.id = id :=
      wf.keyed .node id (.node r) (by simp [RegistryMonitor.record, h])
    obtain ⟨here, foreign⟩ := lookup_ofEntries_toList keyed NodeInfo.image
    refine ⟨fun id => (congrArg (Option.map DartObject.node) (here id)).trans ?_,
      fun i hi => congrArg (Option.map DartObject.node) (foreign i hi)⟩
    simp only [RegistryMonitor.record, Option.map_map]
    rfl
  | port =>
    have keyed (id : UInt32) (r : PortInfo) (h : m.ports[id]? = some r) : r.id = id :=
      wf.keyed .port id (.port r) (by simp [RegistryMonitor.record, h])
    obtain ⟨here, foreign⟩ := lookup_ofEntries_toList keyed PortInfo.image
    refine ⟨fun id => (congrArg (Option.map DartObject.port) (here id)).trans ?_,
      fun i hi => congrArg (Option.map DartObject.port) (foreign i hi)⟩
    simp only [RegistryMonitor.record, Option.map_map]
    rfl
  | link =>
    have keyed (id : UInt32) (r : LinkInfo) (h : m.links[id]? = some r) : r.id = id :=
      wf.keyed .link id (.link r) (by simp [RegistryMonitor.record, h])
    obtain ⟨here, foreign⟩ := lookup_ofEntries_toList keyed LinkInfo.image
    refine ⟨fun id => (congrArg (Option.map DartObject.link) (here id)).trans ?_,
      fun i hi => congrArg (Option.map DartObject.link) (foreign i hi)⟩
    simp only [RegistryMonitor.record, Option.map_map]
    rfl
  | device =>
    have keyed (id : UInt32) (r : DeviceInfo) (h : m.devices[id]? = some r) : r.id = id :=
      wf.keyed .device id (.device r) (by simp [RegistryMonitor.record, h])
    obtain ⟨here, foreign⟩ := lookup_ofEntries_toList keyed DeviceInfo.image
    refine ⟨fun id => (congrArg (Option.map DartObject.device) (here id)).trans ?_,
      fun i hi => congrArg (Option.map DartObject.device) (foreign i hi)⟩
    simp only [RegistryMonitor.record, Option.map_map]
    rfl

/-- The object an event is about. -/
def PwGraphEvent.touched : PwGraphEvent → Option (Kind × Int)
  | nodeAdded node | nodeInfoChanged node => some (.node, node.id)
  | nodeRemoved nodeId => some (.node, nodeId)
  | portAdded port => some (.port, port.id)
  | portRemoved portId => some (.port, portId)
  | linkAdded link | linkStateChanged link => some (.link, link.id)
  | linkRemoved linkId => some (.link, linkId)
  | paramChanged _ _ _ => none

/-- What the event leaves of the object it is about. -/
def PwGraphEvent.object : PwGraphEvent → Option DartObject
  | nodeAdded node | nodeInfoChanged node => some (.node node)
  | portAdded port => some (.port port)
  | linkAdded link | linkStateChanged link => some (.link link)
  | nodeRemoved _ | portRemoved _ | linkRemoved _ | paramChanged _ _ _ => none

theorem PwGraph.entry_apply (g : PwGraph) (event : PwGraphEvent) (kind : Kind) (id : Int) :
    (g.applyEvent event).entry kind id =
      if event.touched = some (kind, id) then event.object else g.entry kind id := by
  cases event
  case paramChanged => rfl
  all_goals
    cases kind
    all_goals
      simp only [PwGraphEvent.touched, PwGraphEvent.object, applyEvent, entry, withNode, withoutNode, withPort,
        withoutPort, withLink, withoutLink, LinkedMap.lookup_put, LinkedMap.lookup_erase, Option.some.injEq,
        Prod.mk.injEq, reduceCtorEq, false_and, true_and, eq_comm (a := id)]
      split <;> first | rfl | contradiction

/-- A delivered event changes the entry it is about and no other. -/
theorem entry_applyEvent {event : GraphEvent} {kind : Kind} {id : UInt32} {v : Option ObjectInfo}
    (news : event.news = some ((kind, id), v)) (g : PwGraph) (k : Kind) (i : Int) :
    (g.applyEvent event.image).entry k i =
      if k = kind ∧ i = dartId id then v.map ObjectInfo.image else g.entry k i := by
  have about : event.image.touched = some (kind, dartId id) ∧ event.image.object = v.map ObjectInfo.image := by
    cases event with
    | paramChanged => cases news
    | nodeAdded | nodeRemoved | nodeInfoChanged | portAdded | portRemoved | linkAdded | linkRemoved |
        linkStateChanged =>
      cases news
      exact ⟨rfl, rfl⟩
  have same : some (kind, dartId id) = some (k, i) ↔ k = kind ∧ i = dartId id := by
    simp [eq_comm]
  rw [PwGraph.entry_apply, about.1, about.2]
  simp only [same]

end PwDart
