import PwDart.MirrorFaithful

namespace PwDart

open LabelledRun

/-- Whether an info callback has run for the entry since its id was last announced or removed. -/
def informed (kind : Kind) (id : UInt32) (calls : List Callback) : Bool :=
  calls.foldl (fun known c =>
    if c.infoTarget = some (kind, id) then true
    else if c.lifetimeOf = some id then false
    else known) false

def callbacksOf (ls : List MirrorLabel) : List Callback :=
  ls.filterMap fun
    | .callback c => some c
    | _ => none

theorem informed_append_singleton (kind : Kind) (id : UInt32) (calls : List Callback) (c : Callback) :
    informed kind id (calls ++ [c]) =
      if c.infoTarget = some (kind, id) then true
      else if c.lifetimeOf = some id then false
      else informed kind id calls := by
  simp [informed]

namespace Mirror

/-- Entries that are there and informed hold their last published value. -/
def Informed (calls : List Callback) (s : Mirror) : Prop :=
  ∀ kind id, kind ≠ .device → informed kind id calls → (s.monitor.record kind id).isSome →
    s.trace.published (kind, id) = s.trace.latest (kind, id)

theorem informed_callback {calls : List Callback} {s : Mirror} (h : Faithful s)
    (known : Informed calls s) (c : Callback) : Informed (calls ++ [c]) (s.callback c) := by
  intro kind id watched now present
  rw [informed_append_singleton] at now
  change ((s.monitor.call c).1.record kind id).isSome at present
  rcases RegistryMonitor.call_effect h.wellFormed c with
    ⟨free, posted, same⟩ | ⟨k, i, key, others, effect⟩
  · have trace : (s.callback c).trace = s.trace := by simp [callback, free]
    rw [trace]
    have notInfo : c.infoTarget ≠ some (kind, id) := by
      intro about
      rw [RegistryMonitor.target_of_info about present] at free
      cases free
    rw [if_neg notInfo] at now
    split at now
    next => simp at now
    next => exact known kind id watched now (by rwa [same] at present)
  · by_cases here : kind = k ∧ id = i
    · obtain ⟨rfl, rfl⟩ := here
      rcases effect with ⟨_, device | ⟨notInfo, _⟩⟩ | ⟨event, posted, _⟩
      · exact absurd device watched
      · rw [notInfo, if_neg (by simp)] at now
        rw [if_pos ((RegistryMonitor.target_about key).resolve_left (by simp [notInfo]))] at now
        simp at now
      · have trace : (s.callback c).trace =
            s.trace.publish (kind, id) ((s.monitor.call c).1.record kind id) := by
          simp [callback, key, posted]
        simp [trace, Replica.State.publish, Replica.State.write, Replica.State.latest]
    · have notInfo : c.infoTarget ≠ some (kind, id) := by
        intro about
        rw [RegistryMonitor.target_of_info about present] at key
        exact here (by simpa using key)
      rw [if_neg notInfo] at now
      split at now
      next => simp at now
      next =>
        have before := known kind id watched now (by rwa [others kind id here] at present)
        have apart : ¬((kind, id) = (k, i)) := fun same => here (by simpa using same)
        rcases effect with ⟨posted, _⟩ | ⟨event, posted, _⟩
        · simpa [callback, key, posted, Replica.State.write, Replica.State.latest, here] using before
        · simpa [callback, key, posted, Replica.State.publish, Replica.State.write,
            Replica.State.latest, here] using before

theorem informed_run {ls : List MirrorLabel} {s : Mirror} (run : Run Step {} ls s) :
    Informed (callbacksOf ls) s := by
  induction run with
  | start => intro kind id _ now; simp [callbacksOf, informed] at now
  | @next ls l t u run step ih =>
    rcases step_cases step with ⟨c, rfl, _, rfl⟩ | ⟨hl, stored⟩ | ⟨g, message, rest, rfl, _, _, rfl⟩
    · have calls : callbacksOf (ls ++ [.callback c]) = callbacksOf ls ++ [c] := by simp [callbacksOf]
      rw [calls]
      exact informed_callback (faithful_run run) ih c
    · obtain ⟨g, _, rfl⟩ := storeSnapshot_ok stored
      have calls : callbacksOf (ls ++ [l]) = callbacksOf ls := by
        rcases hl with ⟨rfl, _⟩ | ⟨rfl, _⟩ <;> simp [callbacksOf]
      rw [calls]
      exact ih
    · have calls : callbacksOf (ls ++ [.deliver]) = callbacksOf ls := by simp [callbacksOf]
      rw [calls]
      intro kind id watched now present
      simp only [Replica.State.deliver]
      split
      next => exact ih kind id watched now present
      next => exact ih kind id watched now present

/-- Nothing the graph shows of a node, port or link is behind what was last published of it. -/
theorem entry_of_idle {ls : List MirrorLabel} {s : Mirror} {g : PwGraph} (run : Run Step {} ls s)
    (opened : s.graph = some g) (delivered : s.port = []) {kind : Kind} (watched : kind ≠ .device)
    (id : UInt32) :
    (s.monitor.record kind id = none → g.entry kind (dartId id) = none) ∧
      (informed kind id (callbacksOf ls) → (s.monitor.record kind id).isSome →
        g.entry kind (dartId id) = (s.monitor.record kind id).map ObjectInfo.image) := by
  have h := faithful_run run
  have idle : s.trace.queue = [] := by
    have ported := h.ported
    rw [delivered] at ported
    exact List.forall₂_nil_left_iff.mp ported
  have caughtUp := Replica.published_le_shown h.consistent idle (kind, id)
  have bound := h.consistent.shown_lt (kind, id)
  obtain ⟨v, held, same⟩ := h.shown g opened kind id
  have latest (atLast : s.trace.shown (kind, id) = s.trace.latest (kind, id)) :
      g.entry kind (dartId id) = (s.monitor.record kind id).map ObjectInfo.image := by
    rw [atLast, h.current, Option.some.injEq] at held
    rw [same, held]
  constructor
  · intro gone
    rw [latest, gone, Option.map_none]
    have notLater : ¬s.trace.published (kind, id) < s.trace.latest (kind, id) := by
      intro later
      have := h.kept kind id _ _ watched later (h.current kind id)
      simp [gone] at this
    simp only [Replica.State.latest] at notLater ⊢
    omega
  · intro now present
    refine latest ?_
    have published := informed_run run kind id watched now present
    simp only [Replica.State.latest] at published ⊢
    omega

theorem entry_isSome_of_idle {ls : List MirrorLabel} {s : Mirror} {g : PwGraph}
    (run : Run Step {} ls s) (opened : s.graph = some g) (delivered : s.port = []) {kind : Kind}
    (watched : kind ≠ .device) {i : Int} (shown : (g.entry kind i).isSome) :
    ∃ id, i = dartId id ∧ (s.monitor.record kind id).isSome := by
  have native : ∃ id, dartId id = i := by
    by_contra none
    rw [(faithful_run run).foreign g opened kind i fun id hid => none ⟨id, hid⟩] at shown
    simp at shown
  obtain ⟨id, rfl⟩ := native
  refine ⟨id, rfl, Option.isSome_iff_ne_none.mpr fun gone => ?_⟩
  rw [(entry_of_idle run opened delivered watched id).1 gone] at shown
  simp at shown

/-- Once every posted event has been delivered, the graph of a connected client holds no node, port
or link that the native maps lack, and the image of every record an info callback has filled. -/
theorem graph_converges {ls : List MirrorLabel} {s : Mirror} {g : PwGraph} (run : Run Step {} ls s)
    (opened : s.graph = some g) (delivered : s.port = []) :
    ((∀ i, (g.nodes.lookup i).isSome → ∃ id, i = dartId id ∧ (s.monitor.nodes[id]?).isSome) ∧
      (∀ i, (g.ports.lookup i).isSome → ∃ id, i = dartId id ∧ (s.monitor.ports[id]?).isSome) ∧
      ∀ i, (g.links.lookup i).isSome → ∃ id, i = dartId id ∧ (s.monitor.links[id]?).isSome) ∧
    (∀ id node, s.monitor.nodes[id]? = some node → informed .node id (callbacksOf ls) →
      g.nodes.lookup (dartId id) = some node.image) ∧
    (∀ id port, s.monitor.ports[id]? = some port → informed .port id (callbacksOf ls) →
      g.ports.lookup (dartId id) = some port.image) ∧
    ∀ id link, s.monitor.links[id]? = some link → informed .link id (callbacksOf ls) →
      g.links.lookup (dartId id) = some link.image := by
  have known (kind : Kind) (watched : kind ≠ .device) {i : Int} (shown : (g.entry kind i).isSome) :=
    entry_isSome_of_idle run opened delivered watched shown
  have image (kind : Kind) (watched : kind ≠ .device) {id : UInt32} (object : ObjectInfo)
      (held : s.monitor.record kind id = some object) (now : informed kind id (callbacksOf ls)) :
      g.entry kind (dartId id) = some object.image := by
    rw [(entry_of_idle run opened delivered watched id).2 now (by simp [held]), held, Option.map_some]
  refine ⟨⟨fun i hi => ?_, fun i hi => ?_, fun i hi => ?_⟩, fun id node held now => ?_,
    fun id port held now => ?_, fun id link held now => ?_⟩
  · simpa [RegistryMonitor.record] using known .node (by simp) (by simpa [PwGraph.entry] using hi)
  · simpa [RegistryMonitor.record] using known .port (by simp) (by simpa [PwGraph.entry] using hi)
  · simpa [RegistryMonitor.record] using known .link (by simp) (by simpa [PwGraph.entry] using hi)
  · simpa [PwGraph.entry, ObjectInfo.image] using
      image .node (by simp) (.node node) (by simp [RegistryMonitor.record, held]) now
  · simpa [PwGraph.entry, ObjectInfo.image] using
      image .port (by simp) (.port port) (by simp [RegistryMonitor.record, held]) now
  · simpa [PwGraph.entry, ObjectInfo.image] using
      image .link (by simp) (.link link) (by simp [RegistryMonitor.record, held]) now

/-- A node is removed after a refresh, and another one gets its id. -/
def reusedIdRun : List MirrorLabel :=
  [.connect, .callback (.global 7 (some interfaceNode) none none),
    .callback (.nodeInfo 7 (some ⟨0, PW_NODE_STATE_RUNNING, none⟩)), .refreshGraph, .callback (.globalRemove 7),
    .callback (.global 7 (some interfaceNode) (some [⟨some "node.name", some "mic"⟩]) none),
    .callback (.nodeInfo 7 (some ⟨0, PW_NODE_STATE_SUSPENDED, none⟩)), .deliver, .deliver, .deliver]

theorem graph_converges_reusedId : ∃ s g node, Run Step {} reusedIdRun s ∧ s.graph = some g ∧
    s.monitor.nodes[(7 : UInt32)]? = some node ∧ node.name = "mic" ∧ g.nodes.lookup 7 = some node.image := by
  have outcome : (reusedIdRun.foldlM next {}).map (fun s =>
      (s.port.isEmpty, s.graph.isSome, s.monitor.nodes[(7 : UInt32)]?.map NodeInfo.name)) =
        some (true, true, some "mic") := by decide
  obtain ⟨s, run, rest⟩ := Option.map_eq_some_iff.mp outcome
  simp only [Prod.mk.injEq, List.isEmpty_iff, Option.isSome_iff_exists, Option.map_eq_some_iff] at rest
  obtain ⟨delivered, ⟨g, opened⟩, node, found, named⟩ := rest
  have run : Run Step {} reusedIdRun s := run_takes_iff.mpr run
  exact ⟨s, g, node, run, opened, found, named, (graph_converges run opened delivered).2.1 7 node found (by decide)⟩

end Mirror

end PwDart
