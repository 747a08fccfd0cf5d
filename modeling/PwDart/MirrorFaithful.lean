import PwDart.Mirror

namespace PwDart

open Json LabelledRun

/-- A message tells what the map held at one position of the history of its key. -/
def Announces (trace : Replica.State (Kind × UInt32) (Option ObjectInfo)) (message : Value)
    (m : (Kind × UInt32) × Nat) : Prop :=
  ∃ (event : GraphEvent) (v : Option ObjectInfo), message = .obj event.toJson ∧
    event.news = some (m.1, v) ∧ (trace.history m.1)[m.2]? = some v

namespace Mirror

/-- What ties the client to the history: the maps hold its last values, every message and the graph
values of it, and an unpublished change of a node, port or link never takes it away. -/
structure Faithful (s : Mirror) : Prop where
  consistent : Replica.Consistent s.trace
  wellFormed : s.monitor.WellFormed
  current : ∀ kind id,
    (s.trace.history (kind, id))[s.trace.latest (kind, id)]? = some (s.monitor.record kind id)
  ported : List.Forall₂ (Announces s.trace) s.port s.trace.queue
  shown : ∀ g, s.graph = some g → ∀ kind id, ∃ v,
    (s.trace.history (kind, id))[s.trace.shown (kind, id)]? = some v ∧
      g.entry kind (dartId id) = v.map ObjectInfo.image
  foreign : ∀ g, s.graph = some g → ∀ kind i, (∀ id, dartId id ≠ i) → g.entry kind i = none
  kept : ∀ kind id n v, kind ≠ .device → s.trace.published (kind, id) < n →
    (s.trace.history (kind, id))[n]? = some v → v.isSome

theorem faithful_empty : Faithful {} where
  consistent := Replica.consistent_start none
  wellFormed := RegistryMonitor.wellFormed_empty
  current kind id := by
    cases kind <;> simp [Replica.State.start, Replica.State.latest, RegistryMonitor.record]
  ported := List.Forall₂.nil
  shown g h := by simp at h
  foreign g h := by simp at h
  kept kind id n v _ later held := by
    change 0 < n at later
    change [none][n]? = some v at held
    simp [Nat.ne_of_gt later] at held

theorem getElem?_history_write {κ ν : Type*} [DecidableEq κ] {s : Replica.State κ ν} {k j : κ}
    {v w : ν} {n : Nat} (held : (s.history j)[n]? = some w) :
    ((s.write k v).history j)[n]? = some w := by
  by_cases hj : j = k
  · subst hj
    obtain ⟨hn, _⟩ := List.getElem?_eq_some_iff.mp held
    simpa [Replica.State.write, List.getElem?_append_left hn] using held
  · simpa [Replica.State.write, hj] using held

theorem announces_write {trace : Replica.State (Kind × UInt32) (Option ObjectInfo)}
    {message : Value} {m : (Kind × UInt32) × Nat} (h : Announces trace message m)
    (key : Kind × UInt32) (v : Option ObjectInfo) : Announces (trace.write key v) message m := by
  obtain ⟨event, w, same, news, held⟩ := h
  exact ⟨event, w, same, news, getElem?_history_write held⟩

/-- The history of an entry ends with what the map holds after the write. -/
theorem current_write {s : Mirror} (h : Faithful s) {m : RegistryMonitor} {kind : Kind} {id : UInt32}
    (others : ∀ k i, ¬(k = kind ∧ i = id) → m.record k i = s.monitor.record k i) (k : Kind)
    (i : UInt32) :
    ((s.trace.write (kind, id) (m.record kind id)).history (k, i))[(s.trace.write (kind, id)
      (m.record kind id)).latest (k, i)]? = some (m.record k i) := by
  by_cases here : k = kind ∧ i = id
  · obtain ⟨rfl, rfl⟩ := here
    simp [Replica.State.write, Replica.State.latest]
  · rw [others k i here]
    simpa [Replica.State.write, Replica.State.latest, here] using h.current k i

theorem kept_write {s : Mirror} (h : Faithful s) {kind : Kind} {id : UInt32}
    {v : Option ObjectInfo} (stays : kind = .device ∨ v.isSome) {k : Kind} {i : UInt32} {n : Nat}
    {w : Option ObjectInfo} (watched : k ≠ .device) (later : s.trace.published (k, i) < n)
    (held : ((s.trace.write (kind, id) v).history (k, i))[n]? = some w) : w.isSome := by
  by_cases here : k = kind ∧ i = id
  · obtain ⟨rfl, rfl⟩ := here
    simp only [Replica.State.write, Function.update_self] at held
    rcases Nat.lt_or_ge n (s.trace.history (k, i)).length with hn | hn
    · rw [List.getElem?_append_left hn] at held
      exact h.kept k i n w watched later held
    · rw [List.getElem?_append_right hn, List.getElem?_singleton] at held
      split at held
      next => cases Option.some.inj held; exact stays.resolve_left watched
      next => simp at held
  · refine h.kept k i n w watched later ?_
    simpa [Replica.State.write, here] using held

theorem faithful_callback {s : Mirror} (h : Faithful s) (c : Callback) :
    Faithful (s.callback c) := by
  have wf := RegistryMonitor.wellFormed_call h.wellFormed c
  rcases RegistryMonitor.call_effect h.wellFormed c with
    ⟨free, posted, same⟩ | ⟨kind, id, key, others, ⟨posted, stays⟩ | ⟨event, posted, news⟩⟩
  · have trace : (s.callback c).trace = s.trace := by simp [callback, free]
    have port : (s.callback c).port = s.port := by simp [callback, posted]
    constructor
    · rw [trace]; exact h.consistent
    · exact wf
    · intro k i; rw [trace, h.current]; exact congrArg some (same k i).symm
    · rw [trace, port]; exact h.ported
    · rw [trace]; exact h.shown
    · exact h.foreign
    · rw [trace]; exact h.kept
  · have trace : (s.callback c).trace =
        s.trace.write (kind, id) ((s.monitor.call c).1.record kind id) := by simp [callback, key, posted]
    have port : (s.callback c).port = s.port := by simp [callback, posted]
    constructor
    · rw [trace]; exact Replica.consistent_write h.consistent _ _
    · exact wf
    · rw [trace]; exact current_write h others
    · rw [trace, port]; exact h.ported.imp fun _ _ told => announces_write told _ _
    · intro g opened k i
      obtain ⟨v, held, same⟩ := h.shown g opened k i
      rw [trace]
      exact ⟨v, getElem?_history_write held, same⟩
    · exact h.foreign
    · rw [trace]
      intro k i n v watched later held
      exact kept_write h (stays.imp_right And.right) watched later held
  · have trace : (s.callback c).trace =
        s.trace.publish (kind, id) ((s.monitor.call c).1.record kind id) := by
      simp [callback, key, posted]
    have port : (s.callback c).port = s.port ++ [.obj event.toJson] := by simp [callback, posted]
    have newest : ((s.trace.publish (kind, id) ((s.monitor.call c).1.record kind id)).history
        (kind, id))[(s.trace.history (kind, id)).length]? =
          some ((s.monitor.call c).1.record kind id) := by
      simp [Replica.State.publish, Replica.State.write]
    constructor
    · rw [trace]; exact Replica.consistent_publish h.consistent _ _
    · exact wf
    · rw [trace]; exact current_write h others
    · rw [trace, port]
      refine List.rel_append (h.ported.imp fun _ _ told => announces_write told _ _) ?_
      exact List.Forall₂.cons ⟨event, _, rfl, news, newest⟩ List.Forall₂.nil
    · intro g opened k i
      obtain ⟨v, held, same⟩ := h.shown g opened k i
      rw [trace]
      exact ⟨v, getElem?_history_write held, same⟩
    · exact h.foreign
    · rw [trace]
      intro k i n v watched later held
      by_cases here : k = kind ∧ i = id
      · obtain ⟨rfl, rfl⟩ := here
        obtain ⟨hn, _⟩ := List.getElem?_eq_some_iff.mp held
        simp [Replica.State.publish, Replica.State.write] at later hn
        omega
      · refine h.kept k i n v watched ?_ ?_
        · simpa [Replica.State.publish, here] using later
        · simpa [Replica.State.publish, Replica.State.write, here] using held

theorem storeSnapshot_ok {s t : Mirror} (stored : s.storeSnapshot = .ok t) :
    ∃ g, PwGraph.fromJsonValue (.obj s.monitor.getSnapshot.toJson) = .ok g ∧
      t = { s with graph := some g, trace := s.trace.snapshot } := by
  cases decoded : PwGraph.fromJsonValue (.obj s.monitor.getSnapshot.toJson) with
  | error e => simp [storeSnapshot, decoded, bind, Except.bind] at stored
  | ok g =>
    simp only [storeSnapshot, decoded, bind, Except.bind, pure, Except.pure, Except.ok.injEq] at stored
    exact ⟨g, rfl, stored.symm⟩

theorem faithful_storeSnapshot {s t : Mirror} (h : Faithful s) (stored : s.storeSnapshot = .ok t) :
    Faithful t := by
  obtain ⟨g, decoded, rfl⟩ := storeSnapshot_ok stored
  exact
    { consistent := Replica.consistent_snapshot h.consistent
      wellFormed := h.wellFormed
      current := h.current
      ported := h.ported
      shown := by
        intro g' opened kind id
        cases opened
        exact ⟨s.monitor.record kind id, h.current kind id,
          (entry_snapshot h.wellFormed decoded kind).1 id⟩
      foreign := by
        intro g' opened kind
        cases opened
        exact (entry_snapshot h.wellFormed decoded kind).2
      kept := h.kept }

/-- The first message on the port is the first position in the queue. -/
theorem deliver_first {s : Mirror} (h : Faithful s) {message : Value} {rest : List Value}
    (first : s.port = message :: rest) :
    ∃ key n queue, s.trace.queue = (key, n) :: queue ∧ Announces s.trace message (key, n) ∧
      List.Forall₂ (Announces s.trace) rest queue ∧
      s.trace.deliver = { s.trace with
        queue := queue, shown := Function.update s.trace.shown key n
        overtaken := s.trace.overtaken - 1 } := by
  have ported := h.ported
  rw [first] at ported
  cases hqueue : s.trace.queue with
  | nil => rw [hqueue] at ported; cases ported
  | cons m queue =>
    rw [hqueue] at ported
    obtain ⟨told, later⟩ := List.forall₂_cons.mp ported
    exact ⟨m.1, m.2, queue, rfl, told, later, by simp [Replica.State.deliver, hqueue]⟩

theorem faithful_deliver {s : Mirror} (h : Faithful s) {g : PwGraph} {message : Value}
    {rest : List Value} (opened : s.graph = some g) (first : s.port = message :: rest) :
    Faithful { s with port := rest, graph := some (listen g message), trace := s.trace.deliver } := by
  obtain ⟨key, n, queue, _, ⟨event, v, rfl, news, held⟩, later, trace⟩ := deliver_first h first
  have listened : listen g (.obj event.toJson) = g.applyEvent event.image := by
    simp [listen, deserializeEventValue_toJson]
  have consistent := Replica.consistent_deliver h.consistent
  rw [trace] at consistent ⊢
  exact
    { consistent := consistent
      wellFormed := h.wellFormed
      current := h.current
      ported := later
      shown := by
        intro g' hg kind id
        cases hg
        rw [listened, entry_applyEvent news]
        by_cases here : (kind, id) = key
        · subst here
          exact ⟨v, by simpa using held, by simp⟩
        · obtain ⟨w, was, same⟩ := h.shown g opened kind id
          refine ⟨w, by simpa [here] using was, ?_⟩
          rw [if_neg, same]
          rintro ⟨rfl, hid⟩
          exact here (Prod.ext rfl (dartId_inj.mp hid))
      foreign := by
        intro g' hg kind i hi
        cases hg
        rw [listened, entry_applyEvent news, if_neg]
        · exact h.foreign g opened kind i hi
        · exact fun here => hi key.2 here.2.symm
      kept := h.kept }

theorem faithful_step {s t : Mirror} {l : MirrorLabel} (h : Faithful s) (step : Step s l t) :
    Faithful t := by
  rcases step_cases step with ⟨c, _, _, rfl⟩ | ⟨_, stored⟩ | ⟨g, message, rest, _, opened, first, rfl⟩
  · exact faithful_callback h c
  · exact faithful_storeSnapshot h stored
  · exact faithful_deliver h opened first

theorem faithful_run {ls : List MirrorLabel} {s : Mirror} (run : Run Step {} ls s) : Faithful s :=
  run.invariant faithful_empty fun _ _ _ => faithful_step

end Mirror

end PwDart
