import PwDart.SessionSettled

namespace PwDart

open LabelledRun DrainedQueue RegistryMonitor

/-- Every prefix of what the client has posted makes a graph without dangling references. -/
def AlwaysIntegral (c : SessionClient) : Prop :=
  ∀ events, events <+: c.posted → (graphOf events).Integral

theorem call_posts (m : RegistryMonitor) (c : Callback) : (m.call c).2 = [] ∨ ∃ new, (m.call c).2 = [new] := by
  cases c with
  | global | deviceInfo => exact Or.inl rfl
  | globalRemove id =>
    simp only [call, onGlobalRemove]
    cases m.idTypes[id]? with
    | none => exact Or.inl rfl
    | some text =>
      simp only [eraseRecord]
      split
      next => exact Or.inr ⟨_, rfl⟩
      next =>
        split
        next => exact Or.inr ⟨_, rfl⟩
        next =>
          split
          next => exact Or.inr ⟨_, rfl⟩
          next => split <;> exact Or.inl rfl
  | nodeInfo id info =>
    simp only [call, onNodeInfo]
    split
    next => exact Or.inr ⟨_, rfl⟩
    next => exact Or.inl rfl
  | portInfo id info =>
    simp only [call, onPortInfo]
    split
    next => exact Or.inr ⟨_, rfl⟩
    next => exact Or.inl rfl
  | linkInfo id info =>
    simp only [call, onLinkInfo]
    split
    next => exact Or.inr ⟨_, rfl⟩
    next => exact Or.inl rfl

theorem receive_posts (c : SessionClient) (event : ServerEvent) :
    (c.receive event).posted = c.posted ∨ ∃ new, (c.receive event).posted = c.posted ++ [new] := by
  have posts (callback : Callback) : c.posted ++ (c.monitor.call callback).2 = c.posted ∨
      ∃ new, c.posted ++ (c.monitor.call callback).2 = c.posted ++ [new] := by
    rcases call_posts c.monitor callback with none | ⟨new, one⟩
    · exact Or.inl (by rw [none, List.append_nil])
    · exact Or.inr ⟨new, by rw [one]⟩
  unfold SessionClient.receive
  split
  next => exact Or.inl rfl
  next => exact posts _
  next =>
    split
    next => exact Or.inl rfl
    next => exact posts _
  next => exact Or.inl rfl

theorem alwaysIntegral_receive {c : SessionClient} {event : ServerEvent} (before : AlwaysIntegral c)
    (after : (graphOf (c.receive event).posted).Integral) : AlwaysIntegral (c.receive event) := by
  intro events among
  rcases receive_posts c event with same | ⟨new, more⟩
  · rw [same] at among
    exact before events among
  · rw [more] at among after
    rcases List.prefix_concat_iff.mp among with whole | earlier
    · rw [whole]
      exact after
    · exact before events earlier

theorem sent_receive (c : SessionClient) (event : ServerEvent) : c.sent <+: (c.receive event).sent := by
  unfold SessionClient.receive
  split
  next => exact List.prefix_append _ _
  next => exact List.prefix_refl _
  next => split <;> exact List.prefix_refl _
  next => exact List.prefix_refl _

theorem sent_drained (c : SessionClient) (queue : List ServerEvent) :
    c.sent <+: (drained SessionClient.receive c queue).sent := by
  induction queue generalizing c with
  | nil => exact List.prefix_refl _
  | cons event queue ih => exact (sent_receive c event).trans (ih (c.receive event))

/-- The client as it will be when everything sent to it has arrived. -/
def Session.arrived (s : Session) : SessionClient := drained SessionClient.receive s.client s.toClient

structure Session.Sound (s : Session) : Prop where
  served : Served s.objects s.nextSerial
  settled : Settled s.objects s.nextSerial s.handled s.arrived
  handled_le : s.handled ≤ s.client.sent.length
  bound : ∀ proxy o, (proxy, o) ∈ s.bound → ⟨o.id, o.type, proxy⟩ ∈ s.client.sent.take s.handled
  integral : Throughout SessionClient.receive AlwaysIntegral s.client s.toClient

theorem integral_empty : (graphOf []).Integral where
  ports key port h := by cases h
  links key link h := by cases h

theorem sound_start : Session.Sound {} where
  served := served_empty
  settled := settled_start
  handled_le := Nat.le_refl _
  bound proxy o h := by cases h
  integral := by
    refine throughout_nil fun events among => ?_
    rw [List.prefix_nil.mp among]
    exact integral_empty

/-- The server sends an event after which the client is settled again. -/
theorem sound_send {s : Session} (h : s.Sound) {objects : List ServerObject} {nextSerial handled : Nat}
    {bound : List (PwProxy × ServerObject)} {event : ServerEvent} (served : Served objects nextSerial)
    (settled : Settled objects nextSerial handled (s.arrived.receive event))
    (handled_le : handled ≤ s.client.sent.length)
    (isBound : ∀ proxy o, (proxy, o) ∈ bound → ⟨o.id, o.type, proxy⟩ ∈ s.client.sent.take handled) :
    Session.Sound ⟨objects, nextSerial, bound, handled, s.toClient ++ [event], s.client⟩ := by
  have after : (⟨objects, nextSerial, bound, handled, s.toClient ++ [event], s.client⟩ : Session).arrived =
      s.arrived.receive event := drained_append_singleton _ _ _ _
  refine ⟨served, ?_, handled_le, isBound, h.integral.send ?_⟩
  · rw [after]
    exact settled
  · exact alwaysIntegral_receive h.integral.last (pictures_integral settled.pictures served.supports)

theorem taken_arrived (s : Session) {k : Nat} (le : k ≤ s.client.sent.length) :
    s.arrived.sent.take k = s.client.sent.take k := by
  obtain ⟨rest, more⟩ := sent_drained s.client s.toClient
  rw [Session.arrived, ← more]
  exact List.take_append_of_le_length le

theorem sound_inform {s : Session} (h : s.Sound) {proxy : PwProxy} {object : ServerObject} {report : InfoReport}
    (isBound : (proxy, object) ∈ s.bound) (here : object ∈ s.objects) (truth : truthful object report) :
    Session.Sound { s with toClient := s.toClient ++ [.info proxy report] } := by
  have taken := taken_arrived s h.handled_le
  have bind := h.bound proxy object isBound
  rw [← taken] at bind
  refine sound_send h h.served ?_ h.handled_le h.bound
  by_cases own : proxy = object.serial
  · subst own
    obtain ⟨kind, ofKind⟩ := kind_of_truthful truth
    have known : object.kind ≠ none := by simp [ofKind]
    have shown := h.settled.answered object here known bind
    exact settled_info h.served h.settled here truth (h.settled.pictures.closed object here shown)
      h.settled.handled_le fun o _ _ hbind _ => hbind
  · rw [receive_info_gone h.settled
      (h.settled.gone h.served here (List.mem_of_mem_take bind) own)]
    exact h.settled

theorem take_succ_sent {s : Session} {bind : Bind} (next : s.client.sent[s.handled]? = some bind) :
    s.client.sent.take (s.handled + 1) = s.client.sent.take s.handled ++ [bind] := by
  rw [List.take_add_one, next]
  rfl

/-- The binds handled are those that were and the next. -/
theorem handled_cases {s : Session} (h : s.Sound) {bind : Bind} (next : s.client.sent[s.handled]? = some bind)
    {o : ServerObject} (hbind : o.bind ∈ s.arrived.sent.take (s.handled + 1)) :
    o.bind ∈ s.arrived.sent.take s.handled ∨ o.bind = bind := by
  have bounded := (List.getElem?_eq_some_iff.mp next).1
  rw [taken_arrived s (Nat.succ_le_of_lt bounded), take_succ_sent next] at hbind
  rw [taken_arrived s h.handled_le]
  rcases List.mem_append.mp hbind with before | last
  · exact Or.inl before
  · exact Or.inr (List.mem_singleton.mp last)

/-- The next bind is answered after those of all objects that its object names. -/
theorem settled_answer {s : Session} (h : s.Sound) {bind : Bind} (next : s.client.sent[s.handled]? = some bind)
    {object : ServerObject} (here : object ∈ s.objects) (matches_ : object.id = bind.id ∧ object.type = bind.type)
    {report : InfoReport} (truth : truthful object report) :
    Settled s.objects s.nextSerial (s.handled + 1) (s.arrived.receive (.info bind.proxy report)) := by
  obtain ⟨bounded, _⟩ := List.getElem?_eq_some_iff.mp next
  have boundedArrived : s.handled + 1 ≤ s.arrived.sent.length :=
    Nat.le_trans (Nat.succ_le_of_lt bounded) (sent_drained s.client s.toClient).length_le
  have inArrived : s.arrived.sent[s.handled]? = some bind := by
    obtain ⟨rest, grown⟩ := sent_drained s.client s.toClient
    rw [Session.arrived, ← grown, List.getElem?_append_left bounded]
    exact next
  by_cases own : bind.proxy = object.serial
  · rw [own]
    refine settled_info h.served h.settled here truth ?_ boundedArrived ?_
    · intro n hn named
      by_cases known : n.kind = none
      · exact inGraph_unknown known _
      · have older : n.bind.proxy < bind.proxy := by
          rw [own]
          exact h.served.older object here n hn named
        exact h.settled.answered n hn known
          (mem_take_of_lt h.settled.ordered inArrived (h.settled.sent n hn known) older)
    · intro o ho _ hbind other
      rcases handled_cases h next hbind with before | same
      · exact before
      · have sameId : o.id = object.id := (congrArg Bind.id same).trans matches_.1.symm
        exact absurd (List.inj_on_of_nodup_map h.served.ids ho here sameId) other
  · have sent : (⟨object.id, object.type, bind.proxy⟩ : Bind) ∈ s.arrived.sent := by
      rw [matches_.1, matches_.2]
      exact List.mem_of_getElem? inArrived
    have gone := h.settled.gone h.served here sent own
    rw [receive_info_gone h.settled gone]
    refine h.settled.raise boundedArrived fun o ho known hbind => ?_
    rcases handled_cases h next hbind with before | same
    · exact before
    · exact absurd (congrArg Bind.proxy same) (gone o ho known)

theorem sound_answer {s t : Session} (h : s.Sound) {report : InfoReport} (step : s.answer report = some t) :
    t.Sound := by
  unfold Session.answer at step
  cases next : s.client.sent[s.handled]? with
  | none =>
    rw [next] at step
    cases step
  | some bind =>
    rw [next] at step
    have bounded := (List.getElem?_eq_some_iff.mp next).1
    have keep : ∀ proxy o, (proxy, o) ∈ s.bound → ⟨o.id, o.type, proxy⟩ ∈ s.client.sent.take (s.handled + 1) := by
      intro proxy o hbound
      rw [take_succ_sent next]
      exact List.mem_append_left _ (h.bound proxy o hbound)
    simp only at step
    cases found : s.objects.find? fun object => object.id = bind.id ∧ object.type = bind.type with
    | none =>
      rw [found] at step
      cases Option.some.inj step
      have boundedArrived : s.handled + 1 ≤ s.arrived.sent.length :=
        Nat.le_trans (Nat.succ_le_of_lt bounded) (sent_drained s.client s.toClient).length_le
      refine ⟨h.served, h.settled.raise boundedArrived ?_, Nat.succ_le_of_lt bounded, keep, h.integral⟩
      intro o ho _ hbind
      rcases handled_cases h next hbind with before | same
      · exact before
      · have unmatched := List.find?_eq_none.mp found o ho
        simp [← same, ServerObject.bind] at unmatched
    | some object =>
      rw [found] at step
      obtain ⟨truth, same⟩ := Option.ite_none_right_eq_some.mp step
      cases Option.some.inj same
      have here : object ∈ s.objects := List.mem_of_find?_eq_some found
      have matches_ : object.id = bind.id ∧ object.type = bind.type := by simpa using List.find?_some found
      have bound : ∀ proxy o, (proxy, o) ∈ s.bound ++ [(bind.proxy, object)] →
          ⟨o.id, o.type, proxy⟩ ∈ s.client.sent.take (s.handled + 1) := by
        intro proxy o hbound
        rcases List.mem_append.mp hbound with hbound | hbound
        · exact keep proxy o hbound
        · cases List.mem_singleton.mp hbound
          rw [matches_.1, matches_.2, take_succ_sent next]
          exact List.mem_append_right _ (List.mem_singleton_self _)
      exact sound_send h h.served (settled_answer h next here matches_ truth) (Nat.succ_le_of_lt bounded) bound

theorem sound_step {s t : Session} {step : SessionStep} (h : s.Sound) (taken : s.next step = some t) :
    t.Sound := by
  cases step with
  | announce object =>
    obtain ⟨⟨serial, fresh, its⟩, same⟩ := Option.ite_none_right_eq_some.mp taken
    cases Option.some.inj same
    exact sound_send h (served_announce h.served serial fresh its)
      (settled_announce h.served h.settled serial fresh its) h.handled_le h.bound
  | remove object =>
    obtain ⟨⟨here, supports⟩, same⟩ := Option.ite_none_right_eq_some.mp taken
    cases Option.some.inj same
    exact sound_send h (served_remove h.served supports) (settled_remove h.served h.settled here) h.handled_le
      h.bound
  | answer report => exact sound_answer h taken
  | inform proxy object report =>
    obtain ⟨⟨isBound, here, truth⟩, same⟩ := Option.ite_none_right_eq_some.mp taken
    cases Option.some.inj same
    exact sound_inform h isBound here truth
  | receive =>
    unfold Session.next at taken
    cases queue : s.toClient with
    | nil =>
      rw [queue] at taken
      cases taken
    | cons event rest =>
      rw [queue] at taken
      cases Option.some.inj taken
      obtain ⟨served, settled, handled_le, bound, integral⟩ := h
      have grown := sent_receive s.client event
      rw [Session.arrived, queue] at settled
      rw [queue] at integral
      refine ⟨served, settled, Nat.le_trans handled_le grown.length_le, ?_, integral.take⟩
      intro proxy o hbound
      obtain ⟨more, sent⟩ := grown
      rw [← sent, List.take_append_of_le_length handled_le]
      exact bound proxy o hbound

theorem sound_run {s : Session} {steps : List SessionStep} (run : Run (Takes Session.next) {} steps s) :
    s.Sound :=
  run.invariant sound_start fun _ _ _ h taken => sound_step h taken

/-- The events of `params`, which come in between, leave the graph as it is. -/
def GraphEvent.ofRegistry : GraphEvent → Bool
  | .paramChanged _ _ _ => false
  | _ => true

theorem graphOf_filter_ofRegistry (events : List GraphEvent) :
    graphOf (events.filter GraphEvent.ofRegistry) = graphOf events := by
  induction events using List.reverseRecOn with
  | nil => rfl
  | append_singleton events event ih =>
    rw [List.filter_append, graphOf_append_singleton, ← ih]
    cases event with
    | paramChanged id key value =>
      simp [GraphEvent.ofRegistry, GraphEvent.image, PwGraph.applyEvent]
    | _ => exact graphOf_append_singleton _ _

theorem event_graph_integral {s : Session} {steps : List SessionStep}
    (run : Run (Takes Session.next) {} steps s) {events : List GraphEvent}
    (posted : events.filter GraphEvent.ofRegistry <+: s.client.posted) : (graphOf events).Integral := by
  rw [← graphOf_filter_ofRegistry]
  exact (sound_run run).integral.now _ posted

def sourceNode : ServerObject := ⟨1, 7, some interfaceNode, none, by decide⟩

def sourcePort : ServerObject :=
  ⟨2, 8, some interfacePort, some [⟨some "node.id", some "7"⟩], by decide +kernel⟩

/-- A port comes and goes while its node is there. -/
def portSession : List SessionStep :=
  [.announce sourceNode, .announce sourcePort, .receive, .receive,
    .answer (.node ⟨0, PW_NODE_STATE_RUNNING, none⟩), .answer (.port ⟨0, PW_DIRECTION_INPUT, none⟩), .receive,
    .receive, .remove sourcePort, .remove sourceNode, .receive, .receive]

theorem event_graph_integral_portSession :
    ∃ s, Run (Takes Session.next) {} portSession s ∧
      (graphOf (s.client.posted.take 2)).nodes.keys = [7] ∧ (graphOf (s.client.posted.take 2)).ports.keys = [8] ∧
      (graphOf (s.client.posted.take 2)).Integral := by
  have outcome : (portSession.foldlM Session.next {}).map (fun s =>
        ((graphOf (s.client.posted.take 2)).nodes.keys, (graphOf (s.client.posted.take 2)).ports.keys,
          (s.client.posted.take 2).all GraphEvent.ofRegistry)) =
      some ([7], [8], true) := by
    decide +kernel
  obtain ⟨s, ran, rest⟩ := Option.map_eq_some_iff.mp outcome
  simp only [Prod.mk.injEq, List.all_eq_true] at rest
  obtain ⟨nodes, ports, registry⟩ := rest
  refine ⟨s, run_takes_iff.mpr ran, nodes, ports, event_graph_integral (run_takes_iff.mpr ran) ?_⟩
  rw [List.filter_eq_self.mpr registry]
  exact List.take_prefix 2 _

end PwDart
