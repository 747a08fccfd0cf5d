import PwDart.LinkSettling

namespace PwDart

open Json LabelledRun

theorem mem_modify {α : Type*} {f : α → α} {xs : List α} {k : Nat} {y : α} (mem : y ∈ xs.modify k f) :
    y ∈ xs ∨ ∃ x, xs[k]? = some x ∧ y = f x := by
  obtain ⟨i, here⟩ := List.mem_iff_getElem?.mp mem
  rw [List.getElem?_modify] at here
  split at here
  next same =>
    subst same
    obtain ⟨x, there, rfl⟩ := Option.map_eq_some_iff.mp here
    exact Or.inr ⟨x, there, rfl⟩
  next => exact Or.inl (List.mem_of_getElem? (by simpa using here))

theorem linkOf_toJson (event : GraphEvent) :
    linkOf (.obj event.toJson) = match event with
      | .linkAdded link => some link.image
      | _ => none := by
  rw [linkOf, deserializeEventValue_toJson]
  cases event <;> rfl

/-- Only an info that finds its link in the state `init` announces it as added. -/
theorem linkAdded_cases {m : RegistryMonitor} {c : Callback} {link : LinkInfo} (posted : .linkAdded link ∈ (m.call c).2) :
    ∃ id info old, c = .linkInfo id (some info) ∧ m.links[id]? = some old ∧ old.state = "init" ∧
      link = old.update info := by
  cases c with
  | linkInfo id info =>
    simp only [RegistryMonitor.call, RegistryMonitor.onLinkInfo] at posted
    split at posted
    next info old here =>
      by_cases first : old.state = "init"
      · exact ⟨id, info, old, rfl, here, first, by simpa [first] using posted⟩
      · simp [first] at posted
    next => simp at posted
  | globalRemove id =>
    simp only [RegistryMonitor.call, RegistryMonitor.onGlobalRemove] at posted
    split at posted
    next => simp at posted
    next type _ =>
      unfold RegistryMonitor.eraseRecord at posted
      repeat' split at posted
      all_goals simp at posted
  | nodeInfo id info =>
    simp only [RegistryMonitor.call, RegistryMonitor.onNodeInfo] at posted
    split at posted
    next =>
      split at posted
      next => simp at posted
      next => simp at posted
    next => simp at posted
  | portInfo id info =>
    simp only [RegistryMonitor.call, RegistryMonitor.onPortInfo] at posted
    split at posted
    next => simp at posted
    next => simp at posted
  | global | deviceInfo => simp [RegistryMonitor.call] at posted

namespace LinkRequests

/-- A link that a call has got or is told of, by its announcement. -/
def Recorded (s : LinkRequests) (link : PwLink) (time : Nat) : Prop :=
  (∃ c ∈ s.calls, c.outcome = .link link (some time)) ∨
    ∃ message ∈ s.port, linkOf message.1 = some link ∧ message.2 = some time

/-- The notes of the client agree: a recorded link has the ports its id has, and a call that still waits
for the ports of a link another one has got has been executed after that link was announced. -/
structure Noted (s : LinkRequests) : Prop where
  announced : ∀ id time, s.announced id = some time → time < s.clock
  single : ∀ id other time, s.announced id = some time → s.announced other = some time → id = other
  recorded : ∀ link time, s.Recorded link time → time < s.clock
  ports : ∀ link time, s.Recorded link time → ∀ id, s.announced id = some time → ∃ ports, s.ports id = some ports ∧
    link.outputPortId = dartId ports.1 ∧ link.inputPortId = dartId ports.2
  later : ∀ c ∈ s.calls, ∀ link time, c.outcome = .link link (some time) → ∀ d ∈ s.calls, d.outcome = .pending →
    d.awaits link = true → ∀ executed, d.executed = some executed → time < executed
  queued : ∀ k ∈ s.queue.filterMap Prod.snd, ∃ c, s.calls[k]? = some c ∧ c.executed = none
  once : (s.queue.filterMap Prod.snd).Nodup

theorem noted_start : Noted {} where
  announced id time h := by cases h
  single id other time h := by cases h
  recorded link time h := by
    rcases h with ⟨c, mem, _⟩ | ⟨m, mem, _⟩
    · cases mem
    · cases mem
  ports link time h := by
    rcases h with ⟨c, mem, _⟩ | ⟨m, mem, _⟩
    · cases mem
    · cases mem
  later c mem := by cases mem
  queued k mem := by cases mem
  once := List.nodup_nil

/-- A step that changes the calls without giving one a link. -/
theorem noted_calls {s : LinkRequests} (h : s.Noted) {calls : List LinkCall}
    (links : ∀ c ∈ calls, ∀ link announced, c.outcome = .link link announced → ∃ d ∈ s.calls, d.outcome = .link link announced)
    (waits : ∀ c ∈ calls, c.outcome = .pending → c.executed = none ∨ ∃ d ∈ s.calls, d.outcome = .pending ∧
      (∀ link, c.awaits link = true → d.awaits link = true) ∧ d.executed = c.executed)
    (queued : ∀ k ∈ s.queue.filterMap Prod.snd, ∃ c, calls[k]? = some c ∧ c.executed = none) :
    Noted { s with calls := calls } := by
  have before {link : PwLink} {time : Nat} (now : Recorded { s with calls := calls } link time) : s.Recorded link time := by
    rcases now with ⟨c, mem, got⟩ | posted
    · exact Or.inl (links c mem link _ got)
    · exact Or.inr posted
  refine ⟨h.announced, h.single, fun link time now => h.recorded link time (before now),
    fun link time now => h.ports link time (before now), ?_, queued, h.once⟩
  intro c mem link time got d there pending awaits executed ran
  obtain ⟨c', mem', got'⟩ := links c mem link _ got
  rcases waits d there pending with none | ⟨d', there', pending', same, ran'⟩
  · cases none.symm.trans ran
  · exact h.later c' mem' link time got' d' there' pending' (same link awaits) executed (ran'.trans ran)

theorem noted_createLink {s : LinkRequests} (h : s.Noted) (outputPortId inputPortId : Int) (pushed : Bool) :
    (s.createLink outputPortId inputPortId pushed).Noted := by
  have extended (outcome : LinkOutcome) (unlinked : ∀ link announced, outcome ≠ .link link announced) :
      Noted { s with calls := s.calls ++ [⟨outputPortId, inputPortId, none, outcome⟩] } := by
    refine noted_calls h ?_ ?_ ?_
    · intro c mem link announced got
      rcases List.mem_append.mp mem with old | new
      · exact ⟨c, old, got⟩
      · cases List.mem_singleton.mp new
        exact absurd got (unlinked link announced)
    · intro c mem pending
      rcases List.mem_append.mp mem with old | new
      · exact Or.inr ⟨c, old, pending, fun _ => id, rfl⟩
      · cases List.mem_singleton.mp new
        exact Or.inl rfl
    · intro k mem
      obtain ⟨c, here, none⟩ := h.queued k mem
      exact ⟨c, by rw [List.getElem?_append_left (List.getElem?_eq_some_iff.mp here).1]; exact here, none⟩
  unfold createLink
  split
  next =>
    have base := extended .pending (by simp)
    have queue : ((s.queue ++ [(Command.createLink (.ofInt outputPortId) (.ofInt inputPortId) 0, some s.calls.length)]).filterMap
        Prod.snd) = s.queue.filterMap Prod.snd ++ [s.calls.length] := by
      simp
    refine { base with queued := ?_, once := ?_ }
    · intro k mem
      rw [queue] at mem
      rcases List.mem_append.mp mem with old | new
      · exact base.queued k old
      · cases List.mem_singleton.mp new
        exact ⟨_, List.getElem?_concat_length, rfl⟩
    · rw [queue]
      refine List.nodup_append.mpr ⟨h.once, List.nodup_singleton _, ?_⟩
      intro k old j new same
      cases List.mem_singleton.mp new
      obtain ⟨c, here, _⟩ := h.queued k old
      have bound := (List.getElem?_eq_some_iff.mp here).1
      omega
  next => exact extended .error (by simp)

theorem noted_fail {s : LinkRequests} (h : s.Noted) (k : Nat) : Noted { s with
    calls := s.calls.modify k fun c => if c.outcome = .pending then { c with outcome := .error } else c } := by
  refine noted_calls h ?_ ?_ ?_
  · intro c mem link announced got
    rcases mem_modify mem with old | ⟨d, here, rfl⟩
    · exact ⟨c, old, got⟩
    · refine ⟨d, List.mem_of_getElem? here, ?_⟩
      split at got
      next => cases got
      next => exact got
  · intro c mem pending
    rcases mem_modify mem with old | ⟨d, here, rfl⟩
    · exact Or.inr ⟨c, old, pending, fun _ => id, rfl⟩
    · split at pending
      next => cases pending
      next other => exact absurd pending other
  · intro j mem
    obtain ⟨c, here, none⟩ := h.queued j mem
    rw [List.getElem?_modify, here]
    split
    next =>
      refine ⟨_, rfl, ?_⟩
      show (if c.outcome = .pending then { c with outcome := .error } else c).executed = _
      split
      next => exact none
      next => exact none
    next => exact ⟨c, rfl, none⟩

theorem noted_execute {s : LinkRequests} (h : s.Noted) {command : Command} {k : Nat} {rest : List (Command × Option Nat)}
    (queue : s.queue = (command, some k) :: rest) : Noted { s with
      queue := rest
      calls := s.calls.modify k fun c => { c with executed := some s.clock }
      clock := s.clock + 1 } := by
  have old {c : LinkCall} (mem : c ∈ s.calls.modify k fun c => { c with executed := some s.clock }) :
      ∃ d ∈ s.calls, c.outcome = d.outcome ∧ (∀ link, c.awaits link = d.awaits link) ∧
        (c.executed = some s.clock ∨ c.executed = d.executed) := by
    rcases mem_modify mem with same | ⟨d, here, rfl⟩
    · exact ⟨c, same, rfl, fun _ => rfl, Or.inr rfl⟩
    · exact ⟨d, List.mem_of_getElem? here, rfl, fun _ => rfl, Or.inl rfl⟩
  have before {link : PwLink} {time : Nat} (now : Recorded { s with
      queue := rest
      calls := s.calls.modify k fun c => { c with executed := some s.clock }
      clock := s.clock + 1 } link time) : s.Recorded link time := by
    rcases now with ⟨c, mem, got⟩ | posted
    · obtain ⟨d, there, outcome, _⟩ := old mem
      exact Or.inl ⟨d, there, outcome.symm.trans got⟩
    · exact Or.inr posted
  have numbers : s.queue.filterMap Prod.snd = k :: rest.filterMap Prod.snd := by
    rw [queue]
    rfl
  have once := h.once
  have queued := h.queued
  rw [numbers] at once queued
  obtain ⟨first, once⟩ := List.nodup_cons.mp once
  refine ⟨fun id time since => Nat.lt_succ_of_lt (h.announced id time since), h.single,
    fun link time now => Nat.lt_succ_of_lt (h.recorded link time (before now)),
    fun link time now => h.ports link time (before now), ?_, ?_, once⟩
  · intro c mem link time got d there pending awaits executed ran
    obtain ⟨c', mem', outcome, _⟩ := old mem
    obtain ⟨d', there', outcome', same, ran'⟩ := old there
    rcases ran' with now | kept
    · cases now.symm.trans ran
      exact h.recorded link time (Or.inl ⟨c', mem', outcome.symm.trans got⟩)
    · refine h.later c' mem' link time (outcome.symm.trans got) d' there' (outcome'.symm.trans pending) ?_ executed
        (kept.symm.trans ran)
      exact (same link).symm.trans awaits
  · intro j mem
    obtain ⟨c, here, none⟩ := queued j (List.mem_cons_of_mem _ mem)
    have other : k ≠ j := by
      rintro rfl
      exact first mem
    exact ⟨c, by simp [here, other], none⟩

theorem noted_deliver {s : LinkRequests} (h : s.Noted) {message : Value × Option Nat} {rest : List (Value × Option Nat)}
    (port : s.port = message :: rest) : Noted { s with port := rest, calls := s.calls.map fun c => c.hear message } := by
  have here : message ∈ s.port := by simp [port]
  have before {link : PwLink} {time : Nat} (now : Recorded { s with
      port := rest, calls := s.calls.map fun c => c.hear message } link time) : s.Recorded link time := by
    rcases now with ⟨c, mem, got⟩ | ⟨m, mem, about⟩
    · obtain ⟨d, there, rfl⟩ := List.mem_map.mp mem
      rcases d.hear_cases message with ⟨same, _⟩ | ⟨heard, about, _, _, same⟩
      · rw [same] at got
        exact Or.inl ⟨d, there, got⟩
      · rw [same] at got
        obtain ⟨rfl, since⟩ : heard = link ∧ message.2 = some time := by simpa using got
        exact Or.inr ⟨message, here, about, since⟩
    · exact Or.inr ⟨m, by simp [port, mem], about⟩
  refine ⟨h.announced, h.single, fun link time now => h.recorded link time (before now),
    fun link time now => h.ports link time (before now), ?_, ?_, h.once⟩
  · intro c mem link time got d there pending awaits executed ran
    obtain ⟨c', mem', rfl⟩ := List.mem_map.mp mem
    obtain ⟨d', there', rfl⟩ := List.mem_map.mp there
    rcases d'.hear_cases message with ⟨same', unheard⟩ | ⟨_, _, _, _, same'⟩
    · rw [same'] at pending awaits ran
      rcases c'.hear_cases message with ⟨same, _⟩ | ⟨heard, about, _, _, same⟩
      · rw [same] at got
        exact h.later c' mem' link time got d' there' pending awaits executed ran
      · rw [same] at got
        obtain ⟨rfl, _⟩ : heard = link ∧ message.2 = some time := by simpa using got
        cases awaits.symm.trans (unheard pending heard about)
    · rw [same'] at pending
      cases pending
  · intro k mem
    obtain ⟨c, there, none⟩ := h.queued k mem
    refine ⟨c.hear message, by simp [there], ?_⟩
    exact (c.after_fields [message]).2.2.trans none

/-- The messages a callback adds. -/
def posted (s : LinkRequests) (c : Callback) : List (Value × Option Nat) :=
  (s.monitor.call c).2.map fun event => (.obj event.toJson, s.announcementOf c)

theorem posted_link {s : LinkRequests} {c : Callback} {message : Value × Option Nat} (mem : message ∈ s.posted c)
    {link : PwLink} (about : linkOf message.1 = some link) :
    ∃ id info old, c = .linkInfo id (some info) ∧ s.monitor.links[id]? = some old ∧ old.state = "init" ∧
      link = (old.update info).image ∧ message.2 = s.announced id := by
  obtain ⟨event, called, rfl⟩ := List.mem_map.mp mem
  rw [linkOf_toJson] at about
  split at about
  next added =>
    obtain ⟨id, info, old, rfl, here, first, rfl⟩ := linkAdded_cases called
    exact ⟨id, info, old, rfl, here, first, (Option.some.inj about).symm, rfl⟩
  next => cases about

theorem announced_callback {s : LinkRequests} {c : Callback} {id : UInt32} {time : Nat}
    (since : (s.callback c).announced id = some time) : s.announced id = some time ∨
      (time = s.clock ∧ (∃ type props bound, c = .global id type props bound)) := by
  unfold callback at since
  cases c with
  | global i type props bound =>
    simp only at since
    split at since
    next =>
      rw [Function.update_apply] at since
      split at since
      next same =>
        subst same
        exact Or.inr ⟨(Option.some.inj since).symm, type, props, bound, rfl⟩
      next => exact Or.inl since
    next => exact Or.inl since
  | globalRemove i =>
    simp only [Function.update_apply] at since
    split at since
    next => cases since
    next => exact Or.inl since
  | nodeInfo | portInfo | linkInfo | deviceInfo => exact Or.inl since

/-- An id that stays announced keeps its ports. -/
theorem ports_callback {s : LinkRequests} {c : Callback} (steady : s.steady c = true) {id : UInt32} {time : Nat}
    (since : (s.callback c).announced id = some time) {ports : UInt32 × UInt32} (held : s.ports id = some ports) :
    (s.callback c).ports id = some ports := by
  unfold callback at since ⊢
  cases c with
  | globalRemove i =>
    simp only [Function.update_apply] at since ⊢
    split at since
    next => cases since
    next other =>
      rw [if_neg other]
      exact held
  | linkInfo i info =>
    cases info with
    | none => exact held
    | some info =>
      simp only [Function.update_apply]
      split
      next same =>
        subst same
        simpa [LinkRequests.steady, held, eq_comm] using steady
      next => exact held
  | global | nodeInfo | portInfo | deviceInfo => exact held

theorem noted_callback {s : LinkRequests} (h : s.Noted) {c : Callback} (steady : s.steady c = true) :
    (s.callback c).Noted := by
  have clock : (s.callback c).clock = s.clock + 1 := rfl
  have cases_ {link : PwLink} {time : Nat} (now : (s.callback c).Recorded link time) : s.Recorded link time ∨
      ∃ id info old, c = .linkInfo id (some info) ∧ s.monitor.links[id]? = some old ∧ old.state = "init" ∧
        link = (old.update info).image ∧ s.announced id = some time := by
    rcases now with got | ⟨m, mem, about, since⟩
    · exact Or.inl (Or.inl got)
    · rcases List.mem_append.mp mem with old | new
      · exact Or.inl (Or.inr ⟨m, old, about, since⟩)
      · obtain ⟨id, info, old, rfl, here, first, same, tag⟩ := posted_link new about
        exact Or.inr ⟨id, info, old, rfl, here, first, same, tag.symm.trans since⟩
  refine ⟨?_, ?_, ?_, ?_, h.later, h.queued, h.once⟩
  · intro id time since
    rcases announced_callback since with old | ⟨rfl, _⟩
    · exact Nat.lt_succ_of_lt (h.announced id time old)
    · exact Nat.lt_succ_self _
  · intro id other time since since'
    rcases announced_callback since with old | ⟨rfl, type, props, bound, same⟩
    · rcases announced_callback since' with old' | ⟨rfl, _⟩
      · exact h.single id other time old old'
      · exact absurd (h.announced id _ old) (Nat.lt_irrefl _)
    · rcases announced_callback since' with old' | ⟨_, type', props', bound', same'⟩
      · exact absurd (h.announced other _ old') (Nat.lt_irrefl _)
      · cases same.symm.trans same'
        rfl
  · intro link time now
    rcases cases_ now with old | ⟨id, info, old, _, _, _, _, since⟩
    · exact Nat.lt_succ_of_lt (h.recorded link time old)
    · exact Nat.lt_succ_of_lt (h.announced id time since)
  · intro link time now id since
    rcases cases_ now with old | ⟨i, info, old, rfl, _, _, rfl, since'⟩
    · rcases announced_callback since with before | ⟨rfl, _⟩
      · obtain ⟨ports, held, output, input⟩ := h.ports link time old id before
        exact ⟨ports, ports_callback steady since held, output, input⟩
      · exact absurd (h.recorded link _ old) (Nat.lt_irrefl _)
    · have same : id = i := h.single id i time since since'
      subst same
      exact ⟨(info.outputPortId, info.inputPortId), by simp [callback], rfl, rfl⟩

theorem noted_next {s t : LinkRequests} {l : LinkStep} (h : s.Noted) (step : s.next l = some t) : t.Noted := by
  cases l with
  | createLink outputPortId inputPortId pushed =>
    cases Option.some.inj step
    exact noted_createLink h outputPortId inputPortId pushed
  | call c =>
    cases Option.some.inj step
    have numbers : (s.queue ++ c.command.toList.map fun command => (command, none)).filterMap Prod.snd =
        s.queue.filterMap Prod.snd := by
      cases c.command <;> simp
    refine { h with queued := ?_, once := ?_ }
    · rw [numbers]
      exact h.queued
    · rw [numbers]
      exact h.once
  | fail k =>
    cases Option.some.inj step
    exact noted_fail h k
  | execute =>
    simp only [next] at step
    split at step
    next => cases step
    next command rest queue =>
      cases Option.some.inj step
      have numbers : s.queue.filterMap Prod.snd = rest.filterMap Prod.snd := by
        rw [queue]
        rfl
      exact { h with queued := numbers ▸ h.queued, once := numbers ▸ h.once }
    next command k rest queue =>
      cases Option.some.inj step
      exact noted_execute h queue
  | callback c =>
    obtain ⟨steady, same⟩ := Option.ite_none_right_eq_some.mp step
    cases Option.some.inj same
    exact noted_callback h steady
  | deliver =>
    simp only [next] at step
    split at step
    next => cases step
    next message rest port =>
      cases Option.some.inj step
      exact noted_deliver h port

end LinkRequests

end PwDart
