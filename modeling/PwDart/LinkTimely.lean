import PwDart.LinkPromise

namespace PwDart

open Json LabelledRun

theorem promised_concat {calls : List LinkCall} (h : Promised calls) {c : LinkCall}
    (unlinked : ∀ link announced, c.outcome ≠ .link link announced) : Promised (calls ++ [c]) := by
  refine ⟨?_, List.pairwise_append.mpr ⟨h.distinct, List.pairwise_singleton _ _, ?_⟩⟩
  · intro d mem link announced got
    rcases List.mem_append.mp mem with old | new
    · exact h.asked d old link announced got
    · cases List.mem_singleton.mp new
      exact absurd got (unlinked link announced)
  · intro d _ e new link announced link' announced' _ got
    cases List.mem_singleton.mp new
    exact absurd got (unlinked link' announced')

theorem pairwise_of_filter_length {α : Type*} {p : α → Bool} {xs : List α} (few : (xs.filter p).length ≤ 1) :
    xs.Pairwise fun x y => ¬(p x = true ∧ p y = true) := by
  induction xs with
  | nil => exact List.Pairwise.nil
  | cons x xs ih =>
    cases here : p x with
    | false =>
      rw [List.filter_cons_of_neg (by simp [here])] at few
      refine List.pairwise_cons.mpr ⟨fun y _ both => ?_, ih few⟩
      cases here.symm.trans both.1
    | true =>
      rw [List.filter_cons_of_pos here] at few
      have none : xs.filter p = [] := List.eq_nil_of_length_eq_zero (by simpa using few)
      refine List.pairwise_cons.mpr ⟨fun y mem both => ?_, ih (by simp [none])⟩
      have there : y ∈ xs.filter p := List.mem_filter.mpr ⟨mem, both.2⟩
      rw [none] at there
      cases there

theorem filter_length_of_pairwise {α : Type*} {p : α → Bool} {xs : List α}
    (apart : xs.Pairwise fun x y => ¬(p x = true ∧ p y = true)) : (xs.filter p).length ≤ 1 := by
  have none : (xs.filter p).Pairwise fun _ _ => False := by
    refine ((apart.sublist List.filter_sublist).imp_of_mem ?_)
    intro x y hx hy no
    exact no ⟨(List.mem_filter.mp hx).2, (List.mem_filter.mp hy).2⟩
  match held : xs.filter p with
  | [] => simp
  | [x] => simp
  | x :: y :: rest =>
    rw [held] at none
    exact absurd ((List.pairwise_cons.mp none).1 y (by simp)) id

namespace LinkRequests

theorem settles_createLink {s : LinkRequests} (settles : s.Settles) (outputPortId inputPortId : Int) :
    (s.createLink outputPortId inputPortId true).Settles ↔ ¬s.UnderWay outputPortId inputPortId := by
  rw [settles_iff] at settles ⊢
  generalize new : (⟨outputPortId, inputPortId, none, .pending⟩ : LinkCall) = c
  have calls : (s.createLink outputPortId inputPortId true).drained = s.drained ++ [c.after s.port] := by
    simp [drained, createLink, new]
  rw [calls]
  constructor
  · rintro promised ⟨message, mem, link, about, output, input⟩
    have asked := promised.asked _ (List.mem_append_right _ (List.mem_singleton_self _))
    have unexecuted : (c.after s.port).executed = none := by
      rw [(c.after_fields s.port).2.2, ← new]
    cases outcome : (c.after s.port).outcome with
    | pending =>
      have unheard := (LinkCall.after_pending.mp outcome).2 message mem link about
      simp [LinkCall.awaits, ← new, output, input] at unheard
    | error =>
      have failed := LinkCall.after_error outcome
      rw [← new] at failed
      cases failed
    | link got announced =>
      obtain ⟨_, _, time, _, ran, _⟩ := asked got announced outcome
      cases unexecuted.symm.trans ran
  · intro free
    have waits : (c.after s.port).outcome = .pending := by
      refine LinkCall.after_pending.mpr ⟨by rw [← new], fun message mem link about => ?_⟩
      by_contra awaits
      obtain ⟨output, input⟩ := LinkCall.awaits_iff.mp (eq_true_of_ne_false awaits)
      rw [← new] at output input
      exact free ⟨message, mem, link, about, output, input⟩
    refine promised_concat settles fun link announced got => ?_
    cases waits.symm.trans got

/-- A call that still waits when all has been delivered waits for no link that was under way. -/
theorem waiting_of_pending {s : LinkRequests} {c : LinkCall} (mem : c ∈ s.calls)
    (pending : (c.after s.port).outcome = .pending) :
    c ∈ s.waiting c.outputPortId c.inputPortId ∧ ¬s.UnderWay c.outputPortId c.inputPortId := by
  obtain ⟨before, unheard⟩ := LinkCall.after_pending.mp pending
  refine ⟨List.mem_filter.mpr ⟨mem, by simp [before]⟩, ?_⟩
  rintro ⟨message, here, link, about, output, input⟩
  cases (LinkCall.awaits_iff.mpr ⟨output, input⟩).symm.trans (unheard message here link about)

theorem mem_waiting {s : LinkRequests} {outputPortId inputPortId : Int} {c : LinkCall} :
    c ∈ s.waiting outputPortId inputPortId ↔
      c ∈ s.calls ∧ c.outcome = .pending ∧ c.outputPortId = outputPortId ∧ c.inputPortId = inputPortId := by
  simp [waiting, and_assoc]

/-- The message of a link that none is under way for goes to those that wait for it. -/
theorem hear_of_waiting {s : LinkRequests} {message : Value × Option Nat} {link : PwLink}
    (about : linkOf message.1 = some link) (free : ¬s.UnderWay link.outputPortId link.inputPortId) {c : LinkCall}
    (waits : c ∈ s.waiting link.outputPortId link.inputPortId) :
    ((c.after s.port).hear message).outcome = .link link message.2 := by
  obtain ⟨_, pending, output, input⟩ := mem_waiting.mp waits
  have still : (c.after s.port).outcome = .pending := by
    refine LinkCall.after_pending.mpr ⟨pending, fun m here other same => ?_⟩
    by_contra awaits
    obtain ⟨output', input'⟩ := LinkCall.awaits_iff.mp (eq_true_of_ne_false awaits)
    exact free ⟨m, here, other, same, output'.trans output, input'.trans input⟩
  obtain ⟨output', input', _⟩ := c.after_fields s.port
  have awaits : (c.after s.port).awaits link = true :=
    LinkCall.awaits_iff.mpr ⟨(output'.trans output).symm, (input'.trans input).symm⟩
  rcases (c.after s.port).hear_cases message with ⟨_, unheard⟩ | ⟨heard, same, _, _, now⟩
  · cases awaits.symm.trans (unheard still link about)
  · cases about.symm.trans same
    rw [now]

/-- Who gets a link from a message waited for it, and none was under way. -/
theorem hear_link {s : LinkRequests} {message : Value × Option Nat} {link : PwLink} (about : linkOf message.1 = some link)
    {c : LinkCall} (mem : c ∈ s.calls) :
    (c.after s.port).hear message = c.after s.port ∨
      (c ∈ s.waiting link.outputPortId link.inputPortId ∧ ¬s.UnderWay link.outputPortId link.inputPortId) := by
  rcases (c.after s.port).hear_cases message with ⟨same, _⟩ | ⟨heard, same, pending, awaits, _⟩
  · exact Or.inl same
  · cases about.symm.trans same
    obtain ⟨output, input⟩ := LinkCall.awaits_iff.mp awaits
    obtain ⟨output', input', _⟩ := c.after_fields s.port
    rw [output, input, output', input']
    exact Or.inr (waiting_of_pending mem pending)

/-- A link that a call has got was announced too late for those that still wait for one with its ports. -/
theorem announced_apart {s : LinkRequests} (h : s.Noted) {message : Value × Option Nat} {link : PwLink}
    (free : ¬s.UnderWay link.outputPortId link.inputPortId)
    (same : ∀ other time, s.Recorded other time → message.2 = some time →
      other.outputPortId = link.outputPortId ∧ other.inputPortId = link.inputPortId)
    (ran : ∀ c ∈ s.waiting link.outputPortId link.inputPortId,
      ∃ executed time, c.executed = some executed ∧ message.2 = some time ∧ executed < time)
    {c d : LinkCall} (mem : c ∈ s.calls) (waits : d ∈ s.waiting link.outputPortId link.inputPortId)
    {other : PwLink} {announced : Option Nat} (got : (c.after s.port).outcome = .link other announced) :
    announced ≠ message.2 := by
  rintro rfl
  obtain ⟨time, since, executed, tag, before⟩ := ran d waits
  obtain ⟨there, pending, output, input⟩ := mem_waiting.mp waits
  rw [tag] at got
  rcases LinkCall.after_link got with has | ⟨_, _, m, posted, about', tag'⟩
  · obtain ⟨output', input'⟩ := same other since (Or.inl ⟨c, mem, has⟩) tag
    have awaits : d.awaits other = true :=
      LinkCall.awaits_iff.mpr ⟨output'.trans output.symm, input'.trans input.symm⟩
    have after := h.later c mem other since has d there pending awaits time executed
    omega
  · obtain ⟨output', input'⟩ := same other since (Or.inr ⟨m, posted, about', tag'⟩) tag
    exact free ⟨m, posted, other, about', output', input'⟩

theorem executed_hear (c : LinkCall) (port : List (Value × Option Nat)) (message : Value × Option Nat) :
    ((c.after port).hear message).executed = c.executed :=
  (LinkCall.after_fields (c.after port) [message]).2.2.trans (c.after_fields port).2.2

/-- One call waits for the link, and its command was executed before the link was announced. -/
theorem promised_hear {s : LinkRequests} (h : s.Noted) (promised : Promised s.drained) {message : Value × Option Nat}
    {link : PwLink} (about : linkOf message.1 = some link)
    (same : ∀ other time, s.Recorded other time → message.2 = some time →
      other.outputPortId = link.outputPortId ∧ other.inputPortId = link.inputPortId)
    (free : ¬s.UnderWay link.outputPortId link.inputPortId)
    (few : (s.waiting link.outputPortId link.inputPortId).length ≤ 1)
    (ran : ∀ c ∈ s.waiting link.outputPortId link.inputPortId,
      ∃ executed time, c.executed = some executed ∧ message.2 = some time ∧ executed < time) :
    Promised (s.calls.map fun c => (c.after s.port).hear message) := by
  have gets {c : LinkCall} (waits : c ∈ s.waiting link.outputPortId link.inputPortId) {other : PwLink}
      {announced : Option Nat} (got : ((c.after s.port).hear message).outcome = .link other announced) :
      other = link ∧ announced = message.2 := by
    cases (hear_of_waiting about free waits).symm.trans got
    exact ⟨rfl, rfl⟩
  constructor
  · intro x mem other announced got
    obtain ⟨c, there, rfl⟩ := List.mem_map.mp mem
    rcases hear_link about there with kept | ⟨waits, _⟩
    · rw [kept] at got ⊢
      exact promised.asked _ (List.mem_map_of_mem there) other announced got
    · obtain ⟨rfl, rfl⟩ := gets waits got
      obtain ⟨_, _, output, input⟩ := mem_waiting.mp waits
      obtain ⟨output', input', _⟩ := LinkCall.after_fields (c.after s.port) [message]
      obtain ⟨output'', input'', _⟩ := c.after_fields s.port
      refine ⟨((output'.trans output'').trans output).symm, ((input'.trans input'').trans input).symm, ?_⟩
      rw [executed_hear]
      exact ran c waits
  · have old := List.pairwise_map.mp promised.distinct
    have alone := pairwise_of_filter_length few
    refine List.pairwise_map.mpr ((old.and alone).imp_of_mem ?_)
    rintro c d hc hd ⟨distinct, lone⟩ other announced other' announced' got got' ⟨sameId, sameTime⟩
    rcases hear_link about hc with kept | ⟨waits, _⟩
    · rw [kept] at got
      rcases hear_link about hd with kept' | ⟨waits', _⟩
      · rw [kept'] at got'
        exact distinct other announced other' announced' got got' ⟨sameId, sameTime⟩
      · obtain ⟨_, tag⟩ := gets waits' got'
        exact announced_apart h free same ran hc waits' got (sameTime.trans tag)
    · obtain ⟨_, tag⟩ := gets waits got
      rcases hear_link about hd with kept' | ⟨waits', _⟩
      · rw [kept'] at got'
        exact announced_apart h free same ran hd waits got' (sameTime.symm.trans tag)
      · exact lone ⟨(List.mem_filter.mp waits).2, (List.mem_filter.mp waits').2⟩

/-- The promise after one more message about a link whose records all name its ports. -/
theorem promised_hear_iff {s : LinkRequests} (h : s.Noted) (promised : Promised s.drained) {message : Value × Option Nat}
    {link : PwLink} (about : linkOf message.1 = some link)
    (same : ∀ other time, s.Recorded other time → message.2 = some time →
      other.outputPortId = link.outputPortId ∧ other.inputPortId = link.inputPortId) :
    Promised (s.calls.map fun c => (c.after s.port).hear message) ↔
      (¬s.UnderWay link.outputPortId link.inputPortId → (s.waiting link.outputPortId link.inputPortId).length ≤ 1 ∧
        ∀ c ∈ s.waiting link.outputPortId link.inputPortId,
          ∃ executed time, c.executed = some executed ∧ message.2 = some time ∧ executed < time) := by
  constructor
  · intro after free
    have got {c : LinkCall} (waits : c ∈ s.waiting link.outputPortId link.inputPortId) := hear_of_waiting about free waits
    refine ⟨filter_length_of_pairwise ((List.pairwise_map.mp after.distinct).imp_of_mem ?_), ?_⟩
    · intro c d hc hd distinct both
      have first := got (List.mem_filter.mpr ⟨hc, both.1⟩)
      have second := got (List.mem_filter.mpr ⟨hd, both.2⟩)
      exact distinct link message.2 link message.2 first second ⟨rfl, rfl⟩
    · intro c waits
      obtain ⟨_, _, time, since, ran, tag, before⟩ :=
        after.asked _ (List.mem_map_of_mem (mem_waiting.mp waits).1) link message.2 (got waits)
      exact ⟨time, since, (executed_hear c s.port message).symm.trans ran, tag, before⟩
  · intro timely
    by_cases free : s.UnderWay link.outputPortId link.inputPortId
    · have unheard : (s.calls.map fun c => (c.after s.port).hear message) = s.drained := by
        refine List.map_congr_left fun c mem => ?_
        rcases hear_link about mem with kept | ⟨_, none⟩
        · exact kept
        · exact absurd free none
      rw [unheard]
      exact promised
    · obtain ⟨few, ran⟩ := timely free
      exact promised_hear h promised about same free few ran

/-- An info that announces its link as added. -/
theorem settles_linkAdded {s : LinkRequests} (h : s.Noted) (settles : s.Settles) {id : UInt32} {info : PwLinkInfo}
    (steady : s.steady (.linkInfo id (some info)) = true) {old : LinkInfo} (here : s.monitor.links[id]? = some old)
    (first : old.state = "init") :
    (s.callback (.linkInfo id (some info))).Settles ↔ s.Timely (.callback (.linkInfo id (some info))) := by
  rw [settles_iff] at settles ⊢
  have about : linkOf (.obj (GraphEvent.linkAdded (old.update info)).toJson) = some (old.update info).image :=
    linkOf_toJson (.linkAdded (old.update info))
  have port : (s.callback (.linkInfo id (some info))).port =
      s.port ++ [(.obj (GraphEvent.linkAdded (old.update info)).toJson, s.announced id)] := by
    simp [callback, RegistryMonitor.call, RegistryMonitor.onLinkInfo, here, first, announcementOf]
  have calls : (s.callback (.linkInfo id (some info))).drained = s.calls.map fun c =>
      (c.after s.port).hear (.obj (GraphEvent.linkAdded (old.update info)).toJson, s.announced id) := by
    rw [drained, port]
    refine List.map_congr_left fun c _ => ?_
    rw [LinkCall.after_append]
    rfl
  have same : ∀ other time, s.Recorded other time → s.announced id = some time →
      other.outputPortId = (old.update info).image.outputPortId ∧ other.inputPortId = (old.update info).image.inputPortId := by
    intro other time recorded since
    obtain ⟨ports, held, output, input⟩ := h.ports other time recorded id since
    have kept : ports = (info.outputPortId, info.inputPortId) := by simpa [LinkRequests.steady, held] using steady
    rw [output, input, kept]
    exact ⟨rfl, rfl⟩
  rw [calls, promised_hear_iff h settles about same]
  exact ⟨fun timely _ => timely, fun timely => timely ⟨old, here, first⟩⟩

/-- Every other callback. -/
theorem settles_quiet {s : LinkRequests} (settles : s.Settles) {c : Callback}
    (quiet : ∀ id info old, c = .linkInfo id (some info) → s.monitor.links[id]? = some old → old.state ≠ "init") :
    (s.callback c).Settles ∧ s.Timely (.callback c) := by
  constructor
  · rw [settles_iff] at settles ⊢
    have unheard (d : LinkCall) : d.after (s.posted c) = d := by
      refine LinkCall.after_unheard fun message mem => ?_
      cases about : linkOf message.1 with
      | none => rfl
      | some link =>
        obtain ⟨id, info, old, rfl, here, first, _⟩ := posted_link mem about
        exact absurd first (quiet id info old rfl here)
    have calls : (s.callback c).drained = s.drained := by
      refine List.map_congr_left fun d _ => ?_
      show d.after (s.port ++ s.posted c) = _
      rw [LinkCall.after_append, unheard]
    rw [calls]
    exact settles
  · unfold Timely
    split
    next same => cases same
    next id info same =>
      cases same
      rintro ⟨old, here, first⟩
      exact absurd first (quiet id info old rfl here)
    next => trivial

theorem settles_fail {s : LinkRequests} (settles : s.Settles) (k : Nat) : Settles { s with
    calls := s.calls.modify k fun c => if c.outcome = .pending then { c with outcome := .error } else c } := by
  rw [settles_iff] at settles ⊢
  refine promised_of_below (below_modify fun c _ => ?_) settles
  split
  next pending =>
    obtain ⟨output, input, executed⟩ := c.after_fields s.port
    rw [LinkCall.after_done (by simp)]
    refine ⟨output.symm, input.symm, Or.inr executed.symm, ?_⟩
    rintro link announced ⟨⟩
  next => exact LinkCall.Below.refl _

/-- The command of a call has an effect on its promise only before it has got a link. -/
theorem settles_execute {s : LinkRequests} (h : s.Noted) (settles : s.Settles) {command : Command} {k : Nat}
    {rest : List (Command × Option Nat)} (queue : s.queue = (command, some k) :: rest) : Settles { s with
      queue := rest
      calls := s.calls.modify k fun c => { c with executed := some s.clock }
      clock := s.clock + 1 } := by
  rw [settles_iff] at settles ⊢
  obtain ⟨c', here', unexecuted⟩ := h.queued k (by simp [queue])
  refine promised_of_below (below_modify fun c here => ?_) settles
  cases here'.symm.trans here
  obtain ⟨output, input, executed⟩ := c'.after_fields s.port
  obtain ⟨output', input', _⟩ := LinkCall.after_fields { c' with executed := some s.clock } s.port
  refine ⟨output'.trans output.symm, input'.trans input.symm, Or.inl (executed.trans unexecuted), ?_⟩
  intro link announced got
  rwa [LinkCall.after_executed] at got

theorem settles_next {s t : LinkRequests} {l : LinkStep} (h : s.Noted) (settles : s.Settles) (step : s.next l = some t) :
    t.Settles ↔ s.Timely l := by
  cases l with
  | createLink outputPortId inputPortId pushed =>
    cases Option.some.inj step
    cases pushed with
    | true => exact settles_createLink settles outputPortId inputPortId
    | false =>
      refine iff_of_true ?_ trivial
      rw [settles_iff] at settles ⊢
      have calls : (s.createLink outputPortId inputPortId false).drained =
          s.drained ++ [LinkCall.after ⟨outputPortId, inputPortId, none, .error⟩ s.port] := by
        simp [drained, createLink]
      rw [calls, LinkCall.after_done (by simp)]
      exact promised_concat settles (by simp)
  | call c =>
    cases Option.some.inj step
    rw [settles_iff] at settles ⊢
    exact iff_of_true settles trivial
  | fail k =>
    cases Option.some.inj step
    exact iff_of_true (settles_fail settles k) trivial
  | execute =>
    simp only [next] at step
    split at step
    next => cases step
    next =>
      cases Option.some.inj step
      rw [settles_iff] at settles ⊢
      exact iff_of_true settles trivial
    next command k rest queue =>
      cases Option.some.inj step
      exact iff_of_true (settles_execute h settles queue) trivial
  | callback c =>
    obtain ⟨steady, same⟩ := Option.ite_none_right_eq_some.mp step
    cases Option.some.inj same
    by_cases adds : ∃ id info old, c = .linkInfo id (some info) ∧ s.monitor.links[id]? = some old ∧ old.state = "init"
    · obtain ⟨id, info, old, rfl, here, first⟩ := adds
      exact settles_linkAdded h settles steady here first
    · obtain ⟨settled, timely⟩ := settles_quiet settles fun id info old same here first =>
        adds ⟨id, info, old, same, here, first⟩
      exact iff_of_true settled timely
  | deliver =>
    simp only [next] at step
    split at step
    next => cases step
    next message rest port =>
      cases Option.some.inj step
      rw [settles_iff] at settles ⊢
      refine iff_of_true ?_ trivial
      simpa [drained, port, Function.comp_def] using settles

theorem settles_start : Settles {} := by
  rw [settles_iff]
  refine ⟨?_, List.Pairwise.nil⟩
  rintro c ⟨⟩

/-- A call only ever gets a link that was announced after it was executed, and gets it alone, exactly if
all steps are timely. -/
theorem createLink_promised_iff {s : LinkRequests} {ls : List LinkStep} (run : Run (Takes next) {} ls s) :
    (∀ pre t, pre <+: ls → Run (Takes next) {} pre t → t.Settles) ↔ Run (Guarded next Timely) {} ls s :=
  always_iff_guarded noted_start (fun _ _ _ => noted_next) settles_start (fun _ _ _ => settles_next) run

/-- As long as all steps are timely, every call that has got a link has got one that was announced after it was
executed, and has got it alone. -/
theorem promised_of_timely {s : LinkRequests} {ls : List LinkStep} (run : Run (Guarded next Timely) {} ls s) :
    Promised s.calls := by
  have settled : s.Noted ∧ s.Settles := by
    apply run.invariant ⟨noted_start, settles_start⟩
    rintro a l b ⟨noted, settles⟩ ⟨timely, step⟩
    exact ⟨noted_next noted step, (settles_next noted settles step).mpr timely⟩
  exact settled.2 0 _ Run.start

/-- The command of a call is executed, and the server announces the link and informs about it. -/
def oneCall : List LinkStep :=
  [.createLink 30 31 true, .execute, .callback (.global 40 (some interfaceLink) none (some 5)),
    .callback (.linkInfo 40 (some pausedLink)), .deliver]

theorem createLink_promised_iff_oneCall : ∃ s, Run (Takes next) {} oneCall s ∧ Promised s.calls ∧
    s.calls.map LinkCall.outcome ≠ [.pending] := by
  have run : Run (Takes next) {} oneCall _ := run_takes_iff.mpr rfl
  have called : Run (Guarded next Timely) {} (oneCall.take 1) _ :=
    Run.single ⟨(by rintro ⟨message, mem, _⟩; cases mem), rfl⟩
  have executed : Run (Guarded next Timely) {} (oneCall.take 2) _ := Run.next called ⟨trivial, rfl⟩
  have announced : Run (Guarded next Timely) {} (oneCall.take 3) _ := Run.next executed ⟨trivial, rfl⟩
  have informed : Run (Guarded next Timely) {} (oneCall.take 4) _ :=
    Run.next announced ⟨by
      rintro - -
      refine ⟨by decide, fun c waits => ?_⟩
      cases List.mem_singleton.mp (mem_waiting.mp waits).1
      exact ⟨0, 1, rfl, rfl, by decide⟩, rfl⟩
  have settles := (createLink_promised_iff run).mpr (Run.next informed ⟨trivial, rfl⟩) oneCall _
    (List.prefix_refl _) run
  exact ⟨_, run, settles 0 _ Run.start, by decide +kernel⟩

/-- Two calls for one pair of ports are answered by one link. -/
def twoCalls : List LinkStep :=
  [.createLink 30 31 true, .createLink 30 31 true, .execute, .execute,
    .callback (.global 40 (some interfaceLink) none (some 5)), .callback (.linkInfo 40 (some pausedLink)), .deliver]

theorem link_given_twice : ∃ s, Run (Takes next) {} twoCalls s ∧ ¬Promised s.calls ∧
    s.calls.map LinkCall.outcome =
      [.link ⟨40, 10, 30, 11, 31, .paused, [], ∅⟩ (some 2), .link ⟨40, 10, 30, 11, 31, .paused, [], ∅⟩ (some 2)] := by
  refine ⟨_, run_takes_iff.mpr rfl, fun promised => ?_, rfl⟩
  obtain ⟨apart, _⟩ := List.pairwise_cons.mp promised.distinct
  exact apart _ (List.mem_singleton_self _) _ _ _ _ rfl rfl ⟨rfl, rfl⟩

end LinkRequests

end PwDart
