import PwDart.HandshakeRounds

namespace PwDart

open LabelledRun MarkedQueue RegistryMonitor

namespace Handshake

theorem registered_of_head {seqs : SyncSeqs} {s : Handshake} (h : Shaken seqs s) {request : Request}
    {rest : List Request} (front : s.toServer = request :: rest) (other : request ≠ .getRegistry) :
    s.registered = true := by
  cases asked : s.registered with
  | true => rfl
  | false =>
    rw [(h.unregistered asked).1] at front
    exact absurd (List.cons.inj front).1.symm other

/-- The server announces its objects. -/
theorem shaken_getRegistry {seqs : SyncSeqs} {s : Handshake} (h : Shaken seqs s) {rest : List Request}
    (front : s.toServer = .getRegistry :: rest) :
    Shaken seqs { s with
      toServer := rest, registered := true, toClient := s.toClient ++ s.objects.map .global } := by
  have unasked : s.registered = false := by
    cases asked : s.registered with
    | false => rfl
    | true => exact absurd (by rw [front]; exact List.mem_cons_self ..) (h.registry_once asked)
  obtain ⟨toServer, toClient, view, stage, undone, unhandled⟩ := h.unregistered unasked
  obtain rfl : rest = [.sync seqs.first] := by
    rw [toServer] at front
    exact (List.cons.inj front).2.symm
  exact {
    tracks := h.tracks
    ids := h.ids
    unregistered := fun h => by cases h
    registry_once := fun _ => by simp
    replayed := fun _ => by
      rw [toClient, view]
      exact replayEvents_globals (by simpa using h.ids)
    own_seq := h.own_seq
    done_by_core := fun id seq hmem => by simp [toClient] at hmem
    first_unhandled := fun _ => ⟨stage, undone, fun id => by simp [toClient]⟩
    second_unsent := fun _ => ⟨by simpa using seqs.distinct.symm, fun id => by simp [toClient]⟩
    bound_le := h.bound_le
    found := fun present at_ => by
      rw [unhandled] at at_
      cases at_
    pending := fun object proxy hmem => by
      rw [view] at hmem
      cases hmem
    complete := h.complete }

/-- What the answers to the first request leave ahead, when the request is not what is waited for. -/
theorem pending_answer {seqs : SyncSeqs} {s t : Handshake} {object : ServerObject} {proxy : PwProxy}
    {kind : Kind} {request : Request} {answers : List ServerEvent} (front : s.toServer = request :: t.toServer)
    (behind : t.toClient = s.toClient ++ answers) {m : InFlight}
    (hm : m ∈ ahead (InFlight.ends seqs.second) s.pipeline) (answered : Answers object proxy kind m)
    (other : m ≠ .request request)
    (marks : ∀ e ∈ answers, InFlight.ends seqs.second (.event e) = true →
      InFlight.ends seqs.second (.request request) = true) :
    Pending seqs t object proxy kind := by
  refine ⟨m, ?_, answered⟩
  unfold pipeline at hm ⊢
  rw [front, List.map_cons] at hm
  rw [behind, List.map_append, List.append_assoc]
  refine mem_ahead_replace hm other fun y hy => ?_
  obtain ⟨e, he, rfl⟩ := List.mem_map.mp hy
  exact marks e he

/-- The server handles a bind or a sync, with infos or the done of the sync as its answers. -/
theorem shaken_answered {seqs : SyncSeqs} {s : Handshake} (h : Shaken seqs s) {request : Request}
    {rest : List Request} (front : s.toServer = request :: rest) (other : request ≠ .getRegistry)
    {answers : List ServerEvent} {handled : Option (List ServerObject)}
    (kinds : ∀ e ∈ answers, (∃ proxy report, e = .info proxy report) ∨
      ∃ seq, request = .sync seq ∧ e = .done PW_ID_CORE seq)
    (unhandled : handled = none → s.atFirstSync = none ∧ request ≠ .sync seqs.first)
    (found : ∀ present, handled = some present → s.atFirstSync ≠ some present →
      s.stage = .first ∧ s.sync.syncDone = false ∧ (∀ id, .done id seqs.first ∉ s.toClient) ∧
        present = s.objects)
    (pending : ∀ object proxy, (object, proxy) ∈ s.view → ∀ kind, object.kind = some kind →
      Pending seqs s object proxy kind →
        Pending seqs { s with
          toServer := rest, toClient := s.toClient ++ answers, atFirstSync := handled } object proxy kind) :
    Shaken seqs { s with
      toServer := rest, toClient := s.toClient ++ answers, atFirstSync := handled } := by
  have asked : s.registered = true := registered_of_head h front other
  have sub {r : Request} (hr : r ∈ rest) : r ∈ s.toServer := by
    rw [front]
    exact List.mem_cons_of_mem _ hr
  have kept {id : UInt32} {n : Int} (hmem : .done id n ∈ s.toClient ++ answers) :
      .done id n ∈ s.toClient ∨ (id = PW_ID_CORE ∧ request = .sync n) := by
    rcases List.mem_append.mp hmem with hmem | hmem
    · exact Or.inl hmem
    · rcases kinds _ hmem with ⟨_, _, same⟩ | ⟨seq, request, same⟩
      · cases same
      · cases same
        exact Or.inr ⟨rfl, request⟩
  exact {
    tracks := h.tracks
    ids := h.ids
    unregistered := fun unasked => absurd asked (by simp [show s.registered = false from unasked])
    registry_once := fun _ hmem => h.registry_once asked (sub hmem)
    replayed := fun _ => by
      rw [replayEvents_append, h.replayed asked]
      refine replayEvents_silent fun e he => (kinds e he).imp_right ?_
      rintro ⟨seq, _, same⟩
      exact ⟨_, seq, same⟩
    own_seq := h.own_seq
    done_by_core := fun id n hmem => (kept hmem).elim (h.done_by_core id n) And.left
    first_unhandled := fun none => by
      obtain ⟨before, notFirst⟩ := unhandled none
      obtain ⟨stage, undone, absent⟩ := h.first_unhandled before
      exact ⟨stage, undone, fun id hmem => (kept hmem).elim (absent id) fun same => notFirst same.2⟩
    second_unsent := fun stage => by
      obtain ⟨unsent, absent⟩ := h.second_unsent stage
      refine ⟨fun hmem => unsent (sub hmem), fun id hmem => ?_⟩
      rcases kept hmem with hmem | ⟨_, same⟩
      · exact absent id hmem
      · exact unsent (by rw [front, same]; exact List.mem_cons_self ..)
    bound_le := h.bound_le
    found := fun present at_ object hobject => by
      by_cases before : s.atFirstSync = some present
      · exact (h.found present before object hobject).imp_right fun rest =>
          rest.imp_right fun ⟨stage, undone, hmem⟩ => ⟨stage, undone, mem_ahead_append hmem _⟩
      · obtain ⟨stage, undone, absent, rfl⟩ := found present at_ before
        rcases mem_of_replayEvents (h.replayed asked) hobject with viewed | announced
        · obtain ⟨⟨_, proxy⟩, hmem, rfl⟩ := List.mem_map.mp viewed
          exact Or.inr (Or.inl ⟨proxy, hmem, fun later => absurd stage later⟩)
        · refine Or.inr (Or.inr ⟨stage, undone, mem_ahead_append ?_ _⟩)
          rw [ahead_of_unmarked]
          · exact announced
          · intro e he
            cases e with
            | done id n =>
              have other : n ≠ seqs.first := fun same => absent id (same ▸ he)
              simp [ServerEvent.ends, other]
            | global | globalRemove | info => rfl
    pending := fun object proxy hmem early kind known =>
      (h.pending object proxy hmem early kind known).imp_right (pending object proxy hmem kind known)
    complete := h.complete }

/-- A bind in front of the end of the round is answered there, or its object is being removed. -/
theorem pending_bind {seqs : SyncSeqs} {s t : Handshake} (h : Shaken seqs s) {object : ServerObject}
    {proxy : PwProxy} {kind : Kind} (front : s.toServer = .bind object.id proxy :: t.toServer)
    {answers : List ServerEvent} (behind : t.toClient = s.toClient ++ answers)
    (infos : ∀ e ∈ answers, ∃ report, e = .info proxy report)
    (live : object ∈ s.objects → ∃ report : InfoReport, .info proxy report ∈ answers ∧ report.kind = kind)
    (viewed : (object, proxy) ∈ s.view)
    (hm : .request (.bind object.id proxy) ∈ ahead (InFlight.ends seqs.second) s.pipeline) :
    Pending seqs t object proxy kind := by
  have free : ∀ y ∈ s.toClient.map InFlight.event, InFlight.ends seqs.second y = false :=
    unmarked_of_mem_ahead hm (by simp)
  have unmarked : ∀ y ∈ t.toClient.map InFlight.event, InFlight.ends seqs.second y = false := by
    intro y hy
    rw [behind, List.map_append] at hy
    rcases List.mem_append.mp hy with hy | hy
    · exact free y hy
    · obtain ⟨e, he, rfl⟩ := List.mem_map.mp hy
      obtain ⟨report, rfl⟩ := infos e he
      rfl
  have arriving {e : ServerEvent} (he : e ∈ t.toClient) :
      .event e ∈ ahead (InFlight.ends seqs.second) t.pipeline := by
    unfold pipeline
    rw [ahead_append_of_unmarked unmarked]
    exact List.mem_append_left _ (List.mem_map_of_mem he)
  have asked : s.registered = true := registered_of_head h front (by simp)
  rcases kept_of_replayEvents (h.replayed asked) (List.mem_map_of_mem viewed) with here | removed
  · obtain ⟨report, hanswer, sameKind⟩ := live here
    refine ⟨_, arriving ?_, Or.inr (Or.inl ⟨report, rfl, sameKind⟩)⟩
    rw [behind]
    exact List.mem_append_right _ hanswer
  · refine ⟨_, arriving ?_, Or.inr (Or.inr rfl)⟩
    rw [behind]
    exact List.mem_append_left _ removed

/-- The server answers a bind, if the object is live. -/
theorem shaken_bind {seqs : SyncSeqs} {s : Handshake} (h : Shaken seqs s) {id : UInt32} {bound : PwProxy}
    {rest : List Request} (front : s.toServer = .bind id bound :: rest) {answers : List ServerEvent}
    (infos : ∀ e ∈ answers, ∃ report, e = .info bound report)
    (live : ∀ object ∈ s.objects, object.id = id → ∀ kind, object.kind = some kind →
      ∃ report : InfoReport, .info bound report ∈ answers ∧ report.kind = kind) :
    Shaken seqs { s with toServer := rest, toClient := s.toClient ++ answers } := by
  refine shaken_answered h front (by simp) (fun e he => ?_) (fun none => ⟨none, by simp⟩)
    (fun present same other => absurd same other) fun object proxy hmem kind known waiting => ?_
  · obtain ⟨report, same⟩ := infos e he
    exact Or.inl ⟨bound, report, same⟩
  · obtain ⟨m, hm, answered⟩ := waiting
    by_cases other : m = .request (.bind id bound)
    · subst other
      obtain ⟨rfl, rfl⟩ : id = object.id ∧ bound = proxy := by
        rcases answered with same | ⟨_, same, _⟩ | same
        · simpa using same
        · cases same
        · cases same
      exact pending_bind h front rfl infos (fun here => live object here rfl kind known) hmem hm
    · refine pending_answer front rfl hm answered other fun e he marked => ?_
      obtain ⟨report, rfl⟩ := infos e he
      cases marked

/-- The server answers a sync. -/
theorem shaken_sync {seqs : SyncSeqs} {s : Handshake} (h : Shaken seqs s) {seq : Int}
    {rest : List Request} (front : s.toServer = .sync seq :: rest) :
    Shaken seqs { s with
      toServer := rest
      toClient := s.toClient ++ [.done PW_ID_CORE seq]
      atFirstSync := if s.atFirstSync = none ∧ seq = seqs.first then some s.objects else s.atFirstSync } := by
  refine shaken_answered h front (by simp)
    (fun e he => Or.inr ⟨seq, rfl, List.mem_singleton.mp he⟩) (fun none => ?_)
    (fun present at_ other => ?_) fun object proxy hmem kind known waiting => ?_
  · split at none
    next => cases none
    next other => exact ⟨none, fun same => other ⟨none, Request.sync.inj same⟩⟩
  · split at at_
    next now =>
      obtain ⟨stage, undone, absent⟩ := h.first_unhandled now.1
      exact ⟨stage, undone, absent, (Option.some.inj at_).symm⟩
    next => exact absurd at_ other
  · obtain ⟨m, hm, answered⟩ := waiting
    refine pending_answer front rfl hm answered ?_ fun e he marked => ?_
    · rintro rfl
      rcases answered with same | ⟨_, same, _⟩ | same <;> cases same
    · cases List.mem_singleton.mp he
      exact marked

theorem shaken_handle {seqs : SyncSeqs} {s t : Handshake} (h : Shaken seqs s) {report : InfoReport}
    (step : s.next seqs (.handle report) = some t) : Shaken seqs t := by
  change s.handle seqs report = some t at step
  unfold handle at step
  split at step
  next => cases step
  next rest front =>
    cases Option.some.inj step
    exact shaken_getRegistry h front
  next id proxy rest front =>
    split at step
    next gone =>
      cases Option.some.inj step
      have absent := List.find?_eq_none.mp gone
      have silent : Shaken seqs { s with toServer := rest, toClient := s.toClient ++ [] } :=
        shaken_bind h front (by simp) fun object hobject same =>
          absurd same (by simpa using absent object hobject)
      simpa using silent
    next live found =>
      have here : live ∈ s.objects ∧ live.id = id :=
        ⟨List.mem_of_find?_eq_some found, by simpa using List.find?_some found⟩
      have only {object : ServerObject} (hobject : object ∈ s.objects) (same : object.id = id) :
          object = live :=
        List.inj_on_of_nodup_map h.ids hobject here.1 (same.trans here.2.symm)
      split at step
      next unknown =>
        cases Option.some.inj step
        have silent : Shaken seqs { s with toServer := rest, toClient := s.toClient ++ [] } :=
          shaken_bind h front (by simp) fun object hobject same kind known => by
            cases only hobject same
            rw [unknown] at known
            cases known
        simpa using silent
      next =>
        obtain ⟨sameKind, same⟩ := Option.ite_none_right_eq_some.mp step
        cases Option.some.inj same
        refine shaken_bind h front (fun e he => ⟨report, List.mem_singleton.mp he⟩)
          fun object hobject same kind known => ⟨report, List.mem_singleton.mpr rfl, ?_⟩
        cases only hobject same
        exact Option.some.inj (sameKind.symm.trans known)
  next seq rest front =>
    cases Option.some.inj step
    exact shaken_sync h front

end Handshake

end PwDart
