import PwDart.HandshakeServer

namespace PwDart

open LabelledRun MarkedQueue RegistryMonitor

namespace Handshake

theorem registered_of_event {seqs : SyncSeqs} {s : Handshake} (h : Shaken seqs s) {event : ServerEvent}
    {rest : List ServerEvent} (front : s.toClient = event :: rest) : s.registered = true := by
  cases asked : s.registered with
  | true => rfl
  | false =>
    rw [(h.unregistered asked).2.1] at front
    cases front

/-- What is pending is still on its way after an event that does not bring it. -/
theorem pending_receive {seqs : SyncSeqs} {s t : Handshake} {object : ServerObject} {proxy : PwProxy}
    {kind : Kind} (h : Pending seqs s object proxy kind) {event : ServerEvent} {sent : List Request}
    (front : s.toClient = event :: t.toClient) (behind : t.toServer = s.toServer ++ sent)
    (other : ¬Answers object proxy kind (.event event)) :
    InFlight.ends seqs.second (.event event) = false ∧ Pending seqs t object proxy kind := by
  obtain ⟨m, hm, answered⟩ := h
  unfold pipeline at hm
  rw [front, List.map_cons, List.cons_append] at hm
  obtain ⟨unmarked, rfl | later⟩ := mem_ahead_cons hm
  · exact absurd answered other
  · refine ⟨unmarked, m, ?_, answered⟩
    unfold pipeline
    rw [behind, List.map_append, ← List.append_assoc]
    exact mem_ahead_append later _

theorem found_in_view {seqs : SyncSeqs} {s t : Handshake} (h : Shaken seqs s) {event : ServerEvent}
    (front : s.toClient = event :: t.toClient) (stage : t.stage = s.stage) (bound : t.bound = s.bound)
    (handled : t.atFirstSync = s.atFirstSync)
    (kept : ∀ object, object ∈ s.deleted → object ∈ t.deleted)
    (viewed : ∀ object proxy, (object, proxy) ∈ s.view → object ∈ t.deleted ∨ (object, proxy) ∈ t.view)
    (undone : ServerEvent.ends seqs.first event = false → s.stage = .first →
      s.sync.syncDone = false → t.sync.syncDone = false)
    (here : ∀ object, event = .global object → s.stage = .first → ∃ proxy, (object, proxy) ∈ t.view)
    (present : List ServerObject) (at_ : t.atFirstSync = some present) (object : ServerObject)
    (hobject : object ∈ present) :
    object ∈ t.deleted ∨
      (∃ proxy, (object, proxy) ∈ t.view ∧ (t.stage ≠ .first → proxy < t.bound)) ∨
      (t.stage = .first ∧ t.sync.syncDone = false ∧
        .global object ∈ ahead (ServerEvent.ends seqs.first) t.toClient) := by
  rw [stage, bound]
  rcases h.found present (handled ▸ at_) object hobject with gone | ⟨proxy, hmem, early⟩ |
      ⟨first, open_, coming⟩
  · exact Or.inl (kept object gone)
  · exact (viewed object proxy hmem).imp_right fun hmem => Or.inl ⟨proxy, hmem, early⟩
  · rw [front] at coming
    obtain ⟨unmarked, same | later⟩ := mem_ahead_cons coming
    · obtain ⟨proxy, hmem⟩ := here object same.symm first
      exact Or.inr (Or.inl ⟨proxy, hmem, fun second => absurd first second⟩)
    · exact Or.inr (Or.inr ⟨first, undone unmarked first open_, later⟩)

theorem informed_of_unrelated {kind : Kind} {id : UInt32} {calls : List Callback} {c : Callback}
    (other : c.lifetimeOf ≠ some id) (h : informed kind id calls) : informed kind id (calls ++ [c]) := by
  rw [informed_append_singleton, if_neg other]
  split
  next => rfl
  next => exact h

theorem callback_about (id : UInt32) (report : InfoReport) :
    (report.callback id).infoTarget = some (report.kind, id) ∧ (report.callback id).lifetimeOf = none := by
  cases report <;> exact ⟨rfl, rfl⟩

/-- The client handles an event that leaves its sync state alone. -/
theorem shaken_received {seqs : SyncSeqs} {s t : Handshake} (h : Shaken seqs s) {event : ServerEvent}
    {sent : List Request} (front : s.toClient = event :: t.toClient) (objects : t.objects = s.objects)
    (registered : t.registered = s.registered) (behind : t.toServer = s.toServer ++ sent)
    (binds : ∀ r ∈ sent, ∃ id proxy, r = .bind id proxy) (stage : t.stage = s.stage)
    (sync : t.sync = s.sync) (handled : t.atFirstSync = s.atFirstSync) (bound : t.bound = s.bound)
    (grown : s.nextProxy ≤ t.nextProxy) (tracks : Tracks t.monitor t.view t.nextProxy)
    (replayed : replayEvents (t.view.map Prod.fst) t.toClient = some t.objects)
    (kept : ∀ object, object ∈ s.deleted → object ∈ t.deleted)
    (viewed : ∀ object proxy, (object, proxy) ∈ s.view → object ∈ t.deleted ∨ (object, proxy) ∈ t.view)
    (here : ∀ object, event = .global object → s.stage = .first → ∃ proxy, (object, proxy) ∈ t.view)
    (pending : ∀ object proxy, (object, proxy) ∈ t.view → s.stage = .first ∨ proxy < s.bound →
      ∀ kind, object.kind = some kind →
        informed kind object.id t.calls ∨ Pending seqs t object proxy kind)
    (complete : s.stage ≠ .first → ∀ object proxy, (object, proxy) ∈ t.view → proxy < s.bound →
      ∀ kind, object.kind = some kind → (object, proxy) ∈ s.view ∧
        (informed kind object.id s.calls → informed kind object.id t.calls)) :
    Shaken seqs t := by
  have asked : s.registered = true := registered_of_event h front
  have sub {e : ServerEvent} (he : e ∈ t.toClient) : e ∈ s.toClient := by
    rw [front]
    exact List.mem_cons_of_mem _ he
  exact {
    tracks := tracks
    ids := by rw [objects]; exact h.ids
    unregistered := fun unasked => by rw [registered, asked] at unasked; cases unasked
    registry_once := fun _ hmem => by
      rw [behind] at hmem
      rcases List.mem_append.mp hmem with hmem | hmem
      · exact h.registry_once asked hmem
      · obtain ⟨id, proxy, same⟩ := binds _ hmem
        cases same
    replayed := fun _ => replayed
    own_seq := by rw [sync, stage]; exact h.own_seq
    done_by_core := fun id seq hmem => h.done_by_core id seq (sub hmem)
    first_unhandled := fun none => by
      obtain ⟨first, undone, absent⟩ := h.first_unhandled (handled ▸ none)
      exact ⟨stage.trans first, by rw [sync]; exact undone, fun id hmem => absent id (sub hmem)⟩
    second_unsent := fun first => by
      obtain ⟨unsent, absent⟩ := h.second_unsent (stage ▸ first)
      refine ⟨fun hmem => ?_, fun id hmem => absent id (sub hmem)⟩
      rw [behind] at hmem
      rcases List.mem_append.mp hmem with hmem | hmem
      · exact unsent hmem
      · obtain ⟨id, proxy, same⟩ := binds _ hmem
        cases same
    bound_le := fun later => by
      rw [bound]
      exact Nat.le_trans (h.bound_le (stage ▸ later)) grown
    found := found_in_view h front stage bound handled kept viewed
      (fun _ _ undone => by rw [sync]; exact undone) here
    pending := by rw [stage, bound]; exact pending
    complete := fun ended object proxy hmem early kind known => by
      rw [stage, sync] at ended
      rw [bound] at early
      have later : s.stage ≠ .first := by
        rintro first
        rcases ended with ⟨second, _⟩ | settled <;> simp_all
      obtain ⟨hmem, still⟩ := complete later object proxy hmem early kind known
      exact still (h.complete ended object proxy hmem early kind known) }

theorem shaken_global {seqs : SyncSeqs} {s : Handshake} (h : Shaken seqs s) {object : ServerObject}
    {rest : List ServerEvent} (front : s.toClient = .global object :: rest) :
    Shaken seqs (s.receive rest (.global object)) := by
  have replayed := h.replayed (registered_of_event h front)
  rw [front] at replayed
  obtain ⟨free, replayed⟩ := Option.ite_none_right_eq_some.mp replayed
  have apart : ∀ entry ∈ s.view, entry.1.id ≠ object.id := fun entry hentry =>
    free entry.1 (List.mem_map_of_mem hentry)
  have still {o : ServerObject} {p : PwProxy} (hmem : (o, p) ∈ s.view) {kind : Kind}
      (known : informed kind o.id s.calls) :
      informed kind o.id (s.calls ++ [.global object.id object.type object.props (some s.nextProxy)]) :=
    informed_of_unrelated (by simpa [Callback.lifetimeOf] using (apart (o, p) hmem).symm) known
  have old {o : ServerObject} {p : PwProxy} (hmem : (o, p) ∈ s.view ++ [(object, s.nextProxy)])
      (later : s.stage ≠ .first) (early : p < s.bound) : (o, p) ∈ s.view := by
    rcases List.mem_append.mp hmem with hmem | hmem
    · exact hmem
    · cases List.mem_singleton.mp hmem
      exact absurd (Nat.lt_of_lt_of_le early (h.bound_le later)) (Nat.lt_irrefl _)
  refine shaken_received (t := s.receive rest (.global object)) h front rfl rfl rfl ?_ rfl rfl rfl rfl
    (Nat.le_succ _) (tracks_global h.tracks apart) ?_ (fun _ h => h)
    (fun o p hmem => Or.inr (List.mem_append_left _ hmem)) ?_ ?_ ?_
  · intro r hr
    split at hr
    next => cases hr
    next => exact ⟨_, _, List.mem_singleton.mp hr⟩
  · change replayEvents ((s.view ++ [(object, s.nextProxy)]).map Prod.fst) rest = some s.objects
    rw [List.map_append]
    exact replayed
  · rintro _ same _
    cases same
    exact ⟨s.nextProxy, List.mem_append_right _ (List.mem_singleton.mpr rfl)⟩
  · intro o p hmem early kind known
    rcases List.mem_append.mp hmem with hold | hnew
    · refine (h.pending o p hold early kind known).imp (still hold) fun pending => ?_
      refine (pending_receive pending front rfl ?_).2
      rintro (same | ⟨_, same, _⟩ | same) <;> cases same
    · cases List.mem_singleton.mp hnew
      by_cases first : s.stage = .first
      · obtain ⟨unsent, absent⟩ := h.second_unsent first
        have bind : Request.bind object.id s.nextProxy ∈ (s.receive rest (.global object)).toServer := by
          simp [receive, known]
        refine Or.inr ⟨.request (.bind object.id s.nextProxy), ?_, Or.inl rfl⟩
        rw [ahead_of_unmarked]
        · exact List.mem_append_right _ (List.mem_map_of_mem bind)
        · intro y hy
          rcases List.mem_append.mp hy with hy | hy
          · obtain ⟨e, he, rfl⟩ := List.mem_map.mp hy
            cases e with
            | done id n =>
              have other : n ≠ seqs.second := fun same =>
                absent id (by rw [front]; exact List.mem_cons_of_mem _ (same ▸ he))
              simp [InFlight.ends, other]
            | global | globalRemove | info => rfl
          · obtain ⟨r, hr, rfl⟩ := List.mem_map.mp hy
            cases r with
            | sync n =>
              have other : n ≠ seqs.second := by
                rintro rfl
                simp only [receive, known, reduceCtorEq, if_false] at hr
                rcases List.mem_append.mp hr with hr | hr
                · exact unsent hr
                · simp at hr
              simp [InFlight.ends, other]
            | getRegistry | bind => rfl
      · exact absurd (Nat.lt_of_lt_of_le (early.resolve_left first) (h.bound_le first)) (Nat.lt_irrefl _)
  · exact fun later o p hmem early kind known => ⟨old hmem later early, still (old hmem later early)⟩

theorem shaken_globalRemove {seqs : SyncSeqs} {s : Handshake} (h : Shaken seqs s) {object : ServerObject}
    {rest : List ServerEvent} (front : s.toClient = .globalRemove object :: rest) :
    Shaken seqs (s.receive rest (.globalRemove object)) := by
  have replayed := h.replayed (registered_of_event h front)
  rw [front] at replayed
  obtain ⟨present, replayed⟩ := Option.ite_none_right_eq_some.mp replayed
  obtain ⟨⟨other, proxy⟩, hpresent, same⟩ := List.mem_map.mp present
  replace hpresent : (object, proxy) ∈ s.view := by
    rw [← same]
    exact hpresent
  have sub {o : ServerObject} {p : PwProxy}
      (hmem : (o, p) ∈ s.view.filter fun entry => entry.1 ≠ object) : (o, p) ∈ s.view ∧ o ≠ object := by
    simpa using List.mem_filter.mp hmem
  have still {o : ServerObject} {p : PwProxy}
      (hmem : (o, p) ∈ s.view.filter fun entry => entry.1 ≠ object) {kind : Kind}
      (known : informed kind o.id s.calls) : informed kind o.id (s.calls ++ [.globalRemove object.id]) := by
    obtain ⟨hmem, other⟩ := sub hmem
    refine informed_of_unrelated (fun same => other ?_) known
    cases h.tracks.same_entry hmem hpresent (Option.some.inj same).symm
    rfl
  refine shaken_received (t := s.receive rest (.globalRemove object)) h front rfl rfl
    (List.append_nil _).symm (by simp) rfl rfl rfl rfl (Nat.le_refl _) (tracks_remove h.tracks hpresent)
    ?_ (fun o => List.mem_append_left _) ?_ (by simp) ?_ ?_
  · change replayEvents ((s.view.filter fun entry => entry.1 ≠ object).map Prod.fst) rest = some s.objects
    rw [← replayed, List.filter_map]
    rfl
  · intro o p hmem
    by_cases same : o = object
    · exact Or.inl (List.mem_append_right _ (List.mem_singleton.mpr same))
    · exact Or.inr (List.mem_filter.mpr ⟨hmem, by simpa using same⟩)
  · intro o p hmem early kind known
    refine (h.pending o p (sub hmem).1 early kind known).imp (still hmem) fun pending => ?_
    refine And.right (pending_receive pending front (List.append_nil _).symm ?_)
    rintro (same | ⟨_, same, _⟩ | same)
    · cases same
    · cases same
    · cases same
      exact (sub hmem).2 rfl
  · exact fun _ o p hmem _ kind _ => ⟨(sub hmem).1, still hmem⟩

theorem shaken_info {seqs : SyncSeqs} {s : Handshake} (h : Shaken seqs s) {bound : PwProxy}
    {report : InfoReport} {rest : List ServerEvent} (front : s.toClient = .info bound report :: rest) :
    Shaken seqs (s.receive rest (.info bound report)) := by
  have replayed := h.replayed (registered_of_event h front)
  rw [front] at replayed
  cases reached : s.monitor.proxyId bound with
  | none =>
    simp only [receive, reached]
    refine shaken_received (t := { s with toClient := rest }) h front rfl rfl
      (List.append_nil _).symm (by simp) rfl rfl rfl rfl (Nat.le_refl _) h.tracks replayed (fun _ h => h)
      (fun _ _ => Or.inr) (by simp) ?_ fun _ o p hmem _ kind _ => ⟨hmem, fun h => h⟩
    intro o p hmem early kind known
    refine (h.pending o p hmem early kind known).imp_right fun pending => ?_
    refine And.right (pending_receive pending front (List.append_nil _).symm ?_)
    rintro (same | ⟨_, same, _⟩ | same)
    · cases same
    · cases same
      rw [proxyId_eq h.tracks hmem known] at reached
      cases reached
    · cases same
  | some id =>
    simp only [receive, reached]
    obtain ⟨about, quiet⟩ := callback_about id report
    have still {o : ServerObject} {kind : Kind} (known : informed kind o.id s.calls) :
        informed kind o.id (s.calls ++ [report.callback id]) :=
      informed_of_unrelated (by simp [quiet]) known
    refine shaken_received (t := { s with
        toClient := rest, monitor := (s.monitor.call (report.callback id)).1,
        calls := s.calls ++ [report.callback id] }) h front rfl rfl
      (List.append_nil _).symm (by simp) rfl rfl rfl rfl (Nat.le_refl _) (tracks_info h.tracks about)
      replayed (fun _ h => h) (fun _ _ => Or.inr) (by simp) ?_
      fun _ o p hmem _ kind _ => ⟨hmem, still⟩
    intro o p hmem early kind known
    rcases h.pending o p hmem early kind known with now | pending
    · exact Or.inl (still now)
    · by_cases answered : Answers o p kind (.event (.info bound report))
      · left
        rcases answered with same | ⟨_, same, sameKind⟩ | same
        · cases same
        · cases same
          rw [proxyId_eq h.tracks hmem known] at reached
          rw [informed_append_singleton, about, sameKind, Option.some.inj reached, if_pos rfl]
        · cases same
      · exact Or.inr (And.right (pending_receive pending front (List.append_nil _).symm answered))

theorem syncSeq_onCoreDone (sync : SyncState) (id : UInt32) (seq : Int) :
    (sync.onCoreDone id seq).syncSeq = sync.syncSeq := by
  unfold SyncState.onCoreDone
  split <;> rfl

theorem syncDone_onCoreDone (sync : SyncState) (id : UInt32) (seq : Int) :
    (sync.onCoreDone id seq).syncDone = true ↔
      sync.syncDone = true ∨ (id = PW_ID_CORE ∧ seq = sync.syncSeq) := by
  unfold SyncState.onCoreDone
  split
  next h => simp [h]
  next h => simp [h]

theorem shaken_done {seqs : SyncSeqs} {s : Handshake} (h : Shaken seqs s) {id : UInt32} {seq : Int}
    {rest : List ServerEvent} (unsettled : s.stage ≠ .settled) (front : s.toClient = .done id seq :: rest) :
    Shaken seqs (s.receive rest (.done id seq)) := by
  have asked : s.registered = true := registered_of_event h front
  have replayed := h.replayed asked
  rw [front] at replayed
  have sub {e : ServerEvent} (he : e ∈ rest) : e ∈ s.toClient := by
    rw [front]
    exact List.mem_cons_of_mem _ he
  have open_ (first : s.stage = .first) (other : seq ≠ seqs.first) (undone : s.sync.syncDone = false) :
      (s.sync.onCoreDone id seq).syncDone = false := by
    have own : s.sync.syncSeq = seqs.first := by rw [h.own_seq, if_pos first]
    cases ended : (s.sync.onCoreDone id seq).syncDone with
    | false => rfl
    | true =>
      rcases (syncDone_onCoreDone s.sync id seq).mp ended with done | ⟨_, same⟩
      · rw [undone] at done
        cases done
      · exact absurd (same.trans own) other
  have silent {o : ServerObject} {p : PwProxy} {kind : Kind} (pending : Pending seqs s o p kind) :=
    pending_receive (t := s.receive rest (.done id seq)) pending front (List.append_nil _).symm
      (by rintro (same | ⟨_, same, _⟩ | same) <;> cases same)
  exact {
    tracks := h.tracks
    ids := h.ids
    unregistered := fun unasked => absurd asked (by simp [show s.registered = false from unasked])
    registry_once := h.registry_once
    replayed := fun _ => replayed
    own_seq := (syncSeq_onCoreDone s.sync id seq).trans h.own_seq
    done_by_core := fun i n hmem => h.done_by_core i n (sub hmem)
    first_unhandled := fun none => by
      obtain ⟨first, undone, absent⟩ := h.first_unhandled none
      have other : seq ≠ seqs.first := fun same =>
        absent id (by rw [front, same]; exact List.mem_cons_self ..)
      exact ⟨first, open_ first other undone, fun i hmem => absent i (sub hmem)⟩
    second_unsent := fun first => by
      obtain ⟨unsent, absent⟩ := h.second_unsent first
      exact ⟨unsent, fun i hmem => absent i (sub hmem)⟩
    bound_le := h.bound_le
    found := found_in_view (t := s.receive rest (.done id seq)) h front rfl rfl rfl (fun _ h => h)
      (fun _ _ => Or.inr) (fun unmarked first undone =>
        open_ first (by simpa [ServerEvent.ends] using unmarked) undone) (by simp)
    pending := fun o p hmem early kind known =>
      (h.pending o p hmem early kind known).imp_right fun pending => (silent pending).2
    complete := fun ended o p hmem early kind known => by
      rcases ended with ⟨second, ended⟩ | settled
      · rcases (syncDone_onCoreDone s.sync id seq).mp ended with done | ⟨_, same⟩
        · exact h.complete (Or.inl ⟨second, done⟩) o p hmem early kind known
        · have own : s.sync.syncSeq = seqs.second := by
            rw [h.own_seq, if_neg (by rw [show s.stage = .second from second]; simp)]
          rcases h.pending o p hmem (Or.inr early) kind known with now | pending
          · exact now
          · have unmarked := (silent pending).1
            simp [InFlight.ends, same, own] at unmarked
      · exact absurd settled unsettled }

theorem shaken_receive {seqs : SyncSeqs} {s t : Handshake} (h : Shaken seqs s)
    (step : s.next seqs .receive = some t) : Shaken seqs t := by
  simp only [next] at step
  split at step
  next => cases step
  next event rest front =>
    obtain ⟨unsettled, same⟩ := Option.ite_none_left_eq_some.mp step
    cases Option.some.inj same
    cases event with
    | global object => exact shaken_global h front
    | globalRemove object => exact shaken_globalRemove h front
    | info proxy report => exact shaken_info h front
    | done id seq => exact shaken_done h unsettled front

end Handshake

end PwDart
