import PwDart.HandshakeClient

namespace PwDart

open LabelledRun MarkedQueue RegistryMonitor

namespace Handshake

/-- What a stage that has ended the first round says of the state it ended in. -/
theorem handled_of_done {seqs : SyncSeqs} {s : Handshake} (h : Shaken seqs s)
    (ended : s.stage = .first → s.sync.syncDone = true) :
    s.registered = true ∧ ∃ present, s.atFirstSync = some present := by
  constructor
  · cases asked : s.registered with
    | true => rfl
    | false =>
      obtain ⟨_, _, _, first, undone, _⟩ := h.unregistered asked
      rw [ended first] at undone
      cases undone
  · cases handled : s.atFirstSync with
    | some present => exact ⟨present, rfl⟩
    | none =>
      obtain ⟨first, undone, _⟩ := h.first_unhandled handled
      rw [ended first] at undone
      cases undone

theorem shaken_nextRound {seqs : SyncSeqs} {s t : Handshake} (h : Shaken seqs s)
    (step : s.next seqs .nextRound = some t) : Shaken seqs t := by
  obtain ⟨⟨first, done⟩, same⟩ := Option.ite_none_right_eq_some.mp step
  cases Option.some.inj same
  obtain ⟨asked, present, handled⟩ := handled_of_done h fun _ => done
  exact {
    tracks := h.tracks
    ids := h.ids
    unregistered := fun unasked => absurd asked (by simp [show s.registered = false from unasked])
    registry_once := fun _ hmem => h.registry_once asked (by simpa using hmem)
    replayed := h.replayed
    own_seq := rfl
    done_by_core := h.done_by_core
    first_unhandled := fun unhandled => by cases handled.symm.trans unhandled
    second_unsent := fun first => by cases first
    bound_le := fun _ => Nat.le_refl _
    found := fun present at_ object hobject => by
      rcases h.found present at_ object hobject with gone | ⟨proxy, hmem, _⟩ | ⟨_, undone, _⟩
      · exact Or.inl gone
      · exact Or.inr (Or.inl ⟨proxy, hmem, fun _ => h.tracks.bound object proxy hmem⟩)
      · rw [done] at undone
        cases undone
    pending := fun object proxy hmem _ kind known => by
      refine (h.pending object proxy hmem (Or.inl first) kind known).imp_right fun ⟨m, hm, answered⟩ => ?_
      refine ⟨m, ?_, answered⟩
      unfold pipeline at hm ⊢
      rw [List.map_append, ← List.append_assoc]
      exact mem_ahead_append hm _
    complete := fun ended => by rcases ended with ⟨_, ended⟩ | settled <;> contradiction }

theorem shaken_leave {seqs : SyncSeqs} {s t : Handshake} (h : Shaken seqs s)
    (step : s.next seqs .leave = some t) : Shaken seqs t := by
  obtain ⟨⟨second, done⟩, same⟩ := Option.ite_none_right_eq_some.mp step
  cases Option.some.inj same
  have later : s.stage ≠ .first := by simp [second]
  obtain ⟨asked, present, handled⟩ := handled_of_done h fun first => absurd first later
  exact {
    tracks := h.tracks
    ids := h.ids
    unregistered := fun unasked => absurd asked (by simp [show s.registered = false from unasked])
    registry_once := h.registry_once
    replayed := h.replayed
    own_seq := by
      rw [h.own_seq, if_neg later]
      rfl
    done_by_core := h.done_by_core
    first_unhandled := fun unhandled => by cases handled.symm.trans unhandled
    second_unsent := fun first => by cases first
    bound_le := fun _ => h.bound_le later
    found := fun present at_ object hobject => by
      rcases h.found present at_ object hobject with gone | ⟨proxy, hmem, early⟩ | ⟨first, _, _⟩
      · exact Or.inl gone
      · exact Or.inr (Or.inl ⟨proxy, hmem, fun _ => early later⟩)
      · exact absurd first later
    pending := fun object proxy hmem early => by
      rcases early with first | early
      · cases first
      · exact h.pending object proxy hmem (Or.inr early)
    complete := fun _ => h.complete (Or.inl ⟨second, done⟩) }

theorem shaken_run {seqs : SyncSeqs} {objects : List ServerObject} {serial : Nat}
    (ids : (objects.map ServerObject.id).Nodup) {ls : List HandshakeStep} {s : Handshake}
    (run : Run (Takes (next seqs)) (start seqs objects serial) ls s) : Shaken seqs s :=
  run.invariant (shaken_start seqs serial ids) fun _ l _ h step => by
    cases l with
    | handle report => exact shaken_handle h step
    | add object => exact shaken_add h step
    | remove object => exact shaken_remove h step
    | receive => exact shaken_receive h step
    | nextRound => exact shaken_nextRound h step
    | leave => exact shaken_leave h step

/-- Only the answer of the core to its own sync ends a round. -/
theorem ends_by_own_done {seqs : SyncSeqs} {s t : Handshake} (h : Shaken seqs s)
    (step : s.next seqs .receive = some t) (ended : t.sync.syncDone = true) :
    s.sync.syncDone = true ∨
      s.toClient.head? =
        some (.done PW_ID_CORE (if s.stage = .first then seqs.first else seqs.second)) := by
  simp only [next] at step
  split at step
  next => cases step
  next event rest front =>
    obtain ⟨_, same⟩ := Option.ite_none_left_eq_some.mp step
    cases Option.some.inj same
    cases event with
    | global | globalRemove => exact Or.inl ended
    | info proxy report =>
      left
      simp only [receive] at ended
      split at ended <;> exact ended
    | done id seq =>
      refine ((syncDone_onCoreDone s.sync id seq).mp ended).imp_right fun byOwn => ?_
      obtain ⟨core, own⟩ := byOwn
      rw [front, core, own, h.own_seq]
      rfl

/-- When `connect` leaves its second round, every object that was there at the first sync and that
has not been removed since is in the monitor, and its info callback has run. -/
theorem handshake_complete (seqs : SyncSeqs) (objects : List ServerObject) (serial : Nat)
    (ids : (objects.map ServerObject.id).Nodup) (ls : List HandshakeStep) (s : Handshake)
    (run : Run (Takes (next seqs)) (start seqs objects serial) ls s) :
    (s.stage = .settled → ∃ present, s.atFirstSync = some present ∧
      ∀ object ∈ present, object ∉ s.deleted → ∀ kind, object.kind = some kind →
        (s.monitor.record kind object.id).isSome ∧ informed kind object.id s.calls) ∧
      ∀ t, s.next seqs .receive = some t → t.sync.syncDone = true →
        s.sync.syncDone = true ∨
          s.toClient.head? =
            some (.done PW_ID_CORE (if s.stage = .first then seqs.first else seqs.second)) := by
  have h := shaken_run ids run
  refine ⟨fun settled => ?_, fun t => ends_by_own_done h⟩
  have later : s.stage ≠ .first := by simp [settled]
  obtain ⟨_, present, handled⟩ := handled_of_done h fun first => absurd first later
  refine ⟨present, handled, fun object hobject live kind known => ?_⟩
  rcases h.found present handled object hobject with gone | ⟨proxy, hmem, early⟩ | ⟨first, _, _⟩
  · exact absurd gone live
  · exact ⟨(h.tracks.held object proxy hmem kind known).2.1,
      h.complete (Or.inr settled) object proxy hmem (early later) kind known⟩
  · exact absurd first later

def firstNode : ServerObject := ⟨0, 5, some interfaceNode, none, by decide⟩

def secondNode : ServerObject := ⟨1, 6, some interfaceNode, none, by decide⟩

/-- A node comes before the first sync is handled, and another one goes in the second round. -/
def changingStart : List HandshakeStep :=
  let report : InfoReport := .node ⟨0, PW_NODE_STATE_RUNNING, none⟩
  [.handle report, .receive, .add secondNode, .handle report, .receive, .handle report, .receive, .nextRound,
    .remove firstNode, .handle report, .handle report, .receive, .receive, .receive, .receive, .leave]

theorem handshake_complete_changingStart :
    ∃ s, Run (Takes (next ⟨3, 4, by decide⟩)) (start ⟨3, 4, by decide⟩ [firstNode] 1) changingStart s ∧
      s.stage = .settled ∧ (s.monitor.record .node 6).isSome ∧ informed .node 6 s.calls := by
  have outcome : (changingStart.foldlM (next ⟨3, 4, by decide⟩) (start ⟨3, 4, by decide⟩ [firstNode] 1)).map (fun s =>
      (s.stage, s.atFirstSync, s.deleted)) = some (.settled, some [firstNode, secondNode], [firstNode]) := by decide
  obtain ⟨s, run, rest⟩ := Option.map_eq_some_iff.mp outcome
  simp only [Prod.mk.injEq] at rest
  obtain ⟨settled, handled, deleted⟩ := rest
  have run := run_takes_iff.mpr run
  obtain ⟨present, same, shown⟩ := (handshake_complete _ _ _ (by decide) _ _ run).1 settled
  cases handled.symm.trans same
  exact ⟨s, run, settled, shown secondNode (by simp) (by rw [deleted]; decide) .node (by decide)⟩

end Handshake

end PwDart
