import PwDart.GraphConvergence

namespace PwDart

namespace Mirror

open LabelledRun

/-- Storing a snapshot: at `connect` or in `refreshGraph`. -/
def StoresSnapshot (l : MirrorLabel) : Prop := l = .connect ∨ l = .refreshGraph

/-- The deliveries among the steps. -/
def deliveries (ls : List MirrorLabel) : Nat :=
  ls.countP fun
    | .deliver => true
    | _ => false

theorem trace_after_snapshot {s t : Mirror} {l : MirrorLabel} (h : Faithful s)
    (stores : StoresSnapshot l) (step : Step s l t) :
    t.trace.settled = t.trace.published ∧ t.trace.shown = t.trace.latest ∧
      t.trace.overtaken = t.port.length := by
  rcases step_cases step with ⟨c, rfl, _, _⟩ | ⟨_, stored⟩ | ⟨_, _, _, rfl, _⟩
  · rcases stores with h | h <;> cases h
  · obtain ⟨g, _, rfl⟩ := storeSnapshot_ok stored
    exact ⟨rfl, rfl, h.ported.length_eq.symm⟩
  · rcases stores with h | h <;> cases h

/-- Between two snapshots only deliveries move the count of overtaken events. -/
theorem trace_between_snapshots {s t : Mirror} {l : MirrorLabel} (h : Faithful s)
    (keeps : ¬StoresSnapshot l) (step : Step s l t) :
    t.trace.settled = s.trace.settled ∧
      t.trace.overtaken = s.trace.overtaken - deliveries [l] := by
  rcases step_cases step with ⟨c, rfl, _, rfl⟩ | ⟨hl, _⟩ | ⟨g, message, rest, rfl, _, first, rfl⟩
  · simp only [callback]
    split
    · exact ⟨rfl, rfl⟩
    · split <;> exact ⟨rfl, rfl⟩
  · exact absurd (hl.imp And.left And.left) keeps
  · obtain ⟨key, n, queue, _, _, _, trace⟩ := deliver_first h first
    rw [trace]
    exact ⟨rfl, rfl⟩

/-- What an entry that was absent at a snapshot has held since, without being announced again. -/
def AbsentSince (u s : Mirror) (kind : Kind) (id : UInt32) : Prop :=
  s.monitor.record kind id = none ∧ u.trace.latest (kind, id) ≤ s.trace.latest (kind, id) ∧
    ∀ n v, u.trace.latest (kind, id) ≤ n → (s.trace.history (kind, id))[n]? = some v → v = none

theorem history_callback (s : Mirror) (c : Callback) :
    (s.callback c).trace.history = match s.monitor.target c with
      | none => s.trace.history
      | some key => (s.trace.write key ((s.monitor.call c).1.record key.1 key.2)).history := by
  cases hkey : s.monitor.target c with
  | none => simp [callback, hkey]
  | some key =>
    simp only [callback, hkey]
    split <;> rfl

theorem absentSince_callback {u s : Mirror} {kind : Kind} {id : UInt32}
    (absent : AbsentSince u s kind id) {c : Callback}
    (unannounced : ∀ type props bound, c ≠ .global id type props bound) :
    AbsentSince u (s.callback c) kind id := by
  obtain ⟨gone, later, held⟩ := absent
  have stillGone := RegistryMonitor.record_unannounced gone unannounced
  refine ⟨stillGone, ?_, ?_⟩
  · refine Nat.le_trans later (Nat.sub_le_sub_right ?_ 1)
    rw [history_callback]
    split
    · exact Nat.le_refl _
    · exact Replica.history_write_length ..
  · intro n v hn hv
    rw [history_callback] at hv
    split at hv
    next => exact held n v hn hv
    next key _ =>
      by_cases here : (kind, id) = key
      · subst here
        simp only [Replica.State.write, Function.update_self] at hv
        rcases Nat.lt_or_ge n (s.trace.history (kind, id)).length with bound | bound
        · exact held n v hn (by rwa [List.getElem?_append_left bound] at hv)
        · rw [List.getElem?_append_right bound, List.getElem?_singleton] at hv
          split at hv
          next => rw [← Option.some.inj hv]; exact stillGone
          next => simp at hv
      · exact held n v hn (by simpa [Replica.State.write, here] using hv)

theorem news_watched {event : GraphEvent} {kind : Kind} {id : UInt32} {v : Option ObjectInfo}
    (news : event.news = some ((kind, id), v)) : kind ≠ .device := by
  rintro rfl
  cases event <;> simp [GraphEvent.news] at news

/-- What holds of every state between a snapshot that left `u` and the next one. -/
structure Since (u : Mirror) (after : List MirrorLabel) (s : Mirror) : Prop where
  faithful : Faithful s
  settled : s.trace.settled = u.trace.published
  overtaken : s.trace.overtaken = u.port.length - deliveries after
  device : ∀ id, s.trace.shown (.device, id) = u.trace.shown (.device, id)
  absent : ∀ kind id, u.monitor.record kind id = none →
    (∀ type props bound, .callback (.global id type props bound) ∉ after) → AbsentSince u s kind id

theorem since_snapshot {w u : Mirror} {l : MirrorLabel} (h : Faithful w) (stores : StoresSnapshot l)
    (taken : Step w l u) : Since u [] u where
  faithful := faithful_step h taken
  settled := (trace_after_snapshot h stores taken).1
  overtaken := (trace_after_snapshot h stores taken).2.2
  device _ := rfl
  absent kind id gone _ := by
    refine ⟨gone, Nat.le_refl _, fun n v hn hv => ?_⟩
    have held := (faithful_step h taken).current kind id
    obtain ⟨bound, _⟩ := List.getElem?_eq_some_iff.mp hv
    have last : n = u.trace.latest (kind, id) := by
      simp only [Replica.State.latest] at hn ⊢
      omega
    rw [last, held, gone] at hv
    exact (Option.some.inj hv).symm

theorem since_step {u s t : Mirror} {after : List MirrorLabel} {l : MirrorLabel}
    (since : Since u after s) (keeps : ¬StoresSnapshot l) (step : Step s l t) :
    Since u (after ++ [l]) t where
  faithful := faithful_step since.faithful step
  settled := (trace_between_snapshots since.faithful keeps step).1.trans since.settled
  overtaken := by
    rw [(trace_between_snapshots since.faithful keeps step).2, since.overtaken]
    simp only [deliveries, List.countP_append]
    omega
  device id := by
    rw [← since.device id]
    rcases step_cases step with ⟨c, rfl, _, rfl⟩ | ⟨hl, _⟩ | ⟨g, message, rest, rfl, _, first, rfl⟩
    · simp only [callback]
      split
      · rfl
      · split <;> rfl
    · exact absurd (hl.imp And.left And.left) keeps
    · obtain ⟨key, n, queue, _, ⟨event, v, _, news, _⟩, _, trace⟩ := deliver_first since.faithful first
      have apart : (Kind.device, id) ≠ key := fun same => news_watched news (congrArg Prod.fst same).symm
      rw [trace]
      exact Function.update_of_ne apart ..
  absent kind id gone unannounced := by
    have before := since.absent kind id gone fun type props bound hmem =>
      unannounced type props bound (List.mem_append_left _ hmem)
    rcases step_cases step with ⟨c, rfl, _, rfl⟩ | ⟨hl, _⟩ | ⟨g, message, rest, rfl, _, first, rfl⟩
    · exact absentSince_callback before fun type props bound same =>
        unannounced type props bound (by simp [same])
    · exact absurd (hl.imp And.left And.left) keeps
    · obtain ⟨key, n, queue, _, _, _, trace⟩ := deliver_first since.faithful first
      rw [trace]
      exact before

theorem since_run {w u s : Mirror} {l : MirrorLabel} {after : List MirrorLabel} (h : Faithful w)
    (stores : StoresSnapshot l) (taken : Step w l u) (run : Run Step u after s)
    (keep : ∀ m ∈ after, ¬StoresSnapshot m) : Since u after s := by
  induction run with
  | start => exact since_snapshot h stores taken
  | @next ls m _ _ _ step ih =>
    exact since_step (ih fun m hm => keep m (List.mem_append_left _ hm)) (keep m (by simp)) step

theorem shown_back_overtaken {s t : Mirror} {l : MirrorLabel} (h : Faithful s) (step : Step s l t)
    {key : Kind × UInt32} (back : t.trace.shown key < s.trace.shown key) :
    l = .deliver ∧ 0 < s.trace.overtaken := by
  rcases step_cases step with ⟨c, rfl, _, rfl⟩ | ⟨_, stored⟩ | ⟨_, _, _, rfl, _, _, rfl⟩
  · exfalso
    simp only [callback] at back
    split at back
    · exact Nat.lt_irrefl _ back
    · split at back <;> exact Nat.lt_irrefl _ back
  · obtain ⟨g, _, rfl⟩ := storeSnapshot_ok stored
    exact absurd back (Nat.not_lt_of_le (Replica.shown_le_snapshot h.consistent key))
  · refine ⟨rfl, Nat.pos_of_ne_zero fun fresh => ?_⟩
    exact absurd back (Nat.not_lt_of_le (Replica.shown_le_deliver h.consistent fresh key))

/-- A snapshot leaves `u` and no other follows it before `s`. What the graph shows is always a value
the native maps held; only an event posted before the snapshot can take it back to an older one; and
after the last of these the graph shows nothing older than what had been posted by then, and no
object absent from the snapshot unless it was announced since. -/
theorem graph_order {w u s : Mirror} {before after : List MirrorLabel} {l : MirrorLabel}
    (first : Run Step {} before w) (stores : StoresSnapshot l) (taken : Step w l u)
    (later : Run Step u after s) (keep : ∀ m ∈ after, ¬StoresSnapshot m) :
    (∀ g, s.graph = some g → ∀ kind id, ∃ v,
      (s.trace.history (kind, id))[s.trace.shown (kind, id)]? = some v ∧
        g.entry kind (dartId id) = v.map ObjectInfo.image) ∧
    (∀ m t key, Step s m t → t.trace.shown key < s.trace.shown key →
      m = .deliver ∧ deliveries after < u.port.length) ∧
    (u.port.length ≤ deliveries after → ∀ kind id,
      u.trace.published (kind, id) ≤ s.trace.shown (kind, id) ∧
      (kind ≠ .device → informed kind id (callbacksOf before) → (u.monitor.record kind id).isSome →
        u.trace.shown (kind, id) ≤ s.trace.shown (kind, id)) ∧
      ∀ g, s.graph = some g → u.monitor.record kind id = none → (g.entry kind (dartId id)).isSome →
        ∃ type props bound, .callback (.global id type props bound) ∈ after) := by
  have hw := faithful_run first
  have since := since_run hw stores taken later keep
  obtain ⟨_, shownLatest, _⟩ := trace_after_snapshot hw stores taken
  refine ⟨since.faithful.shown, ?_, ?_⟩
  · intro m t key step back
    obtain ⟨hm, pending⟩ := shown_back_overtaken since.faithful step back
    have := since.overtaken
    exact ⟨hm, by omega⟩
  · intro delivered kind id
    have fresh : s.trace.overtaken = 0 := by
      have := since.overtaken
      omega
    have settled := Replica.settled_le_shown since.faithful.consistent fresh (kind, id)
    rw [since.settled] at settled
    have hu := faithful_step hw taken
    refine ⟨settled, fun watched now present => ?_, fun g opened gone shown => ?_⟩
    · have calls : callbacksOf (before ++ [l]) = callbacksOf before := by
        rcases stores with rfl | rfl <;> simp [callbacksOf]
      have published := informed_run (Run.next first taken) kind id watched (by rwa [calls]) present
      rw [shownLatest, ← published]
      exact settled
    · by_contra unannounced
      obtain ⟨_, _, absent⟩ := since.absent kind id gone
        fun type props bound hmem => unannounced ⟨type, props, bound, hmem⟩
      obtain ⟨v, held, same⟩ := since.faithful.shown g opened kind id
      have notOlder : u.trace.latest (kind, id) ≤ s.trace.shown (kind, id) := by
        by_cases watched : kind = .device
        · subst watched
          rw [since.device id, shownLatest]
        · refine Nat.le_trans (Nat.le_of_not_lt fun later => ?_) settled
          have := hu.kept kind id _ _ watched later (hu.current kind id)
          simp [gone] at this
      rw [same, absent _ v notOlder held] at shown
      simp at shown

def beforeRefresh : List MirrorLabel :=
  [.connect, .callback (.global 7 (some interfaceNode) none none),
    .callback (.nodeInfo 7 (some ⟨0, PW_NODE_STATE_RUNNING, none⟩)), .callback (.globalRemove 7)]

/-- Once both events that the refresh overtook are delivered, the removed node is gone again. -/
theorem graph_order_beforeRefresh :
    ∃ w u s g, Run Step {} beforeRefresh w ∧ Step w .refreshGraph u ∧
      Run Step u [.deliver, .deliver] s ∧ s.graph = some g ∧ g.entry .node (dartId 7) = none := by
  have outcome : (beforeRefresh.foldlM next {}).bind (fun w => (w.next .refreshGraph).bind fun u =>
      ([.deliver, .deliver].foldlM next u).bind fun s => s.graph.map fun _ =>
        (u.port.length, u.monitor.record .node 7)) = some (2, none) := by decide
  simp only [Option.bind_eq_some_iff, Option.map_eq_some_iff, Prod.mk.injEq] at outcome
  obtain ⟨w, run, u, taken, s, later, g, opened, waiting, gone⟩ := outcome
  have first : Run Step {} beforeRefresh w := run_takes_iff.mpr run
  have later : Run Step u [.deliver, .deliver] s := run_takes_iff.mpr later
  obtain ⟨_, _, settled⟩ := graph_order first (Or.inr rfl) taken later (by simp [StoresSnapshot])
  obtain ⟨_, _, announced⟩ := settled (by rw [waiting]; decide) .node 7
  refine ⟨w, u, s, g, first, taken, later, opened, Option.not_isSome_iff_eq_none.mp fun shown => ?_⟩
  obtain ⟨_, _, _, hmem⟩ := announced g opened gone shown
  simp at hmem

/-- A node that was removed before the snapshot, and has not been announced since, is shown again:
the snapshot was stored while the event that added it was still on the port. -/
theorem removed_node_shown_again :
    ∃ (w s t : Mirror) (g g' : PwGraph), Run Step {} beforeRefresh w ∧ Step w .refreshGraph s ∧
      Step s .deliver t ∧ s.graph = some g ∧ t.graph = some g' ∧
      s.monitor.nodes[(7 : UInt32)]? = none ∧ t.monitor.nodes[(7 : UInt32)]? = none ∧
      g.nodes.lookup 7 = none ∧ (g'.nodes.lookup 7).isSome ∧
      t.trace.shown (.node, 7) < s.trace.shown (.node, 7) := by
  have outcome : (beforeRefresh.foldlM next {}).bind (fun w => (w.next .refreshGraph).bind fun s =>
      (s.next .deliver).bind fun t => s.graph.bind fun g => t.graph.map fun g' =>
        (s.monitor.nodes[(7 : UInt32)]?, t.monitor.nodes[(7 : UInt32)]?, (g.nodes.lookup 7).isNone,
          (g'.nodes.lookup 7).isSome, t.trace.shown (.node, 7), s.trace.shown (.node, 7))) =
        some (none, none, true, true, 2, 3) := by decide
  simp only [Option.bind_eq_some_iff, Option.map_eq_some_iff, Prod.mk.injEq] at outcome
  obtain ⟨w, run, s, taken, t, step, g, opened, g', reopened, gone, stillGone, absent, shown, old,
    new⟩ := outcome
  exact ⟨w, s, t, g, g', run_takes_iff.mpr run, taken, step, opened, reopened, gone, stillGone,
    by simpa using absent, shown, by omega⟩

end Mirror

end PwDart
