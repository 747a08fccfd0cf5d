import PwDart.LockedSections

namespace Locked

open LabelledRun

variable {τ σ π ο ℓ ρ : Type*} [DecidableEq τ]

theorem logged_append_singleton (t v : τ) (o : ο) (log : List (τ × ο)) :
    logged v (log ++ [(t, o)]) = if t = v then logged v log ++ [o] else logged v log := by
  by_cases same : t = v <;> simp [logged, same]

theorem logged_mono {log more : List (τ × ο)} (h : log <+: more) (v : τ) : logged v log <+: logged v more :=
  (h.filter _).map _

theorem Phase.pending_length_le (p : Phase ο ℓ ρ) : p.pending.length ≤ 1 := by
  cases p <;> simp [Phase.pending]

theorem started_append (v : τ) (ls ms : List (Label τ ο)) : started v (ls ++ ms) = started v ls ++ started v ms :=
  List.filterMap_append

theorem started_append_singleton (v : τ) (ls : List (Label τ ο)) (l : Label τ ο) :
    started v (ls ++ [l]) = started v ls ++ (l.starts v).toList := by
  cases own : l.starts v <;> simp [started, own]

section

variable {P : Program τ σ π ο ℓ ρ} {s u : State τ σ π ο ℓ ρ}

/-- One step: an operation that is started is in flight or in the log, and one in flight stays so until it is
in the log. -/
theorem next_pending (v : τ) {l : Label τ ο} (step : P.next s l = some u) :
    logged v u.log ++ (u.threads v).phase.pending =
      logged v s.log ++ (s.threads v).phase.pending ++ (l.starts v).toList := by
  cases l with
  | start t o =>
    obtain ⟨idle, _, ⟨_, rfl⟩ | ⟨_, rfl⟩⟩ := Program.next_start step
    · rcases eq_or_ne t v with rfl | other
      · simp [State.set, Phase.pending, Label.starts, idle]
      · simp [State.set, Label.starts, other, other.symm]
    · rcases eq_or_ne t v with rfl | other
      · simp [State.set, Phase.pending, Label.starts, idle, logged_append_singleton]
      · simp [State.set, Label.starts, other, other.symm, logged_append_singleton]
  | acquire t =>
    obtain ⟨o, waits, _, rfl⟩ := Program.next_acquire step
    rcases eq_or_ne t v with rfl | other
    · simp [State.set, Phase.pending, Label.starts, waits]
    · simp [State.set, Label.starts, other.symm]
  | micro t =>
    obtain ⟨o, l, inside, ⟨k, x, _, rfl⟩ | ⟨r, _, rfl⟩⟩ := Program.next_micro step
    · rcases eq_or_ne t v with rfl | other
      · simp [State.set, Phase.pending, Label.starts, inside]
      · simp [State.set, Label.starts, other.symm]
    · rcases eq_or_ne t v with rfl | other
      · simp [State.set, Phase.pending, Label.starts, inside, logged_append_singleton]
      · simp [State.set, Label.starts, other, other.symm, logged_append_singleton]
  | finish t =>
    obtain ⟨o, r, leaves, rfl⟩ := Program.next_finish step
    rcases eq_or_ne t v with rfl | other
    · simp [State.set, Phase.pending, Label.starts, leaves]
    · simp [State.set, Label.starts, other.symm]

/-- The operations of a thread take effect in the order in which it started them. -/
theorem run_started {x : σ} {m : τ → π} {ls : List (Label τ ο)} (run : Run (Takes P.next) (State.first x m) ls s)
    (v : τ) : started v ls = logged v s.log ++ (s.threads v).phase.pending := by
  induction run with
  | start => rfl
  | @next ls l s u _ step ih => rw [started_append_singleton, ih, next_pending v step]

theorem next_log {l : Label τ ο} (step : P.next s l = some u) : s.log <+: u.log := by
  cases l with
  | start t o =>
    obtain ⟨_, _, ⟨_, rfl⟩ | ⟨_, rfl⟩⟩ := Program.next_start step
    · exact List.prefix_refl _
    · exact List.prefix_append _ _
  | acquire t =>
    obtain ⟨_, _, _, rfl⟩ := Program.next_acquire step
    exact List.prefix_refl _
  | micro t =>
    obtain ⟨_, _, _, ⟨_, _, _, rfl⟩ | ⟨_, _, rfl⟩⟩ := Program.next_micro step
    · exact List.prefix_refl _
    · exact List.prefix_append _ _
  | finish t =>
    obtain ⟨_, _, _, rfl⟩ := Program.next_finish step
    exact List.prefix_refl _

/-- Until a thread starts another operation, it is at the one it has started, or at none. -/
theorem next_current {v : τ} {l : Label τ ο} (step : P.next s l = some u) (other : l.starts v = none) :
    (u.threads v).begun = (s.threads v).begun ∧
      ((u.threads v).phase.current = (s.threads v).phase.current ∨ (u.threads v).phase.current = none) := by
  cases l with
  | start t o =>
    have ne : v ≠ t := by
      rintro rfl
      simp [Label.starts] at other
    obtain ⟨_, _, ⟨_, rfl⟩ | ⟨_, rfl⟩⟩ := Program.next_start step <;> simp [State.set, ne]
  | acquire t =>
    obtain ⟨_, waits, _, rfl⟩ := Program.next_acquire step
    rcases eq_or_ne v t with rfl | ne
    · simp [State.set, Phase.current, waits]
    · simp [State.set, ne]
  | micro t =>
    obtain ⟨_, _, inside, ⟨_, _, _, rfl⟩ | ⟨_, _, rfl⟩⟩ := Program.next_micro step <;>
    · rcases eq_or_ne v t with rfl | ne
      · simp [State.set, Phase.current, inside]
      · simp [State.set, ne]
  | finish t =>
    obtain ⟨_, _, _, rfl⟩ := Program.next_finish step
    rcases eq_or_ne v t with rfl | ne
    · simp [State.set, Phase.current]
    · simp [State.set, ne]

theorem run_later {ls : List (Label τ ο)} {v : τ} (run : Run (Takes P.next) s ls u) (alone : started v ls = []) :
    s.log <+: u.log ∧ (u.threads v).begun = (s.threads v).begun ∧
      ((u.threads v).phase.current = (s.threads v).phase.current ∨ (u.threads v).phase.current = none) := by
  induction run with
  | start => exact ⟨List.prefix_refl _, rfl, .inl rfl⟩
  | @next ls l t u _ step ih =>
    rw [started_append_singleton, List.append_eq_nil_iff, Option.toList_eq_nil_iff] at alone
    obtain ⟨log, begun, at_⟩ := ih alone.1
    obtain ⟨still, now⟩ := next_current step alone.2
    refine ⟨log.trans (next_log step), still.trans begun, ?_⟩
    rcases now with now | now
    · rw [now]
      exact at_
    · exact .inr now

/-- An operation that has returned took effect at one moment between its start and now, and it returned what it
returns on the shared memory of that moment. -/
theorem answered {result : ο → π → σ → ρ × σ} (performs : P.Performs result) {x : σ} {m : τ → π} {v : τ} {o q : ο}
    {r : ρ} {before after : List (Label τ ο)} {a b : State τ σ π ο ℓ ρ}
    (first : Run (Takes P.next) (State.first x m) before a) (begins : P.next a (.start v o) = some b)
    (later : Run (Takes P.next) b after s) (alone : started v after = [])
    (leaves : (s.threads v).phase = .leaving q r) :
    q = o ∧ ∃ earlier rest, s.log = earlier ++ (v, o) :: rest ∧ a.log <+: earlier ∧
      (s.threads v).memory = P.before o ((serial P result x m earlier).memory v) ∧
      r = (result o (s.threads v).memory (serial P result x m earlier).shared).1 := by
  have whole := Run.trans (Run.next first begins) later
  have accords := (Linearized.run performs whole).thread v
  simp only [Thread.Accords, leaves] at accords
  obtain ⟨_, earlier, rest, split, bound, memory, answer⟩ := accords
  obtain ⟨log, begun, at_⟩ := run_later later alone
  have since : a.log <+: s.log := (next_log begins).trans log
  have start : (b.threads v).begun = a.log.length ∧
      ((b.threads v).phase.current = some o ∨ (b.threads v).phase.current = none) := by
    obtain ⟨_, _, ⟨_, rfl⟩ | ⟨_, rfl⟩⟩ := Program.next_start begins <;> simp [State.set, Phase.current]
  rw [begun, start.1] at bound
  rw [leaves] at at_
  have same : q = o := by
    rcases at_ with at_ | at_
    · rcases start.2 with started | started <;> rw [started] at at_ <;> cases at_
      rfl
    · cases at_
  subst same
  exact ⟨rfl, earlier, rest, split, List.prefix_of_prefix_length_le since (split ▸ List.prefix_append _ _) bound,
    memory, answer⟩

/-- All but the last of a list with at most one more. -/
theorem dropLast_append_mono {α : Type*} {xs ys : List α} (few : ys.length ≤ 1) : (xs ++ ys).dropLast <+: xs := by
  cases ys with
  | nil =>
    rw [List.append_nil]
    exact List.dropLast_prefix xs
  | cons y ys =>
    have last : ys = [] := List.length_eq_zero_iff.mp (by simpa using few)
    have same : (xs ++ y :: ys).dropLast = xs := by rw [last, List.dropLast_concat]
    exact ⟨[], by rw [same, List.append_nil]⟩

/-- What of another thread had taken effect at that moment: all that had returned before the start, all but the last
that it had started, and nothing that it has not started yet. -/
theorem answered_between {result : ο → π → σ → ρ × σ} (performs : P.Performs result) {x : σ} {m : τ → π} {v w : τ}
    (other : v ≠ w) {o q : ο} {r : ρ} {before after : List (Label τ ο)} {a b : State τ σ π ο ℓ ρ}
    (first : Run (Takes P.next) (State.first x m) before a) (begins : P.next a (.start v o) = some b)
    (later : Run (Takes P.next) b after s) (alone : started v after = [])
    (leaves : (s.threads v).phase = .leaving q r) :
    q = o ∧ ∃ earlier rest, s.log = earlier ++ (v, o) :: rest ∧
      r = (result o (s.threads v).memory (serial P result x m earlier).shared).1 ∧
      logged w earlier <+: started w (before ++ after) ∧
      (started w before).dropLast <+: logged w earlier ∧
      ((a.threads w).phase = .idle → started w before <+: logged w earlier) := by
  obtain ⟨rfl, earlier, rest, split, since, _, answer⟩ := answered performs first begins later alone leaves
  have ended := run_started (Run.trans (Run.next first begins) later) w
  have begun := run_started first w
  have skipped : started w (before ++ [.start v q] ++ after) = started w (before ++ after) := by
    simp [started, Label.starts, other]
  rw [skipped] at ended
  refine ⟨rfl, earlier, rest, split, answer, ?_, ?_, ?_⟩
  · rw [ended, split]
    exact (logged_mono (List.prefix_append _ _) w).trans (List.prefix_append _ _)
  · rw [begun]
    exact (dropLast_append_mono (Phase.pending_length_le _)).trans (logged_mono since w)
  · intro idle
    rw [begun, idle]
    exact (List.append_nil (logged w a.log)).symm ▸ logged_mono since w

end

section

variable {P : Program τ σ π ο ℓ ρ} {s : State τ σ π ο ℓ ρ}

/-- From one state to another with no operation started, and only this thread's changed. -/
def Settles (P : Program τ σ π ο ℓ ρ) (t : τ) (s u : State τ σ π ο ℓ ρ) : Prop :=
  ∃ ls, (∀ v, started v ls = []) ∧ Run (Takes P.next) s ls u ∧ ∀ v, v ≠ t → u.threads v = s.threads v

theorem Settles.refl (t : τ) (s : State τ σ π ο ℓ ρ) : Settles P t s s :=
  ⟨[], fun _ => rfl, Run.start, fun _ _ => rfl⟩

theorem Settles.next {t : τ} {u w : State τ σ π ο ℓ ρ} {l : Label τ ο} (h : Settles P t s u)
    (step : P.next u l = some w) (starts : ∀ v, l.starts v = none) (others : ∀ v, v ≠ t → w.threads v = u.threads v) :
    Settles P t s w := by
  obtain ⟨ls, quiet, run, same⟩ := h
  refine ⟨ls ++ [l], fun v => ?_, Run.next run step, fun v ne => (others v ne).trans (same v ne)⟩
  rw [started_append_singleton, quiet v, starts v]
  rfl

/-- A thread inside its section gets out of it. -/
theorem settles_section {t : τ} {o : ο} {l : ℓ} {x y : σ} {r : ρ} (executes : P.Executes l x r y)
    {s u : State τ σ π ο ℓ ρ} (h : Settles P t s u) (shared : u.shared = x)
    (inside : (u.threads t).phase = .inside o l) :
    ∃ w, Settles P t s w ∧ w.holder = none ∧ (w.threads t).phase = .leaving o r := by
  induction executes generalizing u with
  | @done l x r ends =>
    subst shared
    have step : P.next u (.micro t) = some { u.set t { u.threads t with phase := .leaving o r } with
        holder := none, log := u.log ++ [(t, o)] } := by
      simp only [Program.next, inside, ends]
    refine ⟨_, h.next step (fun _ => rfl) ?_, rfl, ?_⟩
    · intro v ne
      simp [State.set, ne]
    · simp [State.set]
  | @more l k x y z r goes _ ih =>
    subst shared
    have step : P.next u (.micro t) = some { u.set t { u.threads t with phase := .inside o k } with shared := y } := by
      simp only [Program.next, inside, goes]
    refine ih (h.next step (fun _ => rfl) ?_) rfl ?_
    · intro v ne
      simp [State.set, ne]
    · simp [State.set]

/-- A thread that holds the lock, or that may take it, gets back to rest. -/
theorem exists_settled {result : ο → π → σ → ρ × σ} (performs : P.Performs result) {x : σ} {m : τ → π}
    (h : Linearized P result x m s) {t : τ} (own : s.holder = none ∨ s.holder = some t) :
    ∃ u, Settles P t s u ∧ u.holder = none ∧ (u.threads t).phase = .idle := by
  have finish {u : State τ σ π ο ℓ ρ} {o : ο} {r : ρ} (settles : Settles P t s u) (free : u.holder = none)
      (leaves : (u.threads t).phase = .leaving o r) :
      ∃ w, Settles P t s w ∧ w.holder = none ∧ (w.threads t).phase = .idle := by
    have step : P.next u (.finish t) =
        some (u.set t ⟨P.after o r (u.threads t).memory, .idle, (u.threads t).begun⟩) := by
      simp only [Program.next, leaves]
    refine ⟨_, settles.next step (fun _ => rfl) ?_, free, ?_⟩
    · intro v ne
      simp [State.set, ne]
    · simp [State.set]
  have notHeld (outside : (s.threads t).phase.holds = false) : s.holder = none := by
    rcases own with free | held
    · exact free
    · rw [(h.holder t).mp held] at outside
      cases outside
  cases phase : (s.threads t).phase with
  | idle => exact ⟨s, Settles.refl t s, notHeld (by rw [phase]; rfl), phase⟩
  | leaving o r => exact finish (Settles.refl t s) (notHeld (by rw [phase]; rfl)) phase
  | inside o l =>
    have accords := h.thread t
    simp only [Thread.Accords, phase] at accords
    obtain ⟨u, settles, free, leaves⟩ := settles_section accords.2.2.2.2 (Settles.refl t s) rfl phase
    exact finish settles free leaves
  | waiting o =>
    have free := notHeld (by rw [phase]; rfl)
    have step : P.next s (.acquire t) = some { s.set t { s.threads t with
        phase := .inside o (P.enter o (s.threads t).memory) } with holder := some t } := by
      simp only [Program.next, phase, free]
    have entered := (Settles.refl (P := P) t s).next step (fun _ => rfl) (fun v ne => by simp [State.set, ne])
    obtain ⟨u, settles, free, leaves⟩ := settles_section (o := o) (performs o (s.threads t).memory s.shared) entered rfl
      (by simp [State.set])
    exact finish settles free leaves

/-- A thread that is not at rest has started an operation. -/
theorem started_of_busy {x : σ} {m : τ → π} {ls : List (Label τ ο)} (run : Run (Takes P.next) (State.first x m) ls s)
    {v : τ} (busy : (s.threads v).phase ≠ .idle) : v ∈ ls.filterMap Label.starter := by
  by_contra absent
  have unstarted : started v ls = [] := by
    refine List.filterMap_eq_nil_iff.mpr fun l mem => ?_
    cases l with
    | start t o =>
      have other : t ≠ v := by
        rintro rfl
        exact absent (List.mem_filterMap.mpr ⟨_, mem, rfl⟩)
      simp [Label.starts, other]
    | acquire | micro | finish => rfl
  obtain ⟨_, _, current⟩ := run_later run unstarted
  have idle : (s.threads v).phase.current = none := current.elim id id
  cases phase : (s.threads v).phase <;> simp [phase, Phase.current] at idle busy

/-- The operations in flight can all be brought to their end, without another one. -/
def Rests (P : Program τ σ π ο ℓ ρ) (s : State τ σ π ο ℓ ρ) : Prop :=
  ∃ more u, (∀ v, started v more = []) ∧ Run (Takes P.next) s more u ∧ u.holder = none ∧
    ∀ v, (u.threads v).phase = .idle

theorem Settles.rests {t : τ} {u : State τ σ π ο ℓ ρ} (h : Settles P t s u) (rest : Rests P u) : Rests P s := by
  obtain ⟨more, quiet, first, _⟩ := h
  obtain ⟨rest, w, quiet', last, done⟩ := rest
  refine ⟨more ++ rest, w, fun v => ?_, first.trans last, done⟩
  rw [started_append, quiet, quiet']
  rfl

theorem rests_of_free {result : ο → π → σ → ρ × σ} (performs : P.Performs result) {x : σ} {m : τ → π} (ts : List τ)
    {ls : List (Label τ ο)} (run : Run (Takes P.next) (State.first x m) ls s) (free : s.holder = none)
    (busy : ∀ v, (s.threads v).phase ≠ .idle → v ∈ ts) : Rests P s := by
  induction ts generalizing ls s with
  | nil => exact ⟨[], s, fun _ => rfl, Run.start, free, fun v => by_contra fun h => List.not_mem_nil (busy v h)⟩
  | cons t ts ih =>
    obtain ⟨u, settles, free', idle⟩ := exists_settled performs (Linearized.run performs run) (t := t) (.inl free)
    refine settles.rests ?_
    obtain ⟨_, _, first, others⟩ := settles
    refine ih (run.trans first) free' fun v active => ?_
    have ne : v ≠ t := by
      rintro rfl
      exact active idle
    rw [others v ne] at active
    exact (List.mem_cons.mp (busy v active)).resolve_left ne

/-- From every reachable state the program comes to rest: the holder goes first, then one thread after the other, with
the lock free in between. -/
theorem rests_of_run {result : ο → π → σ → ρ × σ} (performs : P.Performs result) {x : σ} {m : τ → π}
    {ls : List (Label τ ο)} (run : Run (Takes P.next) (State.first x m) ls s) : Rests P s := by
  cases held : s.holder with
  | none => exact rests_of_free performs _ run held fun v => started_of_busy run
  | some t =>
    obtain ⟨u, settles, free, _⟩ := exists_settled performs (Linearized.run performs run) (t := t) (.inr held)
    refine settles.rests ?_
    obtain ⟨_, _, first, _⟩ := settles
    exact rests_of_free performs _ (run.trans first) free fun v => started_of_busy (run.trans first)

end

/-- A run that can be computed, cut at one of its steps. -/
theorem exists_run_of_foldlM {ι κ : Type*} {next : κ → ι → Option κ} {s : κ} {before after : List ι} {l : ι}
    {check : κ → Bool} (computed : ((before ++ l :: after).foldlM next s).any check = true) :
    ∃ a b u, Run (Takes next) s before a ∧ next a l = some b ∧ Run (Takes next) b after u ∧ check u = true := by
  obtain ⟨u, run, checked⟩ := (Option.any_eq_true _ _).mp computed
  rw [List.foldlM_append] at run
  obtain ⟨a, first, run⟩ := Option.bind_eq_some_iff.mp run
  rw [List.foldlM_cons] at run
  obtain ⟨b, step, run⟩ := Option.bind_eq_some_iff.mp run
  exact ⟨a, b, u, run_takes_iff.mpr first, step, run_takes_iff.mpr run, checked⟩

theorem Phase.eq_leaving_of_returned {p : Phase ο ℓ ρ} (h : p.returned = true) : ∃ o r, p = .leaving o r := by
  cases p <;> simp [Phase.returned] at h
  exact ⟨_, _, rfl⟩

end Locked
