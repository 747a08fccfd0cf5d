import PwDart.LabelledRun
import Mathlib.Logic.Function.Basic

namespace Locked

open LabelledRun

/-- One step under the lock: it goes on, or the section ends with a result. -/
inductive Micro (σ ℓ ρ : Type*)
  | more (l : ℓ) (x : σ)
  | done (r : ρ)

/-- What threads run. An operation works on the private memory of its thread, then, if it takes the lock, on the
shared memory in small steps, and after that on the private memory again. -/
structure Program (τ σ π ο ℓ ρ : Type*) where
  allowed : τ → ο → Bool
  before : ο → π → π
  locks : ο → π → Bool
  enter : ο → π → ℓ
  micro : ℓ → σ → Micro σ ℓ ρ
  after : ο → ρ → π → π

inductive Phase (ο ℓ ρ : Type*)
  | idle
  | waiting (o : ο)
  | inside (o : ο) (l : ℓ)
  | leaving (o : ο) (r : ρ)

/-- `begun` is the length of the log when the thread's operation was started. -/
structure Thread (π ο ℓ ρ : Type*) where
  memory : π
  phase : Phase ο ℓ ρ := .idle
  begun : Nat := 0

/-- `log` has the operations in the order in which they took effect: when they left their sections. -/
structure State (τ σ π ο ℓ ρ : Type*) where
  shared : σ
  threads : τ → Thread π ο ℓ ρ
  holder : Option τ := none
  log : List (τ × ο) := []

inductive Label (τ ο : Type*)
  | start (t : τ) (o : ο)
  | acquire (t : τ)
  | micro (t : τ)
  | finish (t : τ)

variable {τ σ π ο ℓ ρ : Type*}

namespace Program

/-- The section runs to its end, with nothing in between. -/
inductive Executes (P : Program τ σ π ο ℓ ρ) : ℓ → σ → ρ → σ → Prop
  | done {l : ℓ} {x : σ} {r : ρ} : P.micro l x = .done r → Executes P l x r x
  | more {l m : ℓ} {x y z : σ} {r : ρ} : P.micro l x = .more m y → Executes P m y r z → Executes P l x r z

theorem Executes.rest {P : Program τ σ π ο ℓ ρ} {l k : ℓ} {x y z : σ} {r : ρ} (h : P.Executes l x r z)
    (step : P.micro l x = .more k y) : P.Executes k y r z := by
  cases h with
  | done ends => rw [step] at ends; cases ends
  | more goes rest =>
    rw [step] at goes
    cases goes
    exact rest

theorem Executes.end {P : Program τ σ π ο ℓ ρ} {l : ℓ} {x z : σ} {r q : ρ} (h : P.Executes l x r z)
    (step : P.micro l x = .done q) : q = r ∧ x = z := by
  cases h with
  | done ends =>
    rw [step] at ends
    cases ends
    exact ⟨rfl, rfl⟩
  | more goes _ => rw [step] at goes; cases goes

/-- What the sections do as a whole. -/
def Performs (P : Program τ σ π ο ℓ ρ) (result : ο → π → σ → ρ × σ) : Prop :=
  ∀ o m x, P.Executes (P.enter o m) x (result o m x).1 (result o m x).2

end Program

variable [DecidableEq τ]

def State.first (x : σ) (m : τ → π) : State τ σ π ο ℓ ρ := { shared := x, threads := fun t => { memory := m t } }

def State.set (s : State τ σ π ο ℓ ρ) (t : τ) (thread : Thread π ο ℓ ρ) : State τ σ π ο ℓ ρ :=
  { s with threads := Function.update s.threads t thread }

namespace Program

def next (P : Program τ σ π ο ℓ ρ) (s : State τ σ π ο ℓ ρ) : Label τ ο → Option (State τ σ π ο ℓ ρ)
  | .start t o =>
    match (s.threads t).phase with
    | .idle =>
      if P.allowed t o then
        if P.locks o (P.before o (s.threads t).memory) then
          some (s.set t ⟨P.before o (s.threads t).memory, .waiting o, s.log.length⟩)
        else
          some { s.set t ⟨P.before o (s.threads t).memory, .idle, s.log.length⟩ with log := s.log ++ [(t, o)] }
      else none
    | _ => none
  | .acquire t =>
    match (s.threads t).phase, s.holder with
    | .waiting o, none =>
      some { s.set t { s.threads t with phase := .inside o (P.enter o (s.threads t).memory) } with holder := some t }
    | _, _ => none
  | .micro t =>
    match (s.threads t).phase with
    | .inside o l =>
      match P.micro l s.shared with
      | .more k x => some { s.set t { s.threads t with phase := .inside o k } with shared := x }
      | .done r =>
        some { s.set t { s.threads t with phase := .leaving o r } with holder := none, log := s.log ++ [(t, o)] }
    | _ => none
  | .finish t =>
    match (s.threads t).phase with
    | .leaving o r => some (s.set t ⟨P.after o r (s.threads t).memory, .idle, (s.threads t).begun⟩)
    | _ => none

end Program

/-- The memory when every operation is one step. -/
structure Serial (τ σ π : Type*) where
  shared : σ
  memory : τ → π

/-- An operation in one step. -/
def Serial.perform (P : Program τ σ π ο ℓ ρ) (result : ο → π → σ → ρ × σ) (s : Serial τ σ π) (e : τ × ο) :
    Serial τ σ π :=
  let m := P.before e.2 (s.memory e.1)
  if P.locks e.2 m then
    ⟨(result e.2 m s.shared).2, Function.update s.memory e.1 (P.after e.2 (result e.2 m s.shared).1 m)⟩
  else ⟨s.shared, Function.update s.memory e.1 m⟩

def serial (P : Program τ σ π ο ℓ ρ) (result : ο → π → σ → ρ × σ) (x : σ) (m : τ → π) (log : List (τ × ο)) :
    Serial τ σ π :=
  log.foldl (Serial.perform P result) ⟨x, m⟩

/-- The operations of the log that are this thread's. -/
def logged (t : τ) (log : List (τ × ο)) : List ο := (log.filter fun e => e.1 = t).map Prod.snd

/-- The operation that a label starts, if it is one of this thread. -/
def Label.starts (t : τ) : Label τ ο → Option ο
  | .start u o => if u = t then some o else none
  | _ => none

/-- The thread that starts an operation with a label. -/
def Label.starter : Label τ ο → Option τ
  | .start u _ => some u
  | _ => none

/-- The operations that a thread has started, in a run with these labels. -/
def started (t : τ) (labels : List (Label τ ο)) : List ο := labels.filterMap (Label.starts t)

namespace Phase

/-- An operation that was started and has not taken effect. -/
def pending : Phase ο ℓ ρ → List ο
  | .waiting o => [o]
  | .inside o _ => [o]
  | _ => []

/-- The operation that a thread is at. -/
def current : Phase ο ℓ ρ → Option ο
  | .idle => none
  | .waiting o => some o
  | .inside o _ => some o
  | .leaving o _ => some o

def returned : Phase ο ℓ ρ → Bool
  | .leaving _ _ => true
  | _ => false

def holds : Phase ο ℓ ρ → Bool
  | .inside _ _ => true
  | _ => false

end Phase

theorem serial_append_singleton (P : Program τ σ π ο ℓ ρ) (result : ο → π → σ → ρ × σ) (x : σ) (m : τ → π)
    (log : List (τ × ο)) (e : τ × ο) :
    serial P result x m (log ++ [e]) = (serial P result x m log).perform P result e := by
  rw [serial, List.foldl_append]
  rfl

theorem Serial.perform_locks {P : Program τ σ π ο ℓ ρ} {result : ο → π → σ → ρ × σ} {s : Serial τ σ π} {t : τ}
    {o : ο} {m : π} (same : m = P.before o (s.memory t)) (locks : P.locks o m = true) :
    s.perform P result (t, o) =
      ⟨(result o m s.shared).2, Function.update s.memory t (P.after o (result o m s.shared).1 m)⟩ := by
  subst same
  simp only [Serial.perform, locks, if_true]

theorem Serial.perform_free {P : Program τ σ π ο ℓ ρ} {result : ο → π → σ → ρ × σ} {s : Serial τ σ π} {t : τ}
    {o : ο} (free : P.locks o (P.before o (s.memory t)) = false) :
    s.perform P result (t, o) = ⟨s.shared, Function.update s.memory t (P.before o (s.memory t))⟩ := by
  simp [Serial.perform, free]

namespace Program

variable {P : Program τ σ π ο ℓ ρ} {s u : State τ σ π ο ℓ ρ} {t : τ}

theorem next_start {o : ο} (h : P.next s (.start t o) = some u) :
    (s.threads t).phase = .idle ∧ P.allowed t o = true ∧
      (P.locks o (P.before o (s.threads t).memory) = true ∧
          u = s.set t ⟨P.before o (s.threads t).memory, .waiting o, s.log.length⟩ ∨
        P.locks o (P.before o (s.threads t).memory) = false ∧
          u = { s.set t ⟨P.before o (s.threads t).memory, .idle, s.log.length⟩ with log := s.log ++ [(t, o)] }) := by
  cases phase : (s.threads t).phase <;> simp only [next, phase, reduceCtorEq] at h
  split at h
  · next allowed =>
    refine ⟨rfl, allowed, ?_⟩
    split at h
    · next locks => exact .inl ⟨locks, (Option.some.inj h).symm⟩
    · next locks => exact .inr ⟨Bool.not_eq_true _ ▸ locks, (Option.some.inj h).symm⟩
  · cases h

theorem next_acquire (h : P.next s (.acquire t) = some u) :
    ∃ o, (s.threads t).phase = .waiting o ∧ s.holder = none ∧
      u = { s.set t { s.threads t with phase := .inside o (P.enter o (s.threads t).memory) } with
        holder := some t } := by
  cases phase : (s.threads t).phase <;> cases free : s.holder <;> simp only [next, phase, free, reduceCtorEq] at h
  exact ⟨_, rfl, rfl, (Option.some.inj h).symm⟩

theorem next_micro (h : P.next s (.micro t) = some u) :
    ∃ o l, (s.threads t).phase = .inside o l ∧
      ((∃ k x, P.micro l s.shared = .more k x ∧
          u = { s.set t { s.threads t with phase := .inside o k } with shared := x }) ∨
        ∃ r, P.micro l s.shared = .done r ∧
          u = { s.set t { s.threads t with phase := .leaving o r } with
            holder := none, log := s.log ++ [(t, o)] }) := by
  cases phase : (s.threads t).phase <;> simp only [next, phase, reduceCtorEq] at h
  next o l =>
  refine ⟨o, l, rfl, ?_⟩
  cases step : P.micro l s.shared with
  | more k x =>
    simp only [step] at h
    exact .inl ⟨k, x, rfl, (Option.some.inj h).symm⟩
  | done r =>
    simp only [step] at h
    exact .inr ⟨r, rfl, (Option.some.inj h).symm⟩

theorem next_finish (h : P.next s (.finish t) = some u) :
    ∃ o r, (s.threads t).phase = .leaving o r ∧
      u = s.set t ⟨P.after o r (s.threads t).memory, .idle, (s.threads t).begun⟩ := by
  cases phase : (s.threads t).phase <;> simp only [next, phase, reduceCtorEq] at h
  exact ⟨_, _, rfl, (Option.some.inj h).symm⟩

end Program

section

variable (P : Program τ σ π ο ℓ ρ) (result : ο → π → σ → ρ × σ) (x : σ) (m : τ → π)

/-- A thread as it is when each of the operations of the log took effect at one moment: `shared` matters only to
the thread inside its section. -/
def Thread.Accords (shared : σ) (log : List (τ × ο)) (t : τ) (thread : Thread π ο ℓ ρ) : Prop :=
  match thread.phase with
  | .idle => thread.memory = (serial P result x m log).memory t
  | .waiting o => P.allowed t o = true ∧ P.locks o thread.memory = true ∧ thread.begun ≤ log.length ∧
      thread.memory = P.before o ((serial P result x m log).memory t)
  | .inside o l => P.allowed t o = true ∧ P.locks o thread.memory = true ∧ thread.begun ≤ log.length ∧
      thread.memory = P.before o ((serial P result x m log).memory t) ∧
      P.Executes l shared (result o thread.memory (serial P result x m log).shared).1
        (result o thread.memory (serial P result x m log).shared).2
  | .leaving o r => P.after o r thread.memory = (serial P result x m log).memory t ∧
      ∃ earlier later, log = earlier ++ (t, o) :: later ∧ thread.begun ≤ earlier.length ∧
        thread.memory = P.before o ((serial P result x m earlier).memory t) ∧
        r = (result o thread.memory (serial P result x m earlier).shared).1

/-- The operations in flight, as it is when each of those that took effect did so at one moment. -/
structure Linearized (s : State τ σ π ο ℓ ρ) : Prop where
  shared : s.holder = none → s.shared = (serial P result x m s.log).shared
  holder : ∀ t, s.holder = some t ↔ (s.threads t).phase.holds = true
  thread : ∀ t, (s.threads t).Accords P result x m s.shared s.log t
  allowed : ∀ e ∈ s.log, P.allowed e.1 e.2 = true

end

/-- What another thread does leaves a thread outside its section in accord. -/
theorem Thread.Accords.frame {P : Program τ σ π ο ℓ ρ} {result : ο → π → σ → ρ × σ} {x y z : σ} {m : τ → π}
    {log more : List (τ × ο)} {t : τ} {thread : Thread π ο ℓ ρ} (h : thread.Accords P result x m y log t)
    (memory : (serial P result x m (log ++ more)).memory t = (serial P result x m log).memory t)
    (shared : thread.phase.holds = true →
      z = y ∧ (serial P result x m (log ++ more)).shared = (serial P result x m log).shared) :
    thread.Accords P result x m z (log ++ more) t := by
  unfold Thread.Accords at h ⊢
  cases phase : thread.phase with
  | idle =>
    simp only [phase] at h ⊢
    rw [memory]
    exact h
  | waiting o =>
    simp only [phase] at h ⊢
    rw [memory, List.length_append]
    exact ⟨h.1, h.2.1, Nat.le_add_right_of_le h.2.2.1, h.2.2.2⟩
  | inside o l =>
    obtain ⟨rfl, same⟩ := shared (by rw [phase]; rfl)
    simp only [phase] at h ⊢
    rw [memory, same, List.length_append]
    exact ⟨h.1, h.2.1, Nat.le_add_right_of_le h.2.2.1, h.2.2.2⟩
  | leaving o r =>
    simp only [phase] at h ⊢
    obtain ⟨after, earlier, later, split, rest⟩ := h
    rw [memory]
    exact ⟨after, earlier, later ++ more, by simp [split], rest⟩

namespace Linearized

variable {P : Program τ σ π ο ℓ ρ} {result : ο → π → σ → ρ × σ} {x : σ} {m : τ → π} {s u : State τ σ π ο ℓ ρ} {t : τ}

theorem first : Linearized P result x m (State.first x m) where
  shared _ := rfl
  holder _ := by simp [State.first, Phase.holds]
  thread _ := rfl
  allowed _ h := absurd h List.not_mem_nil

/-- The thread inside its section holds the lock, and no other does. -/
theorem outside (h : Linearized P result x m s) {v : τ} (other : v ≠ t)
    (own : s.holder = none ∨ s.holder = some t) : (s.threads v).phase.holds = false := by
  rw [Bool.eq_false_iff]
  intro inside
  have holds := (h.holder v).mpr inside
  rcases own with own | own <;> rw [own] at holds
  · cases holds
  · exact other (Option.some.inj holds).symm

/-- A step of one thread: what it must keep is its own accord, the lock, and what the others see. -/
theorem step (h : Linearized P result x m s) {thread : Thread π ο ℓ ρ} {y : σ} {holder : Option τ}
    {more : List (τ × ο)} (own : thread.Accords P result x m y (s.log ++ more) t)
    (held : holder = some t ↔ thread.phase.holds = true)
    (free : holder = none → y = (serial P result x m (s.log ++ more)).shared)
    (allowed : ∀ e ∈ more, e.1 = t ∧ P.allowed e.1 e.2 = true)
    (memory : ∀ v, v ≠ t → (serial P result x m (s.log ++ more)).memory v = (serial P result x m s.log).memory v)
    (others : ∀ v, v ≠ t → (holder = some v ↔ s.holder = some v))
    (seen : ∀ v, v ≠ t → (s.threads v).phase.holds = true →
      y = s.shared ∧ (serial P result x m (s.log ++ more)).shared = (serial P result x m s.log).shared) :
    Linearized P result x m
      { s.set t thread with shared := y, holder := holder, log := s.log ++ more } where
  shared := free
  holder v := by
    rcases eq_or_ne v t with rfl | other
    · simpa only [State.set, Function.update_self] using held
    · simpa only [State.set, Function.update_of_ne other, others v other] using h.holder v
  thread v := by
    rcases eq_or_ne v t with rfl | other
    · simpa only [State.set, Function.update_self] using own
    · simpa only [State.set, Function.update_of_ne other] using
        (h.thread v).frame (memory v other) (seen v other)
  allowed e mem := by
    rcases List.mem_append.mp mem with old | new
    · exact h.allowed e old
    · exact (allowed e new).2

/-- A step in which no operation takes effect. -/
theorem quiet (h : Linearized P result x m s) {thread : Thread π ο ℓ ρ} {y : σ} (holder : Option τ)
    (own : thread.Accords P result x m y s.log t) (held : holder = some t ↔ thread.phase.holds = true)
    (free : holder = none → y = (serial P result x m s.log).shared)
    (others : ∀ v, v ≠ t → (holder = some v ↔ s.holder = some v))
    (seen : ∀ v, v ≠ t → (s.threads v).phase.holds = true → y = s.shared) :
    Linearized P result x m { s.set t thread with shared := y, holder := holder } := by
  have next := h.step (by rwa [List.append_nil s.log]) held (by rwa [List.append_nil s.log])
    (fun _ h => absurd h List.not_mem_nil) (fun _ _ => by rw [List.append_nil]) others
    (fun v other inside => ⟨seen v other inside, by rw [List.append_nil]⟩)
  rwa [List.append_nil] at next

theorem start {o : ο} (h : Linearized P result x m s) (step : P.next s (.start t o) = some u) :
    Linearized P result x m u := by
  obtain ⟨idle, allowed, effect⟩ := Program.next_start step
  have own := h.thread t
  simp only [Thread.Accords, idle] at own
  have outside : s.holder = some t ↔ false = true := by
    rw [h.holder t, idle]
    rfl
  rcases effect with ⟨locks, rfl⟩ | ⟨free, rfl⟩
  · have accords : Thread.Accords P result x m s.shared s.log t
        ⟨P.before o (s.threads t).memory, .waiting o, s.log.length⟩ :=
      ⟨allowed, locks, Nat.le_refl _, by rw [own]⟩
    exact h.quiet s.holder accords outside h.shared (fun _ _ => Iff.rfl) (fun _ _ _ => rfl)
  · have performed : serial P result x m (s.log ++ [(t, o)]) =
        ⟨(serial P result x m s.log).shared, Function.update (serial P result x m s.log).memory t
          (P.before o (s.threads t).memory)⟩ := by
      rw [serial_append_singleton]
      rw [own] at free ⊢
      exact Serial.perform_free free
    refine h.step ?_ outside ?_ ?_ ?_ (fun _ _ => Iff.rfl) ?_
    · simp only [Thread.Accords, performed, Function.update_self]
    · rw [performed]
      exact h.shared
    · rintro e mem
      cases List.mem_singleton.mp mem
      exact ⟨rfl, allowed⟩
    · intro v other
      rw [performed]
      exact Function.update_of_ne other _ _
    · intro v other inside
      rw [performed]
      exact ⟨rfl, rfl⟩

theorem acquire (performs : P.Performs result) (h : Linearized P result x m s)
    (step : P.next s (.acquire t) = some u) : Linearized P result x m u := by
  obtain ⟨o, waits, free, rfl⟩ := Program.next_acquire step
  have own := h.thread t
  simp only [Thread.Accords, waits] at own
  obtain ⟨allowed, locks, bound, same⟩ := own
  have accords : Thread.Accords P result x m s.shared s.log t
      { s.threads t with phase := .inside o (P.enter o (s.threads t).memory) } := by
    refine ⟨allowed, locks, bound, same, ?_⟩
    rw [h.shared free]
    exact performs o (s.threads t).memory (serial P result x m s.log).shared
  exact h.quiet (some t) accords (by simp [Phase.holds]) (fun h => by cases h)
    (fun v other => by simp [free, other.symm])
    (fun v other inside => absurd inside (Bool.eq_false_iff.mp (h.outside other (.inl free))))

theorem micro (h : Linearized P result x m s) (step : P.next s (.micro t) = some u) : Linearized P result x m u := by
  obtain ⟨o, l, inside, effect⟩ := Program.next_micro step
  have held : s.holder = some t := (h.holder t).mpr (by rw [inside]; rfl)
  have own := h.thread t
  simp only [Thread.Accords, inside] at own
  obtain ⟨allowed, locks, bound, same, executes⟩ := own
  have alone : ∀ v, v ≠ t → ¬ (s.threads v).phase.holds = true :=
    fun v other => Bool.eq_false_iff.mp (h.outside other (.inr held))
  rcases effect with ⟨k, y, micro, rfl⟩ | ⟨r, micro, rfl⟩
  · have rest := executes.rest micro
    have accords : Thread.Accords P result x m y s.log t { s.threads t with phase := .inside o k } :=
      ⟨allowed, locks, bound, same, rest⟩
    exact h.quiet s.holder accords (by simp [held, Phase.holds]) (by simp [held]) (fun _ _ => Iff.rfl)
      (fun v other inside => absurd inside (alone v other))
  · obtain ⟨answer, left⟩ := executes.end micro
    have performed := serial_append_singleton P result x m s.log (t, o)
    rw [Serial.perform_locks same locks] at performed
    refine h.step ?_ (by simp [Phase.holds]) (fun _ => by rw [performed]; exact left) ?_ ?_ ?_ ?_
    · refine ⟨?_, s.log, [], rfl, bound, same, answer⟩
      rw [performed, ← answer]
      simp only [Function.update_self]
    · intro e mem
      cases List.mem_singleton.mp mem
      exact ⟨rfl, allowed⟩
    · intro v other
      rw [performed]
      exact Function.update_of_ne other _ _
    · intro v other
      simp [held, other.symm]
    · exact fun v other inside => absurd inside (alone v other)

theorem finish (h : Linearized P result x m s) (step : P.next s (.finish t) = some u) :
    Linearized P result x m u := by
  obtain ⟨o, r, leaves, rfl⟩ := Program.next_finish step
  have own := h.thread t
  simp only [Thread.Accords, leaves] at own
  have accords : Thread.Accords P result x m s.shared s.log t
      ⟨P.after o r (s.threads t).memory, .idle, (s.threads t).begun⟩ := own.1
  have outside : s.holder = some t ↔ false = true := by
    rw [h.holder t, leaves]
    rfl
  exact h.quiet s.holder accords outside h.shared (fun _ _ => Iff.rfl) (fun _ _ _ => rfl)

theorem next (performs : P.Performs result) (h : Linearized P result x m s) {l : Label τ ο}
    (step : P.next s l = some u) : Linearized P result x m u := by
  cases l with
  | start t o => exact h.start step
  | acquire t => exact h.acquire performs step
  | micro t => exact h.micro step
  | finish t => exact h.finish step

theorem run (performs : P.Performs result) {ls : List (Label τ ο)} (run : Run (Takes P.next) (State.first x m) ls s) :
    Linearized P result x m s :=
  run.invariant first fun _ _ _ h step => h.next performs step

end Linearized

end Locked
