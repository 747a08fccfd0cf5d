import Mathlib.Data.List.Basic

namespace DrainedQueue

/-- The consumer after it has taken everything in the queue. -/
def drained {σ ι : Type*} (receive : σ → ι → σ) (s : σ) (queue : List ι) : σ := queue.foldl receive s

/-- The predicate holds now and after each message that is on its way. -/
def Throughout {σ ι : Type*} (receive : σ → ι → σ) (P : σ → Prop) (s : σ) (queue : List ι) : Prop :=
  ∀ taken, taken <+: queue → P (drained receive s taken)

theorem drained_append_singleton {σ ι : Type*} (receive : σ → ι → σ) (s : σ) (queue : List ι) (m : ι) :
    drained receive s (queue ++ [m]) = receive (drained receive s queue) m := by
  rw [drained, List.foldl_append]
  rfl

theorem throughout_nil {σ ι : Type*} {receive : σ → ι → σ} {P : σ → Prop} {s : σ} (h : P s) :
    Throughout receive P s [] := by
  intro taken before
  rw [List.prefix_nil.mp before]
  exact h

theorem Throughout.now {σ ι : Type*} {receive : σ → ι → σ} {P : σ → Prop} {s : σ} {queue : List ι}
    (h : Throughout receive P s queue) : P s :=
  h [] List.nil_prefix

theorem Throughout.last {σ ι : Type*} {receive : σ → ι → σ} {P : σ → Prop} {s : σ} {queue : List ι}
    (h : Throughout receive P s queue) : P (drained receive s queue) :=
  h queue (List.prefix_refl queue)

/-- Taking the first message. -/
theorem Throughout.take {σ ι : Type*} {receive : σ → ι → σ} {P : σ → Prop} {s : σ} {m : ι} {queue : List ι}
    (h : Throughout receive P s (m :: queue)) : Throughout receive P (receive s m) queue := by
  intro taken before
  exact h (m :: taken) (List.prefix_cons_inj m |>.mpr before)

/-- A message can be sent when all is well once it has been taken. -/
theorem Throughout.send {σ ι : Type*} {receive : σ → ι → σ} {P : σ → Prop} {s : σ} {queue : List ι} {m : ι}
    (h : Throughout receive P s queue) (after : P (receive (drained receive s queue) m)) :
    Throughout receive P s (queue ++ [m]) := by
  intro taken before
  rcases List.prefix_concat_iff.mp before with whole | earlier
  · rw [whole, drained_append_singleton]
    exact after
  · exact h taken earlier

end DrainedQueue
