import PwDart.LabelledRun

namespace BoundedFifo

open LabelledRun

/-- What a call on a bounded queue comes to at the instant it takes effect. -/
inductive Op (α : Type*)
  | push (v : α)
  | pop (v : α)
  | full
  | empty

inductive Step {α : Type*} (capacity : Nat) : List α → Op α → List α → Prop
  | push {q : List α} {v : α} (room : q.length < capacity) : Step capacity q (.push v) (q ++ [v])
  | pop {q : List α} {v : α} : Step capacity (v :: q) (.pop v) q
  | full {q : List α} (full : q.length = capacity) : Step capacity q .full q
  | empty : Step capacity [] .empty []

def pushed {α : Type*} (ops : List (Op α)) : List α :=
  ops.filterMap fun
    | .push v => some v
    | _ => none

def popped {α : Type*} (ops : List (Op α)) : List α :=
  ops.filterMap fun
    | .pop v => some v
    | _ => none

/-- What was pushed is what was popped, followed by what is still there. -/
theorem run_conserves {α : Type*} {capacity : Nat} {ops : List (Op α)} {q : List α}
    (run : Run (Step capacity) [] ops q) : pushed ops = popped ops ++ q ∧ q.length ≤ capacity := by
  induction run with
  | start => simp [pushed, popped]
  | next _ step ih =>
    obtain ⟨conserved, bounded⟩ := ih
    cases step with
    | push room => exact ⟨by simp_all [pushed, popped], by rw [List.length_append]; exact room⟩
    | pop => exact ⟨by simp_all [pushed, popped], by simp only [List.length_cons] at bounded; omega⟩
    | full | empty => exact ⟨by simp_all [pushed, popped], bounded⟩

end BoundedFifo
