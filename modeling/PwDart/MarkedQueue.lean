import Mathlib.Data.List.TakeWhile

namespace MarkedQueue

/-- What a queue holds in front of its first marked entry. -/
def ahead {α : Type*} (mark : α → Bool) (l : List α) : List α :=
  l.takeWhile fun x => !mark x

theorem ahead_append_of_unmarked {α : Type*} {mark : α → Bool} {l : List α}
    (unmarked : ∀ y ∈ l, mark y = false) (r : List α) :
    ahead mark (l ++ r) = l ++ ahead mark r :=
  List.takeWhile_append_of_pos fun y hy => by simp [unmarked y hy]

theorem ahead_append_of_marked {α : Type*} {mark : α → Bool} {l : List α} {y : α} (hy : y ∈ l)
    (marked : mark y = true) (r : List α) : ahead mark (l ++ r) = ahead mark l := by
  induction l with
  | nil => cases hy
  | cons x l ih =>
    by_cases hx : mark x = true
    · simp [ahead, hx]
    · rcases List.mem_cons.mp hy with rfl | hy
      · exact absurd marked hx
      · simpa [ahead, hx] using ih hy

theorem ahead_of_unmarked {α : Type*} {mark : α → Bool} {l : List α}
    (unmarked : ∀ y ∈ l, mark y = false) : ahead mark l = l := by
  simpa [ahead] using ahead_append_of_unmarked unmarked []

theorem mem_of_mem_ahead {α : Type*} {mark : α → Bool} {l : List α} {x : α}
    (h : x ∈ ahead mark l) : x ∈ l :=
  (List.takeWhile_prefix _).subset h

theorem mem_ahead_append {α : Type*} {mark : α → Bool} {l : List α} {x : α}
    (h : x ∈ ahead mark l) (r : List α) : x ∈ ahead mark (l ++ r) := by
  by_cases marked : ∃ y ∈ l, mark y = true
  · obtain ⟨y, hy, hmark⟩ := marked
    rwa [ahead_append_of_marked hy hmark]
  · have unmarked : ∀ y ∈ l, mark y = false := by simpa using marked
    rw [ahead_append_of_unmarked unmarked]
    exact List.mem_append_left _ (mem_of_mem_ahead h)

theorem mem_ahead_cons {α : Type*} {mark : α → Bool} {l : List α} {x y : α}
    (h : x ∈ ahead mark (y :: l)) : mark y = false ∧ (x = y ∨ x ∈ ahead mark l) := by
  by_cases hy : mark y = true
  · simp [ahead, hy] at h
  · simp only [Bool.not_eq_true] at hy
    simpa [ahead, hy] using h

/-- An entry in the middle may be replaced by others, unless that brings in a mark. -/
theorem mem_ahead_replace {α : Type*} {mark : α → Bool} {a b c : List α} {r x : α}
    (h : x ∈ ahead mark (a ++ r :: c)) (other : x ≠ r) (marks : ∀ y ∈ b, mark y = true → mark r = true) :
    x ∈ ahead mark (a ++ (b ++ c)) := by
  by_cases marked : ∃ y ∈ a, mark y = true
  · obtain ⟨y, hy, hmark⟩ := marked
    rw [ahead_append_of_marked hy hmark] at h ⊢
    exact h
  · have unmarked : ∀ y ∈ a, mark y = false := by simpa using marked
    rw [ahead_append_of_unmarked unmarked] at h ⊢
    rcases List.mem_append.mp h with h | h
    · exact List.mem_append_left _ h
    · obtain ⟨free, same | later⟩ := mem_ahead_cons h
      · exact absurd same other
      · have fresh : ∀ y ∈ b, mark y = false := by
          intro y hy
          by_contra hmark
          simp [marks y hy (by simpa using hmark)] at free
        rw [ahead_append_of_unmarked fresh]
        exact List.mem_append_right _ (List.mem_append_right _ later)

theorem mem_ahead_insert {α : Type*} {mark : α → Bool} {a b c : List α} {x : α}
    (h : x ∈ ahead mark (a ++ c)) (unmarked : ∀ y ∈ b, mark y = false) :
    x ∈ ahead mark (a ++ (b ++ c)) := by
  by_cases marked : ∃ y ∈ a, mark y = true
  · obtain ⟨y, hy, hmark⟩ := marked
    rw [ahead_append_of_marked hy hmark] at h ⊢
    exact h
  · have free : ∀ y ∈ a, mark y = false := by simpa using marked
    rw [ahead_append_of_unmarked free] at h ⊢
    rw [ahead_append_of_unmarked unmarked]
    rcases List.mem_append.mp h with h | h
    · exact List.mem_append_left _ h
    · exact List.mem_append_right _ (List.mem_append_right _ h)

/-- Nothing in front of an entry that is ahead of the mark is marked. -/
theorem unmarked_of_mem_ahead {α : Type*} {mark : α → Bool} {a c : List α} {x : α}
    (h : x ∈ ahead mark (a ++ c)) (behind : x ∉ a) : ∀ y ∈ a, mark y = false := by
  intro y hy
  by_contra marked
  rw [ahead_append_of_marked hy (by simpa using marked)] at h
  exact behind (mem_of_mem_ahead h)

end MarkedQueue
