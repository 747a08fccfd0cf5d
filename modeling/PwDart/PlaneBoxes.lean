import Mathlib.Algebra.Order.Ring.Abs
import Mathlib.Data.List.Pairwise
import Mathlib.Tactic.Linarith

namespace PlaneBoxes

structure Point (K : Type*) where
  x : K
  y : K
deriving DecidableEq

/-- A box with its top and left edges, but without the others. -/
structure Box (K : Type*) where
  left : K
  top : K
  width : K
  height : K
deriving DecidableEq

variable {K : Type*} [CommRing K] [LinearOrder K]

namespace Box

def right (b : Box K) : K := b.left + b.width

def bottom (b : Box K) : K := b.top + b.height

def Contains (b : Box K) (p : Point K) : Prop := b.left ≤ p.x ∧ p.x < b.right ∧ b.top ≤ p.y ∧ p.y < b.bottom

instance (b : Box K) (p : Point K) : Decidable (b.Contains p) := inferInstanceAs (Decidable (_ ∧ _ ∧ _ ∧ _))

/-- One ends before the other begins, in one direction at least. -/
def Apart (b c : Box K) : Prop := b.right ≤ c.left ∨ c.right ≤ b.left ∨ b.bottom ≤ c.top ∨ c.bottom ≤ b.top

theorem Apart.symm {b c : Box K} (apart : Apart b c) : Apart c b := by
  rcases apart with h | h | h | h
  · exact .inr (.inl h)
  · exact .inl h
  · exact .inr (.inr (.inr h))
  · exact .inr (.inr (.inl h))

/-- No point is in two boxes that are apart. -/
theorem Apart.not_contains {b c : Box K} (apart : Apart b c) {p : Point K} (inside : b.Contains p) :
    ¬c.Contains p := by
  obtain ⟨left, right, top, bottom⟩ := inside
  rintro ⟨left', right', top', bottom'⟩
  rcases apart with h | h | h | h
  · exact absurd (right.trans_le (h.trans left')) (lt_irrefl _)
  · exact absurd (right'.trans_le (h.trans left)) (lt_irrefl _)
  · exact absurd (bottom.trans_le (h.trans top')) (lt_irrefl _)
  · exact absurd (bottom'.trans_le (h.trans top)) (lt_irrefl _)

end Box

/-- Less than `r` from each other in either coordinate. -/
def Point.Near (r : K) (p q : Point K) : Prop := |p.x - q.x| < r ∧ |p.y - q.y| < r

/-- Two points that are both near a third are near each other. -/
theorem Point.Near.close [IsStrictOrderedRing K] {r : K} {p q m : Point K} (near : p.Near r m) (near' : q.Near r m) :
    p.Near (2 * r) q := by
  constructor
  · calc |p.x - q.x| ≤ |p.x - m.x| + |m.x - q.x| := abs_sub_le _ _ _
      _ = |p.x - m.x| + |q.x - m.x| := by rw [abs_sub_comm m.x q.x]
      _ < 2 * r := by linarith [near.1, near'.1]
  · calc |p.y - q.y| ≤ |p.y - m.y| + |m.y - q.y| := abs_sub_le _ _ _
      _ = |p.y - m.y| + |q.y - m.y| := by rw [abs_sub_comm m.y q.y]
      _ < 2 * r := by linarith [near.2, near'.2]

/-- Items one below the other with a gap between them, each with the place where it begins. -/
def stack {α : Type*} (height : α → K) (gap : K) : K → List α → List (α × K)
  | _, [] => []
  | y, a :: as => (a, y) :: stack height gap (y + (height a + gap)) as

section Stack

variable {α : Type*} {height : α → K} {gap : K}

omit [LinearOrder K] in
theorem map_fst_stack (height : α → K) (gap y : K) (as : List α) : (stack height gap y as).map Prod.fst = as := by
  induction as generalizing y with
  | nil => rfl
  | cons a as ih => rw [stack, List.map_cons, ih]

omit [LinearOrder K] in
/-- An item is the first, or right below another. -/
theorem top_of_mem_stack {y : K} {as : List α} {placed : α × K} (mem : placed ∈ stack height gap y as) :
    placed.2 = y ∨ ∃ upper ∈ stack height gap y as, placed.2 = upper.2 + (height upper.1 + gap) := by
  induction as generalizing y with
  | nil => cases mem
  | cons a as ih =>
    rcases List.mem_cons.mp mem with rfl | later
    · exact .inl rfl
    · right
      rcases ih later with top | ⟨upper, here, below⟩
      · exact ⟨(a, y), List.mem_cons_self, top⟩
      · exact ⟨upper, List.mem_cons_of_mem _ here, below⟩

variable [IsStrictOrderedRing K]

theorem le_of_mem_stack (room : 0 ≤ gap) (tall : ∀ a, 0 ≤ height a) {y : K} {as : List α} {placed : α × K}
    (mem : placed ∈ stack height gap y as) : y ≤ placed.2 := by
  induction as generalizing y with
  | nil => cases mem
  | cons a as ih =>
    rcases List.mem_cons.mp mem with rfl | later
    · exact le_rfl
    · have below := ih later
      have positive := tall a
      linarith

/-- Whatever comes later begins a gap below the end of what came before. -/
theorem stack_pairwise (room : 0 ≤ gap) (tall : ∀ a, 0 ≤ height a) (y : K) (as : List α) :
    (stack height gap y as).Pairwise fun upper lower => upper.2 + height upper.1 + gap ≤ lower.2 := by
  induction as generalizing y with
  | nil => exact .nil
  | cons a as ih =>
    refine .cons (fun lower mem => ?_) (ih _)
    have below := le_of_mem_stack room tall mem
    change y + height a + gap ≤ lower.2
    linarith

end Stack

/-- Where no two items pass the test, a search finds whichever does. -/
theorem find?_iff_of_unique {α : Type*} {as : List α} {test : α → Bool}
    (unique : ∀ a ∈ as, ∀ b ∈ as, test a = true → test b = true → a = b) {a : α} :
    as.find? test = some a ↔ a ∈ as ∧ test a = true := by
  constructor
  · intro found
    exact ⟨List.mem_of_find?_eq_some found, List.find?_some found⟩
  · rintro ⟨mem, passed⟩
    cases found : as.find? test with
    | none => exact absurd passed (List.find?_eq_none.mp found a mem)
    | some b => rw [unique b (List.mem_of_find?_eq_some found) a mem (List.find?_some found) passed]

end PlaneBoxes
