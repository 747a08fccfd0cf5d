import Mathlib.Data.List.Basic

namespace ReadableCodes

section Readable

variable {α β : Type*} {write : α → List β} {stop last : List β → Prop}

/-- Whatever follows a written value, as long as it is what may follow one, the value and the rest can be told. -/
def Readable (write : α → List β) (stop : List β → Prop) : Prop :=
  ∀ a b x y, stop x → stop y → write a ++ x = write b ++ y → a = b ∧ x = y

def Begins (p : β → Prop) (x : List β) : Prop := ∃ c rest, x = c :: rest ∧ p c

/-- Two texts of some units end together, where other units follow both. -/
theorem eq_of_units {p : β → Prop} {s t x y : List β} (units : ∀ c ∈ s, p c) (units' : ∀ c ∈ t, p c)
    (ends : Begins (fun c => ¬p c) x) (ends' : Begins (fun c => ¬p c) y) (same : s ++ x = t ++ y) : s = t ∧ x = y := by
  induction s generalizing t with
  | nil =>
    cases t with
    | nil => exact ⟨rfl, same⟩
    | cons d t =>
      obtain ⟨c, rest, rfl, other⟩ := ends
      obtain ⟨rfl, _⟩ := List.cons.inj same
      exact absurd (units' c List.mem_cons_self) other
  | cons c s ih =>
    cases t with
    | nil =>
      obtain ⟨d, rest, rfl, other⟩ := ends'
      obtain ⟨rfl, _⟩ := List.cons.inj same
      exact absurd (units c List.mem_cons_self) other
    | cons d t =>
      obtain ⟨rfl, later⟩ := List.cons.inj same
      obtain ⟨rfl, rest⟩ := ih (fun e mem => units e (List.mem_cons_of_mem _ mem))
        (fun e mem => units' e (List.mem_cons_of_mem _ mem)) later
      exact ⟨rfl, rest⟩

theorem readable_of_units {p : β → Prop} (inj : ∀ a b, write a = write b → a = b) (units : ∀ a, ∀ c ∈ write a, p c) :
    Readable write (Begins fun c => ¬p c) := by
  intro a b x y ends ends' same
  obtain ⟨same, rest⟩ := eq_of_units (units a) (units b) ends ends' same
  exact ⟨inj a b same, rest⟩

/-- A list is read item by item, up to something that is no item. -/
theorem Readable.flatMap (h : Readable write stop) (item : ∀ a x, stop (write a ++ x)) (ends : ∀ x, last x → stop x)
    (apart : ∀ a x, ¬last (write a ++ x)) : Readable (fun as : List α => as.flatMap write) last := by
  intro as
  induction as with
  | nil =>
    intro bs x y hx hy same
    cases bs with
    | nil => exact ⟨rfl, same⟩
    | cons b bs =>
      have opened : x = write b ++ (bs.flatMap write ++ y) := by simpa using same
      exact absurd (opened ▸ hx) (apart b _)
  | cons a as ih =>
    intro bs x y hx hy same
    dsimp only at same
    rw [List.flatMap_cons, List.append_assoc] at same
    cases bs with
    | nil =>
      have opened : write a ++ (as.flatMap write ++ x) = y := same
      exact absurd (opened ▸ hy) (apart a _)
    | cons b bs =>
      rw [List.flatMap_cons, List.append_assoc] at same
      have follows (cs : List α) {z : List β} (hz : last z) : stop (cs.flatMap write ++ z) := by
        cases cs with
        | nil => exact ends z hz
        | cons c cs =>
          rw [List.flatMap_cons, List.append_assoc]
          exact item c _
      obtain ⟨rfl, others⟩ := h a b _ _ (follows as hx) (follows bs hy) same
      obtain ⟨rfl, rest⟩ := ih bs x y hx hy others
      exact ⟨rfl, rest⟩

/-- Items with a separator between them. -/
def joined (separator : List β) (write : α → List β) : List α → List β
  | [] => []
  | a :: as => write a ++ as.flatMap fun b => separator ++ write b

theorem Readable.joined (h : Readable write stop) {separator : List β} (item : ∀ x, stop (separator ++ x))
    (ends : ∀ x, last x → stop x) (apart : ∀ x, ¬last (separator ++ x)) (first : ∀ a x, ¬last (write a ++ x)) :
    Readable (joined separator write) last := by
  have separated : Readable (fun b => separator ++ write b) stop := by
    intro a b x y hx hy same
    simp only [List.append_assoc] at same
    exact h a b x y hx hy (List.append_cancel_left same)
  have later : Readable (fun as : List α => as.flatMap fun b => separator ++ write b) last := by
    apply separated.flatMap
    · intro a x
      rw [List.append_assoc]
      exact item _
    · exact ends
    · intro a x
      rw [List.append_assoc]
      exact apart _
  have follows (as : List α) {z : List β} (hz : last z) : stop ((as.flatMap fun b => separator ++ write b) ++ z) := by
    cases as with
    | nil => exact ends z hz
    | cons a as =>
      rw [List.flatMap_cons, List.append_assoc, List.append_assoc]
      exact item _
  intro as bs x y hx hy same
  cases as with
  | nil =>
    cases bs with
    | nil => exact ⟨rfl, same⟩
    | cons b bs =>
      rw [ReadableCodes.joined, ReadableCodes.joined, List.nil_append, List.append_assoc] at same
      exact absurd (same ▸ hx) (first b _)
  | cons a as =>
    cases bs with
    | nil =>
      rw [ReadableCodes.joined, ReadableCodes.joined, List.nil_append, List.append_assoc] at same
      exact absurd (show last (write a ++ _) from same ▸ hy) (first a _)
    | cons b bs =>
      rw [ReadableCodes.joined, ReadableCodes.joined, List.append_assoc, List.append_assoc] at same
      obtain ⟨rfl, others⟩ := h a b _ _ (follows as hx) (follows bs hy) same
      obtain ⟨rfl, rest⟩ := later as bs x y hx hy others
      exact ⟨rfl, rest⟩

/-- A list that is left out when it is empty, and stands between two marks otherwise. -/
def bracketed (opening closing : List β) (write : List α → List β) (as : List α) : List β :=
  if as.isEmpty then [] else opening ++ write as ++ closing

theorem Readable.bracketed {write : List α → List β} (h : Readable write last) {opening closing : List β}
    (closes : ∀ x, last (closing ++ x)) (apart : ∀ x, ¬stop (opening ++ x)) :
    Readable (bracketed opening closing write) stop := by
  intro as bs x y hx hy same
  cases as with
  | nil =>
    cases bs with
    | nil => exact ⟨rfl, same⟩
    | cons b bs =>
      have opened : x = opening ++ (write (b :: bs) ++ (closing ++ y)) := by
        simpa [ReadableCodes.bracketed] using same
      exact absurd (opened ▸ hx) (apart _)
  | cons a as =>
    cases bs with
    | nil =>
      have opened : opening ++ (write (a :: as) ++ (closing ++ x)) = y := by
        simpa [ReadableCodes.bracketed] using same
      exact absurd (opened ▸ hy) (apart _)
    | cons b bs =>
      have inside : write (a :: as) ++ (closing ++ x) = write (b :: bs) ++ (closing ++ y) := by
        simpa [ReadableCodes.bracketed] using same
      obtain ⟨same, rest⟩ := h _ _ _ _ (closes x) (closes y) inside
      exact ⟨same, List.append_cancel_left rest⟩

end Readable

section Escapes

variable {β : Type*} [DecidableEq β] {e : β} {marks : List β}

/-- Every mark has the unit `e` in front of it. -/
def escape (e : β) (marks s : List β) : List β := s.flatMap fun c => if c ∈ marks then [e, c] else [c]

/-- What cannot come of an escaped text: a bare mark, or an escape of what is no mark. -/
def StopsEscape (e : β) (marks x : List β) : Prop :=
  (∃ c rest, x = c :: rest ∧ c ∈ marks ∧ c ≠ e) ∨ ∃ d rest, x = e :: d :: rest ∧ d ∉ marks

theorem not_stopsEscape (own : e ∈ marks) (d : β) (t y : List β) :
    ¬StopsEscape e marks (escape e marks (d :: t) ++ y) := by
  rw [escape, List.flatMap_cons, List.append_assoc]
  by_cases marked : d ∈ marks
  · rw [if_pos marked]
    rintro (⟨c, rest, same, _, other⟩ | ⟨c, rest, same, unmarked⟩)
    · exact other (List.cons.inj same).1.symm
    · exact unmarked ((List.cons.inj (List.cons.inj same).2).1 ▸ marked)
  · rw [if_neg marked]
    rintro (⟨c, rest, same, bare, _⟩ | ⟨c, rest, same, _⟩)
    · exact marked ((List.cons.inj same).1 ▸ bare)
    · exact marked ((List.cons.inj same).1 ▸ own)

theorem readable_escape (own : e ∈ marks) : Readable (escape e marks) (StopsEscape e marks) := by
  intro s
  induction s with
  | nil =>
    intro t x y hx hy same
    cases t with
    | nil => exact ⟨rfl, same⟩
    | cons d t => exact absurd ((show x = _ from same) ▸ hx) (not_stopsEscape own d t y)
  | cons c s ih =>
    intro t x y hx hy same
    cases t with
    | nil => exact absurd ((show _ = y from same) ▸ hy) (not_stopsEscape own c s x)
    | cons d t =>
      have first : c = d ∧ escape e marks s ++ x = escape e marks t ++ y := by
        simp only [escape, List.flatMap_cons, List.append_assoc] at same ⊢
        by_cases marked : c ∈ marks
        · by_cases marked' : d ∈ marks
          · simpa [marked, marked'] using same
          · have mark : e = d := by simpa [marked, marked'] using (congrArg List.head? same)
            exact absurd (mark ▸ own) marked'
        · by_cases marked' : d ∈ marks
          · have mark : c = e := by simpa [marked, marked'] using (congrArg List.head? same)
            exact absurd (mark ▸ own) marked
          · simpa [marked, marked'] using same
      obtain ⟨rfl, others⟩ := first
      obtain ⟨rfl, rest⟩ := ih t x y hx hy others
      exact ⟨rfl, rest⟩

end Escapes

end ReadableCodes
