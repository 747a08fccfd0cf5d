import PwDart.ObjectTrace

namespace ObjectTrace

variable {α η : Type*} [DecidableEq α] [DecidableEq η] {first : α → α → Bool} {number : α → Nat} {holds : α → Prop}
  {next : Nat} {trace : List (Call α η)}

/-- All calls of the trace were allowed, `holds` says which objects are live, and every object made so far has a
number below `next`. -/
def Account (first : α → α → Bool) (number : α → Nat) (holds : α → Prop) (next : Nat) (trace : List (Call α η)) :
    Prop :=
  ∃ heap : Heap α η, accept first trace = some heap ∧ (∀ o, o ∈ heap.live ↔ holds o) ∧
    ∀ o ∈ heap.created, number o < next

namespace Account

theorem start : Account first number (fun _ => False) 0 ([] : List (Call α η)) :=
  ⟨{}, rfl, fun o => by simp, fun o made => by cases made⟩

theorem mono (h : Account first number holds next trace) {later : Nat} (le : next ≤ later) :
    Account first number holds later trace := by
  obtain ⟨heap, accepted, live, below⟩ := h
  exact ⟨heap, accepted, live, fun o made => Nat.lt_of_lt_of_le (below o made) le⟩

theorem congr (h : Account first number holds next trace) {other : α → Prop} (same : ∀ o, holds o ↔ other o) :
    Account first number other next trace := by
  obtain ⟨heap, accepted, live, below⟩ := h
  exact ⟨heap, accepted, fun o => (live o).trans (same o), below⟩

theorem create (h : Account first number holds next trace) (o : α) (through : List α) (new : next ≤ number o)
    (known : ∀ p ∈ through, holds p) :
    Account first number (fun p => holds p ∨ p = o) (number o + 1) (trace ++ [.create o through]) := by
  obtain ⟨heap, accepted, live, below⟩ := h
  have unmade : o ∉ heap.created := by
    intro made
    have lt := below o made
    omega
  refine ⟨{ heap with created := heap.created ++ [o], live := heap.live ++ [o] },
    accept_append_singleton.mpr ⟨heap, accepted, if_pos ⟨unmade, fun p mem => (live p).mpr (known p mem)⟩⟩, ?_, ?_⟩
  · intro p
    rw [List.mem_append, List.mem_singleton, live p]
  · intro p made
    rcases List.mem_append.mp made with before | same
    · have lt := below p before
      omega
    · rw [List.mem_singleton.mp same]
      exact Nat.lt_succ_self _

theorem use (h : Account first number holds next trace) {o : α} (held : holds o) :
    Account first number holds next (trace ++ [.use o]) := by
  obtain ⟨heap, accepted, live, below⟩ := h
  exact ⟨heap, accept_append_singleton.mpr ⟨heap, accepted, if_pos ((live o).mpr held)⟩, live, below⟩

theorem destroy (h : Account first number holds next trace) {o : α} (held : holds o)
    (last : ∀ p, holds p → first p o = false) :
    Account first number (fun p => holds p ∧ p ≠ o) next (trace ++ [.destroy o]) := by
  obtain ⟨heap, accepted, live, below⟩ := h
  refine ⟨{ heap with live := heap.live.filter fun p => p ≠ o },
    accept_append_singleton.mpr ⟨heap, accepted, if_pos ⟨(live o).mpr held, fun p mem => last p ((live p).mp mem)⟩⟩,
    ?_, below⟩
  intro p
  rw [List.mem_filter, live p, decide_eq_true_iff]

/-- An object that is made, used and destroyed again leaves nothing behind. -/
theorem borrow (h : Account first number holds next trace) (o : α) (through used : List α) (new : next ≤ number o)
    (fresh : ¬holds o) (known : ∀ p ∈ through, holds p) (last : ∀ p, first p o = false)
    (usable : ∀ p ∈ used, holds p ∨ p = o) :
    Account first number holds (number o + 1)
      (trace ++ ([.create o through] ++ (used.map Call.use ++ [.destroy o]))) := by
  have made := h.create o through new known
  have after : Account first number (fun p => holds p ∨ p = o) (number o + 1)
      (trace ++ [.create o through] ++ used.map Call.use) := by
    induction used using List.reverseRecOn with
    | nil => simpa using made
    | append_singleton used p ih =>
      have before := ih fun q mem => usable q (List.mem_append_left _ mem)
      have now := before.use (usable p (by simp))
      simpa using now
  have gone := after.destroy (Or.inr rfl) fun p _ => last p
  rw [← List.append_assoc, ← List.append_assoc]
  refine gone.congr fun p => ⟨?_, fun held => ⟨Or.inl held, ?_⟩⟩
  · rintro ⟨held | same, other⟩
    · exact held
    · exact absurd same other
  · rintro rfl
    exact fresh held

/-- Every object that a call names has been made before it. -/
theorem named_made (h : Account first number holds next trace) {before after : List (Call α η)} {call : Call α η}
    (split : trace = before ++ call :: after) {o : α} (named : o ∈ call.names) : o ∈ made before := by
  obtain ⟨heap, accepted, _, _⟩ := h
  rw [split, accept, List.foldlM_append] at accepted
  obtain ⟨mid, first, rest⟩ := Option.bind_eq_some_iff.mp accepted
  rw [List.foldlM_cons] at rest
  obtain ⟨heap', step, _⟩ := Option.bind_eq_some_iff.mp rest
  have records := (lawful_of_accept first).2
  have live : o ∈ mid.live := by
    cases call with
    | create p through =>
      obtain ⟨⟨_, known⟩, _⟩ := Option.ite_none_right_eq_some.mp step
      exact known o named
    | use p =>
      obtain ⟨here, _⟩ := Option.ite_none_right_eq_some.mp step
      exact List.mem_singleton.mp named ▸ here
    | addListener p x =>
      obtain ⟨⟨here, _⟩, _⟩ := Option.ite_none_right_eq_some.mp step
      exact List.mem_singleton.mp named ▸ here
    | hookRemove | freeHook => cases named
    | destroy p =>
      obtain ⟨⟨here, _⟩, _⟩ := Option.ite_none_right_eq_some.mp step
      exact List.mem_singleton.mp named ▸ here
  exact mem_made.mpr ((records.created o).mp ((records.live o).mp live).1)

/-- The trace is lawful, and what it has made and not destroyed is what is held. -/
theorem balance (h : Account first number holds next trace) :
    Lawful first trace ∧ ∀ o, o ∈ made trace ∧ .destroy o ∉ trace ↔ holds o := by
  obtain ⟨heap, accepted, live, _⟩ := h
  obtain ⟨lawful, records⟩ := lawful_of_accept accepted
  refine ⟨lawful, fun o => ?_⟩
  rw [← live o, records.live o, records.created o, mem_made]

end Account

end ObjectTrace
