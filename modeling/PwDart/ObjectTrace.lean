import Mathlib.Data.List.Basic
import Mathlib.Data.List.Count
import Mathlib.Data.List.Induction

namespace ObjectTrace

/-- Calls that make and destroy objects, and link, unlink and free the hooks in their listener lists.
`through` are other objects that a call which makes one names. -/
inductive Call (α η : Type*)
  | create (o : α) (through : List α)
  | use (o : α)
  | addListener (o : α) (h : η)
  | hookRemove (h : η)
  | freeHook (h : η)
  | destroy (o : α)
deriving DecidableEq

namespace Call

variable {α η : Type*}

def names : Call α η → List α
  | create _ through => through
  | use o => [o]
  | addListener o _ => [o]
  | hookRemove _ => []
  | freeHook _ => []
  | destroy o => [o]

def makes : Call α η → List α
  | create o _ => [o]
  | _ => []

def hooks : Call α η → List η
  | addListener _ h => [h]
  | hookRemove h => [h]
  | freeHook h => [h]
  | _ => []

end Call

variable {α η : Type*}

def made (trace : List (Call α η)) : List α := trace.flatMap Call.makes

theorem mem_made {trace : List (Call α η)} {o : α} : o ∈ made trace ↔ ∃ through, .create o through ∈ trace := by
  constructor
  · intro here
    obtain ⟨call, called, makes⟩ := List.mem_flatMap.mp here
    cases call with
    | create p through =>
      cases List.mem_singleton.mp makes
      exact ⟨through, called⟩
    | use | addListener | hookRemove | freeHook | destroy => cases makes
  · rintro ⟨through, called⟩
    exact List.mem_flatMap.mpr ⟨_, called, List.mem_singleton_self o⟩

@[simp] theorem made_append (trace calls : List (Call α η)) : made (trace ++ calls) = made trace ++ made calls := by
  simp [made]

/-- The hook has been put into the listener list of the object and not been taken out. -/
def Linked (trace : List (Call α η)) (h : η) (o : α) : Prop :=
  ∃ before after, trace = before ++ .addListener o h :: after ∧ .hookRemove h ∉ after

/-- Nothing is named after its destruction or made twice, no hook is used after it is freed, taken out of
the list of an object that is gone, or freed in the list of one that is not, and what has to go first
goes first. -/
structure Allowed (first : α → α → Bool) (before : List (Call α η)) (call : Call α η) : Prop where
  named : ∀ o ∈ call.names, .destroy o ∉ before
  fresh : ∀ o through, call = .create o through → ∀ through', .create o through' ∉ before
  hooks : ∀ h ∈ call.hooks, .freeHook h ∉ before
  unlinked : ∀ h, call = .hookRemove h → ∀ o, Linked before h o → .destroy o ∉ before
  freed : ∀ h, call = .freeHook h → ∀ o, Linked before h o → .destroy o ∈ before
  order : ∀ o, call = .destroy o → ∀ p, first p o → (∃ through, .create p through ∈ before) → .destroy p ∈ before

def Lawful (first : α → α → Bool) (trace : List (Call α η)) : Prop :=
  ∀ before call after, trace = before ++ call :: after → Allowed first before call

theorem linked_append_singleton {trace : List (Call α η)} {call : Call α η} {h : η} {o : α} :
    Linked (trace ++ [call]) h o ↔ call = .addListener o h ∨ (Linked trace h o ∧ call ≠ .hookRemove h) := by
  constructor
  · rintro ⟨before, after, same, kept⟩
    rcases List.eq_nil_or_concat after with rfl | ⟨init, last, rfl⟩
    · obtain ⟨_, eq⟩ := List.append_inj' same rfl
      exact Or.inl (List.singleton_inj.mp eq)
    · rw [List.concat_eq_append, ← List.cons_append, ← List.append_assoc] at same
      obtain ⟨rfl, eq⟩ := List.append_inj' same rfl
      cases List.singleton_inj.mp eq
      simp only [List.concat_eq_append, List.mem_append, List.mem_singleton, not_or] at kept
      exact Or.inr ⟨⟨before, init, rfl, kept.1⟩, Ne.symm kept.2⟩
  · rintro (rfl | ⟨⟨before, after, rfl, kept⟩, other⟩)
    · exact ⟨trace, [], rfl, by simp⟩
    · refine ⟨before, after ++ [call], by simp, ?_⟩
      simp [kept, Ne.symm other]

theorem lawful_nil (first : α → α → Bool) : Lawful first ([] : List (Call α η)) := by
  intro before call after same
  simp at same

theorem lawful_append_singleton {first : α → α → Bool} {trace : List (Call α η)} {call : Call α η}
    (lawful : Lawful first trace) (allowed : Allowed first trace call) : Lawful first (trace ++ [call]) := by
  intro before c after same
  rcases List.eq_nil_or_concat after with rfl | ⟨init, last, rfl⟩
  · obtain ⟨rfl, eq⟩ := List.append_inj' same rfl
    cases List.singleton_inj.mp eq
    exact allowed
  · rw [List.concat_eq_append, ← List.cons_append, ← List.append_assoc] at same
    obtain ⟨whole, _⟩ := List.append_inj' same rfl
    exact lawful before c init whole

/-- What a trace has left. -/
structure Heap (α η : Type*) where
  created : List α := []
  live : List α := []
  linked : List (η × α) := []
  freed : List η := []

/-- What the heap says of the trace. -/
structure Records (trace : List (Call α η)) (heap : Heap α η) : Prop where
  created : ∀ o, o ∈ heap.created ↔ ∃ through, .create o through ∈ trace
  live : ∀ o, o ∈ heap.live ↔ o ∈ heap.created ∧ .destroy o ∉ trace
  linked : ∀ h o, (h, o) ∈ heap.linked ↔ Linked trace h o
  freed : ∀ h, h ∈ heap.freed ↔ .freeHook h ∈ trace
  destroyed : ∀ o, .destroy o ∈ trace → o ∈ heap.created
  made : ∀ h o, (h, o) ∈ heap.linked → o ∈ heap.created

theorem records_nil : Records ([] : List (Call α η)) {} where
  created o := by simp
  live o := by simp
  linked h o := by simp [Linked]
  freed h := by simp
  destroyed o h := by simp at h
  made h o linked := by simp at linked

theorem Records.undestroyed {trace : List (Call α η)} {heap : Heap α η} (h : Records trace heap) {o : α}
    (live : o ∈ heap.live) : .destroy o ∉ trace :=
  ((h.live o).mp live).2

variable [DecidableEq α] [DecidableEq η]

/-- The calls that are allowed, and what they do. -/
def Heap.step (first : α → α → Bool) (s : Heap α η) : Call α η → Option (Heap α η)
  | .create o through =>
    if o ∉ s.created ∧ ∀ p ∈ through, p ∈ s.live then
      some { s with created := s.created ++ [o], live := s.live ++ [o] }
    else none
  | .use o => if o ∈ s.live then some s else none
  | .addListener o h =>
    if o ∈ s.live ∧ h ∉ s.freed then some { s with linked := s.linked ++ [(h, o)] } else none
  | .hookRemove h =>
    if h ∉ s.freed ∧ ∀ entry ∈ s.linked, entry.1 = h → entry.2 ∈ s.live then
      some { s with linked := s.linked.filter fun entry => entry.1 ≠ h }
    else none
  | .freeHook h =>
    if h ∉ s.freed ∧ ∀ entry ∈ s.linked, entry.1 = h → entry.2 ∉ s.live then
      some { s with freed := s.freed ++ [h] }
    else none
  | .destroy o =>
    if o ∈ s.live ∧ ∀ p ∈ s.live, first p o = false then
      some { s with live := s.live.filter fun p => p ≠ o }
    else none

/-- The heap after a trace all of whose calls were allowed. -/
def accept (first : α → α → Bool) (trace : List (Call α η)) : Option (Heap α η) :=
  trace.foldlM (Heap.step first) {}

theorem accept_append_singleton {first : α → α → Bool} {trace : List (Call α η)} {call : Call α η}
    {heap : Heap α η} :
    accept first (trace ++ [call]) = some heap ↔
      ∃ before, accept first trace = some before ∧ before.step first call = some heap := by
  simp [accept, List.foldlM_append, Option.bind_eq_some_iff]

theorem allowed_step {first : α → α → Bool} {trace : List (Call α η)} {heap heap' : Heap α η} {call : Call α η}
    (h : Records trace heap) (step : heap.step first call = some heap') : Allowed first trace call := by
  have unfreed {x : η} (free : x ∉ heap.freed) : .freeHook x ∉ trace := fun freed => free ((h.freed x).mpr freed)
  cases call with
  | create o through =>
    obtain ⟨⟨new, known⟩, _⟩ := Option.ite_none_right_eq_some.mp step
    refine ⟨fun p hp => h.undestroyed (known p hp), ?_, by simp [Call.hooks], by simp, by simp, by simp⟩
    rintro _ _ ⟨⟩ through' made
    exact new ((h.created o).mpr ⟨through', made⟩)
  | use o =>
    obtain ⟨live, _⟩ := Option.ite_none_right_eq_some.mp step
    refine ⟨?_, by simp, by simp [Call.hooks], by simp, by simp, by simp⟩
    intro p hp
    cases List.mem_singleton.mp hp
    exact h.undestroyed live
  | addListener o x =>
    obtain ⟨⟨live, free⟩, _⟩ := Option.ite_none_right_eq_some.mp step
    refine ⟨?_, by simp, ?_, by simp, by simp, by simp⟩
    · intro p hp
      cases List.mem_singleton.mp hp
      exact h.undestroyed live
    · intro y hy
      cases List.mem_singleton.mp hy
      exact unfreed free
  | hookRemove x =>
    obtain ⟨⟨free, held⟩, _⟩ := Option.ite_none_right_eq_some.mp step
    refine ⟨by simp [Call.names], by simp, ?_, ?_, by simp, by simp⟩
    · intro y hy
      cases List.mem_singleton.mp hy
      exact unfreed free
    · rintro _ ⟨⟩ o linked
      exact h.undestroyed (held (x, o) ((h.linked x o).mpr linked) rfl)
  | freeHook x =>
    obtain ⟨⟨free, gone⟩, _⟩ := Option.ite_none_right_eq_some.mp step
    refine ⟨by simp [Call.names], by simp, ?_, by simp, ?_, by simp⟩
    · intro y hy
      cases List.mem_singleton.mp hy
      exact unfreed free
    · rintro _ ⟨⟩ o linked
      by_contra undestroyed
      have dead : o ∉ heap.live := gone (x, o) ((h.linked x o).mpr linked) rfl
      exact dead ((h.live o).mpr ⟨h.made x o ((h.linked x o).mpr linked), undestroyed⟩)
  | destroy o =>
    obtain ⟨⟨live, last⟩, _⟩ := Option.ite_none_right_eq_some.mp step
    refine ⟨?_, by simp, by simp [Call.hooks], by simp, by simp, ?_⟩
    · intro p hp
      cases List.mem_singleton.mp hp
      exact h.undestroyed live
    · rintro _ ⟨⟩ p before made
      by_contra undestroyed
      have alive := (h.live p).mpr ⟨(h.created p).mpr made, undestroyed⟩
      rw [last p alive] at before
      cases before

theorem records_step {first : α → α → Bool} {trace : List (Call α η)} {heap heap' : Heap α η} {call : Call α η}
    (h : Records trace heap) (step : heap.step first call = some heap') : Records (trace ++ [call]) heap' := by
  obtain ⟨created, live, linked, freed, destroyed, made⟩ := h
  cases call with
  | create o through =>
    obtain ⟨⟨new, known⟩, same⟩ := Option.ite_none_right_eq_some.mp step
    cases Option.some.inj same
    constructor <;> grind [linked_append_singleton]
  | use o =>
    obtain ⟨_, same⟩ := Option.ite_none_right_eq_some.mp step
    cases Option.some.inj same
    constructor <;> grind [linked_append_singleton]
  | addListener o x =>
    obtain ⟨⟨here, free⟩, same⟩ := Option.ite_none_right_eq_some.mp step
    cases Option.some.inj same
    constructor <;> grind [linked_append_singleton]
  | hookRemove x =>
    obtain ⟨_, same⟩ := Option.ite_none_right_eq_some.mp step
    cases Option.some.inj same
    constructor <;> grind [linked_append_singleton]
  | freeHook x =>
    obtain ⟨_, same⟩ := Option.ite_none_right_eq_some.mp step
    cases Option.some.inj same
    constructor <;> grind [linked_append_singleton]
  | destroy o =>
    obtain ⟨⟨here, _⟩, same⟩ := Option.ite_none_right_eq_some.mp step
    cases Option.some.inj same
    constructor <;> grind [linked_append_singleton]

/-- A trace of allowed calls is lawful, and the heap is its record. -/
theorem lawful_of_accept {first : α → α → Bool} {trace : List (Call α η)} {heap : Heap α η}
    (accepted : accept first trace = some heap) : Lawful first trace ∧ Records trace heap := by
  induction trace using List.reverseRecOn generalizing heap with
  | nil =>
    cases Option.some.inj accepted
    exact ⟨lawful_nil first, records_nil⟩
  | append_singleton trace call ih =>
    obtain ⟨before, first, step⟩ := accept_append_singleton.mp accepted
    obtain ⟨lawful, records⟩ := ih first
    exact ⟨lawful_append_singleton lawful (allowed_step records step), records_step records step⟩

theorem Lawful.destroyed_once {first : α → α → Bool} {trace : List (Call α η)} (lawful : Lawful first trace)
    {o : α} (destroyed : .destroy o ∈ trace) : trace.count (.destroy o) = 1 := by
  obtain ⟨before, after, rfl, new⟩ := List.eq_append_cons_of_mem destroyed
  have last : .destroy o ∉ after := by
    intro again
    obtain ⟨between, rest, rfl⟩ := List.append_of_mem again
    have named := (lawful (before ++ .destroy o :: between) (.destroy o) rest (by simp)).named o
      (List.mem_singleton_self o)
    simp at named
  rw [List.count_append, List.count_cons_self, List.count_eq_zero.mpr new, List.count_eq_zero.mpr last]

end ObjectTrace
