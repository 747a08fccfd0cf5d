import PwDart.Teardown

namespace PwDart

open ObjectTrace

/-- The heap after a trace, when `holds` says which objects are pointed to, `listens` whose hooks are
allocated, and all objects have numbers below `next`. Proxies of links made by the client stay. -/
structure Ledger (holds listens : PwObject → Prop) (next : Nat) (trace : List PwCall)
    (heap : Heap PwObject PwObject) : Prop where
  accepted : accept goesBefore trace = some heap
  live : ∀ o, o.kind ≠ .link → (o ∈ heap.live ↔ holds o)
  links : ∀ o ∈ heap.created, o.kind = .link → o ∈ heap.live
  created : ∀ o ∈ heap.created, o.number < next
  freed : ∀ h ∈ heap.freed, h.number < next
  own : ∀ h o, (h, o) ∈ heap.linked → h = o
  listening : ∀ h, listens h → h ∉ heap.freed

namespace Ledger

variable {holds listens : PwObject → Prop} {next : Nat} {trace : List PwCall} {heap : Heap PwObject PwObject}

theorem start : Ledger (fun _ => False) (fun _ => False) 0 [] {} where
  accepted := rfl
  live o _ := by simp
  links o ho := by cases ho
  created o ho := by cases ho
  freed h hh := by cases hh
  own h o linked := by cases linked
  listening h no := no.elim

theorem mono (h : Ledger holds listens next trace heap) {next' : Nat} (le : next ≤ next') :
    Ledger holds listens next' trace heap :=
  { h with
    created := fun o ho => Nat.lt_of_lt_of_le (h.created o ho) le
    freed := fun x hx => Nat.lt_of_lt_of_le (h.freed x hx) le }

theorem trace_eq (h : Ledger holds listens next trace heap) {trace' : List PwCall} (same : trace' = trace) :
    Ledger holds listens next trace' heap := by
  rw [same]
  exact h

theorem congr (h : Ledger holds listens next trace heap) {holds' listens' : PwObject → Prop}
    (sameHolds : ∀ o, o.kind ≠ .link → (holds' o ↔ holds o)) (sameListens : ∀ o, listens' o → listens o) :
    Ledger holds' listens' next trace heap :=
  { h with
    live := fun o notLink => (h.live o notLink).trans (sameHolds o notLink).symm
    listening := fun x hx => h.listening x (sameListens x hx) }

theorem use (h : Ledger holds listens next trace heap) {o : PwObject} (live : o ∈ heap.live) :
    Ledger holds listens next (trace ++ [.use o]) heap :=
  { h with accepted := accept_append_singleton.mpr ⟨heap, h.accepted, if_pos live⟩ }

theorem create (h : Ledger holds listens next trace heap) (o : PwObject) (through : List PwObject)
    (new : o.number = next) (known : ∀ p ∈ through, p ∈ heap.live) :
    Ledger (fun p => holds p ∨ p = o) listens (next + 1) (trace ++ [.create o through])
      { heap with created := heap.created ++ [o], live := heap.live ++ [o] } := by
  have unmade : o ∉ heap.created := by
    intro made
    have lt := h.created o made
    omega
  refine ⟨accept_append_singleton.mpr ⟨heap, h.accepted, if_pos ⟨unmade, known⟩⟩, ?_, ?_, ?_, ?_, h.own, h.listening⟩
  · intro p notLink
    rw [List.mem_append, List.mem_singleton, h.live p notLink]
  · intro p made isLink
    rcases List.mem_append.mp made with before | same
    · exact List.mem_append_left _ (h.links p before isLink)
    · exact List.mem_append_right _ same
  · intro p made
    rcases List.mem_append.mp made with before | same
    · exact Nat.lt_succ_of_lt (h.created p before)
    · rw [List.mem_singleton.mp same, new]
      exact Nat.lt_succ_self next
  · intro x freed
    exact Nat.lt_succ_of_lt (h.freed x freed)

/-- The hook of an object is put into its listener list. -/
theorem addListener (h : Ledger holds listens next trace heap) {o : PwObject} (live : o ∈ heap.live)
    (free : o ∉ heap.freed) :
    Ledger holds (fun p => listens p ∨ p = o) next (trace ++ [.addListener o o])
      { heap with linked := heap.linked ++ [(o, o)] } := by
  refine ⟨accept_append_singleton.mpr ⟨heap, h.accepted, if_pos ⟨live, free⟩⟩, h.live, h.links, h.created, h.freed,
    ?_, ?_⟩
  · intro x p linked
    rcases List.mem_append.mp linked with before | same
    · exact h.own x p before
    · cases List.mem_singleton.mp same
      rfl
  · rintro x (before | rfl)
    · exact h.listening x before
    · exact free

theorem hookRemove (h : Ledger holds listens next trace heap) {o : PwObject} (live : o ∈ heap.live)
    (listening : listens o) :
    Ledger holds listens next (trace ++ [.hookRemove o])
      { heap with linked := heap.linked.filter fun entry => entry.1 ≠ o } := by
  have held : ∀ entry ∈ heap.linked, entry.1 = o → entry.2 ∈ heap.live := by
    rintro ⟨x, p⟩ linked rfl
    rw [← h.own x p linked]
    exact live
  refine ⟨accept_append_singleton.mpr ⟨heap, h.accepted, if_pos ⟨h.listening o listening, held⟩⟩, h.live, h.links,
    h.created, h.freed, ?_, h.listening⟩
  intro x p linked
  exact h.own x p (List.mem_filter.mp linked).1

/-- A hook is freed once it is unlinked, or its object is gone. -/
theorem freeHook (h : Ledger holds listens next trace heap) {o : PwObject} (listening : listens o)
    (old : o.number < next) (apart : (o, o) ∉ heap.linked ∨ o ∉ heap.live) :
    Ledger holds (fun p => listens p ∧ p ≠ o) next (trace ++ [.freeHook o]) { heap with freed := heap.freed ++ [o] } := by
  have gone : ∀ entry ∈ heap.linked, entry.1 = o → entry.2 ∉ heap.live := by
    rintro ⟨x, p⟩ linked rfl
    cases h.own x p linked
    rcases apart with unlinked | dead
    · exact absurd linked unlinked
    · exact dead
  refine ⟨accept_append_singleton.mpr ⟨heap, h.accepted, if_pos ⟨h.listening o listening, gone⟩⟩, h.live, h.links,
    h.created, ?_, h.own, ?_⟩
  · intro x freed
    rcases List.mem_append.mp freed with before | same
    · exact h.freed x before
    · rw [List.mem_singleton.mp same]
      exact old
  · rintro x ⟨before, other⟩ freed
    rcases List.mem_append.mp freed with freed | same
    · exact h.listening x before freed
    · exact other (List.mem_singleton.mp same)

theorem destroy (h : Ledger holds listens next trace heap) {o : PwObject} (live : o ∈ heap.live)
    (notLink : o.kind ≠ .link) (last : ∀ p, holds p → goesBefore p o = false) :
    Ledger (fun p => holds p ∧ p ≠ o) listens next (trace ++ [.destroy o])
      { heap with live := heap.live.filter fun p => p ≠ o } := by
  have lastLive : ∀ p ∈ heap.live, goesBefore p o = false := by
    intro p hp
    by_cases isLink : p.kind = .link
    · simp [goesBefore, isLink, PwKind.goesBefore]
    · exact last p ((h.live p isLink).mp hp)
  refine ⟨accept_append_singleton.mpr ⟨heap, h.accepted, if_pos ⟨live, lastLive⟩⟩, ?_, ?_, h.created, h.freed, h.own,
    h.listening⟩
  · intro p other
    simp [h.live p other]
  · intro p made isLink
    refine List.mem_filter.mpr ⟨h.links p made isLink, ?_⟩
    have apart : p ≠ o := by
      rintro rfl
      exact notLink isLink
    simpa using apart

end Ledger

end PwDart
