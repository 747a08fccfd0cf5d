import Mathlib.Data.Option.Basic

/-- A state that is read by keys, and events that overwrite some of the keys each. -/
structure KeyedWrites (σ ε κ ν : Type*) where
  apply : σ → ε → σ
  read : σ → κ → ν
  write : ε → κ → Option ν
  read_apply : ∀ s e k, read (apply s e) k = (write e k).getD (read s k)

namespace KeyedWrites

variable {σ ε κ ν : Type*} (W : KeyedWrites σ ε κ ν)

def run (s : σ) (es : List ε) : σ := es.foldl W.apply s

/-- What the last event that writes the key leaves under it. -/
def lastWrite : List ε → κ → Option ν
  | [], _ => none
  | e :: es, k => (lastWrite es k).or (W.write e k)

def Written (es : List ε) (k : κ) : Prop := ∃ e ∈ es, (W.write e k).isSome

/-- The events that write the key, in their order. -/
def writers (es : List ε) (k : κ) : List ε := es.filter fun e => (W.write e k).isSome

theorem run_append (s : σ) (es fs : List ε) : W.run s (es ++ fs) = W.run (W.run s es) fs :=
  List.foldl_append

theorem read_run (s : σ) (es : List ε) (k : κ) :
    W.read (W.run s es) k = (W.lastWrite es k).getD (W.read s k) := by
  induction es generalizing s with
  | nil => rfl
  | cons e es ih =>
    change W.read (W.run (W.apply s e) es) k = _
    rw [ih, W.read_apply, lastWrite]
    cases W.lastWrite es k with
    | none => rfl
    | some v => rfl

theorem lastWrite_eq_getLast? (es : List ε) (k : κ) :
    W.lastWrite es k = (es.filterMap fun e => W.write e k).getLast? := by
  induction es with
  | nil => rfl
  | cons e es ih =>
    rw [lastWrite, ih, List.filterMap_cons]
    cases W.write e k with
    | none => rw [Option.or_none]
    | some v =>
      rw [List.getLast?_cons]
      cases (es.filterMap fun e => W.write e k).getLast? with
      | none => rfl
      | some w => rfl

theorem lastWrite_isSome {es : List ε} {k : κ} : (W.lastWrite es k).isSome ↔ W.Written es k := by
  induction es with
  | nil => simp [lastWrite, Written]
  | cons e es ih =>
    have tail : W.Written (e :: es) k ↔ (W.write e k).isSome ∨ W.Written es k := by
      simp [Written]
    rw [tail, ← ih, lastWrite, Option.isSome_or, Bool.or_eq_true, or_comm]

theorem lastWrite_writers (es : List ε) (k : κ) : W.lastWrite (W.writers es k) k = W.lastWrite es k := by
  induction es with
  | nil => rfl
  | cons e es ih =>
    unfold writers at ih ⊢
    rw [List.filter_cons]
    split
    next => rw [lastWrite, lastWrite, ih]
    next silent =>
      have none : W.write e k = none := Option.not_isSome_iff_eq_none.mp silent
      rw [ih, lastWrite, none, Option.or_none]

/-- A key that is written later holds the same whatever the state was before. -/
theorem read_run_of_written {es : List ε} {k : κ} (written : W.Written es k) (s t : σ) :
    W.read (W.run s es) k = W.read (W.run t es) k := by
  obtain ⟨v, last⟩ := Option.isSome_iff_exists.mp (W.lastWrite_isSome.mpr written)
  rw [read_run, read_run, last]
  rfl

theorem read_run_of_not_written {es : List ε} {k : κ} (kept : ¬W.Written es k) (s : σ) :
    W.read (W.run s es) k = W.read s k := by
  have none : W.lastWrite es k = none := by
    rw [← Option.not_isSome_iff_eq_none, lastWrite_isSome]
    exact kept
  rw [read_run, none]
  rfl

/-- Earlier events are absorbed by later ones that write all of their keys. -/
theorem read_absorb {pre es : List ε} (covers : ∀ k, W.Written pre k → W.Written es k) (s : σ) (k : κ) :
    W.read (W.run s (pre ++ es)) k = W.read (W.run s es) k := by
  rw [run_append]
  by_cases later : W.Written es k
  · exact W.read_run_of_written later _ _
  · have earlier : ¬W.Written pre k := fun h => later (covers k h)
    rw [W.read_run_of_not_written later, W.read_run_of_not_written earlier, W.read_run_of_not_written later]

/-- Only the order of the events that write the same key matters. -/
theorem read_reorder {es fs : List ε} {k : κ} (same : W.writers es k = W.writers fs k) (s : σ) :
    W.read (W.run s es) k = W.read (W.run s fs) k := by
  rw [read_run, read_run, ← lastWrite_writers, same, lastWrite_writers]

end KeyedWrites
