import Mathlib.Logic.Relation
import Mathlib.Data.List.Induction

namespace LabelledRun

/-- `Run step s ls t`: the labelled steps `ls`, taken in order, lead from `s` to `t`. -/
inductive Run {σ ι : Type*} (step : σ → ι → σ → Prop) (s : σ) : List ι → σ → Prop
  | start : Run step s [] s
  | next {ls : List ι} {l : ι} {t u : σ} :
      Run step s ls t → step t l u → Run step s (ls ++ [l]) u

theorem Run.single {σ ι : Type*} {step : σ → ι → σ → Prop} {s t : σ} {l : ι}
    (h : step s l t) : Run step s [l] t :=
  Run.next Run.start h

theorem Run.trans {σ ι : Type*} {step : σ → ι → σ → Prop} {s t u : σ} {ls ms : List ι}
    (first : Run step s ls t) (second : Run step t ms u) : Run step s (ls ++ ms) u := by
  induction second with
  | start => simpa using first
  | next _ hstep ih =>
    rw [← List.append_assoc]
    exact Run.next ih hstep

theorem Run.imp {σ ι : Type*} {step step' : σ → ι → σ → Prop} {s t : σ} {ls : List ι} (run : Run step s ls t)
    (h : ∀ a l b, step a l b → step' a l b) : Run step' s ls t := by
  induction run with
  | start => exact Run.start
  | next _ hstep ih => exact Run.next ih (h _ _ _ hstep)

/-- A run that does not end at once has a last step. -/
theorem run_append_singleton {σ ι : Type*} {step : σ → ι → σ → Prop} {s u : σ} {ls : List ι} {l : ι}
    (run : Run step s (ls ++ [l]) u) : ∃ t, Run step s ls t ∧ step t l u := by
  generalize whole : ls ++ [l] = all at run
  cases run with
  | start => simp at whole
  | @next ks k t _ first last =>
    obtain ⟨rfl, same⟩ := List.append_inj' whole rfl
    cases List.singleton_inj.mp same
    exact ⟨t, first, last⟩

/-- An inductive invariant: what holds at the start and survives every step holds of every
state a run visits. -/
theorem Run.invariant {σ ι : Type*} {step : σ → ι → σ → Prop} {I : σ → Prop} {s t : σ}
    {ls : List ι} (run : Run step s ls t) (initial : I s)
    (preserved : ∀ a l b, I a → step a l b → I b) : I t := by
  induction run with
  | start => exact initial
  | next _ hstep ih => exact preserved _ _ _ ih hstep

/-- An invariant of the steps with certain labels. -/
theorem Run.invariant_of_labels {σ ι : Type*} {step : σ → ι → σ → Prop} {own : ι → Prop} {I : σ → Prop} {s t : σ}
    {ls : List ι} (run : Run step s ls t) (all : ∀ l ∈ ls, own l) (initial : I s)
    (preserved : ∀ a l b, own l → I a → step a l b → I b) : I t := by
  induction run with
  | start => exact initial
  | @next ls l _ _ _ hstep ih =>
    have before := ih fun k hk => all k (List.mem_append_left _ hk)
    exact preserved _ _ _ (all l (List.mem_append_right _ (List.mem_singleton_self l))) before hstep

/-- The step relation of a machine given by a function. -/
def Takes {σ ι : Type*} (next : σ → ι → Option σ) (s : σ) (l : ι) (t : σ) : Prop :=
  next s l = some t

theorem run_takes_iff {σ ι : Type*} {next : σ → ι → Option σ} {s t : σ} {ls : List ι} :
    Run (Takes next) s ls t ↔ ls.foldlM next s = some t := by
  constructor
  · intro run
    induction run with
    | start => rfl
    | @next _ l t _ _ hstep ih =>
      have last : next t l = some _ := hstep
      simp [List.foldlM_append, ih, last]
  · intro h
    induction ls using List.reverseRecOn generalizing t with
    | nil => cases Option.some.inj h; exact Run.start
    | append_singleton ls l ih =>
      rw [List.foldlM_append] at h
      obtain ⟨mid, first, last⟩ := Option.bind_eq_some_iff.mp h
      have last : next mid l = some t := by simpa using last
      exact Run.next (ih first) last

/-- The steps of a machine that start in a state where they meet a condition. -/
def Guarded {σ ι : Type*} (next : σ → ι → Option σ) (guard : σ → ι → Prop) (s : σ) (l : ι) (t : σ) : Prop :=
  guard s l ∧ next s l = some t

theorem run_takes_unique {σ ι : Type*} {next : σ → ι → Option σ} {s t u : σ} {ls : List ι}
    (first : Run (Takes next) s ls t) (second : Run (Takes next) s ls u) : t = u :=
  Option.some.inj ((run_takes_iff.mp first).symm.trans (run_takes_iff.mp second))

/-- When a step from a good state leads to a good one exactly if it meets the condition, then the states
of a run are all good exactly if all its steps meet the condition. -/
theorem always_iff_guarded {σ ι : Type*} {next : σ → ι → Option σ} {guard : σ → ι → Prop} {I P : σ → Prop}
    {s t : σ} {ls : List ι} (initial : I s) (preserved : ∀ a l b, I a → next a l = some b → I b) (good : P s)
    (exact_ : ∀ a l b, I a → P a → next a l = some b → (P b ↔ guard a l)) (run : Run (Takes next) s ls t) :
    (∀ pre u, pre <+: ls → Run (Takes next) s pre u → P u) ↔ Run (Guarded next guard) s ls t := by
  induction run with
  | start =>
    refine ⟨fun _ => Run.start, fun _ pre u before visited => ?_⟩
    rw [List.prefix_nil.mp before] at visited
    rw [← run_takes_unique Run.start visited]
    exact good
  | @next ls l t u run step ih =>
    have inv : I t := run.invariant initial preserved
    constructor
    · intro always
      have before : ∀ pre v, pre <+: ls → Run (Takes next) s pre v → P v :=
        fun pre v earlier => always pre v (earlier.trans (List.prefix_append _ _))
      have now : P t := before ls t (List.prefix_refl ls) run
      have after : P u := always (ls ++ [l]) u (List.prefix_refl _) (Run.next run step)
      exact Run.next (ih.mp before) ⟨(exact_ t l u inv now step).mp after, step⟩
    · intro guarded pre v before visited
      obtain ⟨mid, first, meets, taken⟩ := run_append_singleton guarded
      have plain : Run (Takes next) s ls mid := first.imp fun _ _ _ h => h.2
      cases run_takes_unique run plain
      have earlier := ih.mpr first
      rcases List.prefix_concat_iff.mp before with same | shorter
      · subst same
        cases run_takes_unique visited (Run.next run step)
        exact (exact_ t l u inv (earlier ls t (List.prefix_refl ls) run) step).mpr meets
      · exact earlier pre v shorter visited

/-- None of the steps `own` can be taken. -/
def Halted {σ ι : Type*} (next : σ → ι → Option σ) (own : ι → Prop) (s : σ) : Prop :=
  ∀ l, own l → next s l = none

/-- Steps that lower a measure come to an end. -/
theorem exists_halted {σ ι : Type*} {next : σ → ι → Option σ} {own : ι → Prop} (measure : σ → Nat)
    (lowers : ∀ s l t, own l → next s l = some t → measure t < measure s) (s : σ) :
    ∃ ls t, (∀ l ∈ ls, own l) ∧ Run (Takes next) s ls t ∧ Halted next own t := by
  induction bound : measure s using Nat.strongRecOn generalizing s with
  | ind n ih =>
    by_cases halted : Halted next own s
    · exact ⟨[], s, by simp, Run.start, halted⟩
    · obtain ⟨l, isOwn, can⟩ : ∃ l, own l ∧ next s l ≠ none := by
        simpa [Halted] using halted
      obtain ⟨mid, step⟩ := Option.ne_none_iff_exists'.mp can
      obtain ⟨ls, t, all, run, halted⟩ := ih (measure mid) (bound ▸ lowers s l mid isOwn step) mid rfl
      refine ⟨l :: ls, t, ?_, Run.trans (Run.single (show Takes next s l mid from step)) run, halted⟩
      intro k hk
      rcases List.mem_cons.mp hk with rfl | later
      · exact isOwn
      · exact all k later

end LabelledRun
