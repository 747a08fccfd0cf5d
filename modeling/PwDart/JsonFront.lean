import PwDart.JsonNesting

namespace Json

namespace Parser

/-- The value that a text begins with, whatever stands behind it. -/
def front : Text → Parser → Option Value
  | [], p => p.finish
  | c :: rest, p =>
    match p.mode with
    | .done v => some v
    | _ => (p.step c).bind (front rest)

/-- A value ends only where nothing is open around it. -/
def Settled (p : Parser) : Prop := Nested [] p p

theorem takesValue_nil : TakesValue [] := by
  intro members rest same
  cases same

theorem settled_start : Settled {} := nested_of_mode fun _ same => by cases same

theorem Settled.step {p q : Parser} {c : UInt16} (h : Settled p) (step : p.step c = some q) : Settled q := by
  obtain ⟨q', step', nested⟩ := nested_step takesValue_nil h step
  cases Option.some.inj (step.symm.trans step')
  exact nested

theorem Settled.eq_of_done {p : Parser} (h : Settled p) {v : Value} (done : p.mode = .done v) : p = ⟨[], .done v⟩ := by
  rcases h with ⟨w, rfl, _⟩ | ⟨open_, _⟩
  · cases done
    rfl
  · exact absurd done (open_ v)

/-- Behind a value there is nothing but white space. -/
theorem run_done {v : Value} {text : Text} {q : Parser} (run : text.foldlM step ⟨[], .done v⟩ = some q) :
    q = ⟨[], .done v⟩ := by
  induction text with
  | nil => exact (Option.some.inj run).symm
  | cons c rest ih =>
    obtain ⟨mid, first, later⟩ := run_cons run
    have same : mid = ⟨[], .done v⟩ := by
      simp only [step, afterValue] at first
      split_ifs at first
      · exact (Option.some.inj first).symm
      · cases first
      · cases first
    exact ih (same ▸ later)

theorem mode_of_finish {p : Parser} {members : Members} (ended : p.finish = some (.obj members)) :
    p.mode = .done (.obj members) := by
  unfold finish at ended
  split at ended
  next v done => rw [done, Option.some.inj ended]
  next phase lexeme _ =>
    obtain ⟨_, value⟩ := Option.ite_none_right_eq_some.mp ended
    have number : ∀ members, numberValue phase lexeme ≠ .obj members := by
      intro members same
      simp only [numberValue] at same
      split_ifs at same
    exact absurd (Option.some.inj value) (number members)
  next => cases ended

theorem front_of_run {before : Text} {p : Parser} (settled : Settled p) {members : Members}
    (ended : (before.foldlM step p).bind finish = some (.obj members)) (rest : Text) :
    front (before ++ rest) p = some (.obj members) := by
  induction before generalizing p with
  | nil =>
    have done := mode_of_finish ended
    cases rest with
    | nil => exact ended
    | cons c rest => simp only [List.nil_append, front, done]
  | cons c before ih =>
    obtain ⟨q, run, finished⟩ := Option.bind_eq_some_iff.mp ended
    cases mode : p.mode with
    | done v =>
      cases settled.eq_of_done mode
      cases run_done run
      exact finished
    | _ =>
      obtain ⟨mid, first, later⟩ := run_cons run
      have again := ih (settled.step first) (Option.bind_eq_some_iff.mpr ⟨q, later, finished⟩)
      simp only [List.cons_append, front, mode, first, Option.bind_some]
      exact again

theorem run_of_front {text : Text} {p : Parser} {v : Value} (read : front text p = some v) :
    ∃ before rest, text = before ++ rest ∧ (before.foldlM step p).bind finish = some v := by
  induction text generalizing p with
  | nil => exact ⟨[], [], rfl, read⟩
  | cons c text ih =>
    simp only [front] at read
    split at read
    next w done =>
      refine ⟨[], c :: text, rfl, ?_⟩
      change p.finish = some v
      rw [finish, done]
      exact read
    next =>
      obtain ⟨mid, first, later⟩ := Option.bind_eq_some_iff.mp read
      obtain ⟨before, rest, rfl, ended⟩ := ih later
      refine ⟨c :: before, rest, rfl, ?_⟩
      rw [List.foldlM_cons, first]
      exact ended

/-- A text begins with an object exactly if a part of it from its start on is that object. -/
theorem front_iff {text : Text} {members : Members} : front text {} = some (.obj members) ↔
    ∃ before rest, text = before ++ rest ∧ decode before = some (.obj members) := by
  constructor
  · exact run_of_front
  · rintro ⟨before, rest, rfl, decoded⟩
    exact front_of_run settled_start decoded rest

/-- What a text begins with is what it is as a whole, if it is JSON. -/
theorem decode_append_unique {before rest : Text} {members : Members} {v : Value}
    (decoded : decode before = some (.obj members)) (whole : decode (before ++ rest) = some v) : v = .obj members := by
  obtain ⟨p, run, ended⟩ := Option.bind_eq_some_iff.mp decoded
  have first := front_of_run settled_start decoded rest
  obtain ⟨q, run', ended'⟩ := Option.bind_eq_some_iff.mp whole
  rw [List.foldlM_append, run] at run'
  have settled : Settled p := by
    obtain ⟨p', again, nested⟩ := nested_run takesValue_nil settled_start run
    cases Option.some.inj (run.symm.trans again)
    exact nested
  cases settled.eq_of_done (mode_of_finish ended)
  cases run_done (show rest.foldlM step _ = some q from run')
  exact (Option.some.inj ended').symm

end Parser

end Json
