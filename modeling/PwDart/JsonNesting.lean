import PwDart.JsonWrite

namespace Json

namespace Parser

/-- The parser of a text by itself, and the same parser inside of what is open around the text: it has the
outer frames below its own, until the value of the text has gone to the innermost of them. -/
def Nested (outer : List Frame) (p p' : Parser) : Prop :=
  (∃ v, p = ⟨[], .done v⟩ ∧ complete outer v = some p') ∨
    ((∀ v, p.mode ≠ .done v) ∧ p' = ⟨p.frames ++ outer, p.mode⟩)

theorem nested_of_mode {outer frames : List Frame} {mode : Mode} (open_ : ∀ v, mode ≠ .done v) :
    Nested outer ⟨frames, mode⟩ ⟨frames ++ outer, mode⟩ := Or.inr ⟨open_, rfl⟩

section

variable {outer : List Frame} (takes : TakesValue outer)

include takes

theorem nested_complete {frames : List Frame} {v : Value} {q : Parser} (h : complete frames v = some q) :
    ∃ q', complete (frames ++ outer) v = some q' ∧ Nested outer q q' := by
  cases frames with
  | nil =>
    cases Option.some.inj h
    obtain ⟨q', completed⟩ := complete_of_takesValue takes v
    exact ⟨q', completed, Or.inl ⟨v, rfl, completed⟩⟩
  | cons frame rest =>
    cases frame with
    | obj => cases h
    | arr | member =>
      cases Option.some.inj h
      exact ⟨_, rfl, nested_of_mode fun _ same => by cases same⟩

theorem nested_endString {frames : List Frame} {isKey : Bool} {read : Text} {q : Parser}
    (h : endString frames isKey read = some q) :
    ∃ q', endString (frames ++ outer) isKey read = some q' ∧ Nested outer q q' := by
  cases isKey with
  | false => exact nested_complete takes h
  | true =>
    simp only [endString, if_true] at h
    split at h
    next members rest =>
      cases Option.some.inj h
      exact ⟨_, rfl, nested_of_mode fun _ same => by cases same⟩
    next => cases h

theorem nested_closeArray {frames : List Frame} {q : Parser} (h : closeArray frames = some q) :
    ∃ q', closeArray (frames ++ outer) = some q' ∧ Nested outer q q' := by
  unfold closeArray at h
  split at h
  next items rest => exact nested_complete takes h
  next => cases h

theorem nested_closeObject {frames : List Frame} {q : Parser} (h : closeObject frames = some q) :
    ∃ q', closeObject (frames ++ outer) = some q' ∧ Nested outer q q' := by
  unfold closeObject at h
  split at h
  next members rest => exact nested_complete takes h
  next => cases h

omit takes in
theorem nested_startValue {frames : List Frame} {c : UInt16} {q : Parser} (h : startValue frames c = some q) :
    ∃ q', startValue (frames ++ outer) c = some q' ∧ Nested outer q q' := by
  unfold startValue at h ⊢
  split_ifs at h ⊢ <;> (cases Option.some.inj h; exact ⟨_, rfl, nested_of_mode fun _ same => by cases same⟩)

theorem nested_afterValue {p p' q : Parser} {c : UInt16} (nested : Nested outer p p')
    (h : p.afterValue c = some q) : ∃ q', p'.afterValue c = some q' ∧ Nested outer q q' := by
  rcases nested with ⟨v, rfl, completed⟩ | ⟨open_, rfl⟩
  · -- only white space can follow the whole text
    unfold afterValue at h
    split_ifs at h with space comma array object
    · cases Option.some.inj h
      exact ⟨p', by rw [afterValue, if_pos space], Or.inl ⟨v, rfl, completed⟩⟩
    · cases h
    · cases h
  · obtain ⟨frames, mode⟩ := p
    unfold afterValue at h ⊢
    split_ifs at h ⊢ with space comma array object
    · cases Option.some.inj h
      exact ⟨_, rfl, nested_of_mode open_⟩
    · simp only at h
      split at h
      next =>
        cases Option.some.inj h
        exact ⟨_, rfl, nested_of_mode fun _ same => by cases same⟩
      next =>
        cases Option.some.inj h
        exact ⟨_, rfl, nested_of_mode fun _ same => by cases same⟩
      next => cases h
    · exact nested_closeArray takes h
    · exact nested_closeObject takes h

/-- What the text does by itself, it does inside of another. -/
theorem nested_step {p p' q : Parser} {c : UInt16} (nested : Nested outer p p') (h : p.step c = some q) :
    ∃ q', p'.step c = some q' ∧ Nested outer q q' := by
  have whole := nested
  rcases nested with ⟨v, rfl, completed⟩ | ⟨open_, rfl⟩
  · obtain ⟨q', after, found⟩ := nested_afterValue takes whole h
    refine ⟨q', ?_, found⟩
    rcases mode_complete completed with same | ⟨w, same⟩ <;> simpa only [step, same] using after
  · obtain ⟨frames, mode⟩ := p
    have stays {mode : Mode} (open_ : ∀ v, mode ≠ .done v) (same : some (Parser.mk frames mode) = some q) :
        ∃ q', some (Parser.mk (frames ++ outer) mode) = some q' ∧ Nested outer q q' := by
      cases Option.some.inj same
      exact ⟨_, rfl, nested_of_mode open_⟩
    cases mode with
    | value =>
      simp only [step] at h ⊢
      split_ifs at h ⊢
      · exact stays open_ h
      · exact nested_startValue h
    | firstItem =>
      simp only [step] at h ⊢
      split_ifs at h ⊢
      · exact stays open_ h
      · exact nested_closeArray takes h
      · exact nested_startValue h
    | firstKey =>
      simp only [step] at h ⊢
      split_ifs at h ⊢
      · exact stays open_ h
      · exact nested_closeObject takes h
      · exact stays (fun _ same => by cases same) h
    | key =>
      simp only [step] at h ⊢
      split_ifs at h ⊢
      · exact stays open_ h
      · exact stays (fun _ same => by cases same) h
    | colon =>
      simp only [step] at h ⊢
      split_ifs at h ⊢
      · exact stays open_ h
      · exact stays (fun _ same => by cases same) h
    | after => exact nested_afterValue takes whole h
    | done v => exact absurd rfl (open_ v)
    | string isKey read =>
      simp only [step] at h ⊢
      split_ifs at h ⊢
      · exact nested_endString takes h
      · exact stays (fun _ same => by cases same) h
      · exact stays (fun _ same => by cases same) h
    | escape isKey read =>
      simp only [step] at h ⊢
      split_ifs at h ⊢
      · exact stays (fun _ same => by cases same) h
      · obtain ⟨d, stands, rfl⟩ := Option.map_eq_some_iff.mp h
        exact ⟨_, by rw [stands]; rfl, nested_of_mode fun _ same => by cases same⟩
    | unicode isKey read missing code =>
      simp only [step] at h ⊢
      obtain ⟨d, digit, rfl⟩ := Option.map_eq_some_iff.mp h
      rw [digit]
      cases missing with
      | zero => exact ⟨_, rfl, nested_of_mode fun _ same => by cases same⟩
      | succ missing => exact ⟨_, rfl, nested_of_mode fun _ same => by cases same⟩
    | number phase lexeme =>
      simp only [step] at h ⊢
      cases next : phase.next c with
      | some phase =>
        simp only [next] at h
        exact stays (fun _ same => by cases same) h
      | none =>
        simp only [next] at h
        split_ifs at h ⊢ with final
        obtain ⟨ended, completed, after⟩ := Option.bind_eq_some_iff.mp h
        obtain ⟨ended', completed', inside⟩ := nested_complete takes completed
        simp only [completed', Option.bind_some]
        exact nested_afterValue takes inside after
    | literal literal read =>
      simp only [step] at h ⊢
      split_ifs at h ⊢
      · exact nested_complete takes h
      · exact stays (fun _ same => by cases same) h

theorem nested_run {text : Text} {p p' q : Parser} (nested : Nested outer p p') (h : text.foldlM step p = some q) :
    ∃ q', text.foldlM step p' = some q' ∧ Nested outer q q' := by
  induction text generalizing p p' with
  | nil =>
    cases Option.some.inj h
    exact ⟨p', rfl, nested⟩
  | cons c rest ih =>
    obtain ⟨mid, first, later⟩ := run_cons h
    obtain ⟨mid', first', inside⟩ := nested_step takes nested first
    obtain ⟨q', later', found⟩ := ih inside later
    refine ⟨q', ?_, found⟩
    rw [List.foldlM_cons, first']
    exact later'

/-- A JSON text can stand for its value wherever a value may. -/
theorem run_of_decode {text : Text} {v : Value} (decoded : decode text = some v) :
    ∃ p, text.foldlM step ⟨outer, .value⟩ = some p ∧ Ends outer v p := by
  obtain ⟨q, run, ended⟩ := Option.bind_eq_some_iff.mp decoded
  have start : Nested outer ⟨[], .value⟩ ⟨[] ++ outer, .value⟩ := nested_of_mode fun _ same => by cases same
  obtain ⟨p, inside, nested⟩ := nested_run takes start run
  refine ⟨p, inside, ?_⟩
  rcases nested with ⟨w, rfl, completed⟩ | ⟨open_, rfl⟩
  · cases Option.some.inj ended
    exact Or.inl completed
  · unfold finish at ended
    split at ended
    next w same => exact absurd same (open_ w)
    next phase lexeme same =>
      obtain ⟨whole, value⟩ := Option.ite_none_right_eq_some.mp ended
      rw [Bool.and_eq_true, List.isEmpty_iff] at whole
      refine Or.inr ⟨phase, lexeme, ?_, whole.2, Option.some.inj value⟩
      rw [whole.1, same, List.nil_append]
    next => cases ended

end

end Parser

end Json
