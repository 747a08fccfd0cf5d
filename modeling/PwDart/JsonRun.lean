import PwDart.JsonWeight

namespace Json

def isLetter (c : UInt16) : Bool := unit 'a' ≤ c && c ≤ unit 'z'

/-- A unit that stands for itself in a string. -/
def isPlain (c : UInt16) : Bool := c ≠ unit '"' && c ≠ unit '\\' && 0x20 ≤ c

theorem utf16_append (s t : String) : utf16 (s ++ t) = utf16 s ++ utf16 t := by
  simp [utf16, utf16Chars]

/-- Behind a backslash. -/
def Mode.isEscape : Mode → Bool
  | escape _ _ => true
  | _ => false

namespace Parser

theorem run_append {p q : Parser} {first second : Text}
    (h : (first ++ second).foldlM step p = some q) :
    ∃ mid, first.foldlM step p = some mid ∧ second.foldlM step mid = some q := by
  rw [List.foldlM_append] at h
  exact Option.bind_eq_some_iff.mp h

theorem run_cons {p q : Parser} {c : UInt16} {text : Text} (h : (c :: text).foldlM step p = some q) :
    ∃ mid, p.step c = some mid ∧ text.foldlM step mid = some q := by
  rw [List.foldlM_cons] at h
  exact Option.bind_eq_some_iff.mp h

/-- What a string or a value leaves behind when it ends. -/
theorem mode_complete {frames : List Frame} {v : Value} {q : Parser} (h : complete frames v = some q) :
    q.mode = .after ∨ ∃ w, q.mode = .done w := by
  unfold complete at h
  split at h
  next => cases Option.some.inj h; exact Or.inr ⟨_, rfl⟩
  next => cases Option.some.inj h; exact Or.inl rfl
  next => cases Option.some.inj h; exact Or.inl rfl
  next => cases h

theorem step_string {frames : List Frame} {isKey : Bool} {read : Text} {c : UInt16} (plain : isPlain c) :
    step ⟨frames, .string isKey read⟩ c = some ⟨frames, .string isKey (read ++ [c])⟩ := by
  simp only [isPlain, Bool.and_eq_true, decide_eq_true_eq, UInt16.le_iff_toNat_le] at plain
  obtain ⟨⟨quote, escape⟩, control⟩ := plain
  have control : ¬c < 0x20 := by
    rw [UInt16.lt_iff_toNat_lt]
    omega
  simp only [step]
  rw [if_neg quote, if_neg escape, if_neg control]

theorem run_string {frames : List Frame} {isKey : Bool} {read text : Text}
    (plain : text.all isPlain = true) :
    text.foldlM step ⟨frames, .string isKey read⟩ = some ⟨frames, .string isKey (read ++ text)⟩ := by
  induction text generalizing read with
  | nil => rw [List.append_nil]; rfl
  | cons c text ih =>
    rw [List.all_cons, Bool.and_eq_true] at plain
    rw [List.foldlM_cons, step_string plain.1]
    exact (ih plain.2).trans (by simp)

theorem afterValue_letter {p : Parser} {c : UInt16} (letter : isLetter c) : p.afterValue c = none := by
  simp only [isLetter, Bool.and_eq_true, decide_eq_true_eq, UInt16.le_iff_toNat_le] at letter
  have other (d : UInt16) (low : d.toNat < (unit 'a').toNat ∨ (unit 'z').toNat < d.toNat) : c ≠ d := by
    rintro rfl
    omega
  unfold afterValue isSpace
  simp [other (unit ' ') (by decide), other (unit '\t') (by decide), other (unit '\n') (by decide),
    other (unit '\r') (by decide), other (unit ',') (by decide), other (unit ']') (by decide),
    other (unit '}') (by decide)]

theorem afterValue_quote (p : Parser) : p.afterValue (unit '"') = none := rfl

/-- A letter cannot follow the end of a string. -/
theorem endString_letter {frames : List Frame} {isKey : Bool} {read : Text} {mid : Parser} {c : UInt16}
    (letter : isLetter c) (ended : endString frames isKey read = some mid) : mid.step c = none := by
  cases isKey with
  | true =>
    simp only [endString, if_true] at ended
    split at ended
    next =>
      cases Option.some.inj ended
      simp only [step]
      have stays := afterValue_letter (p := ⟨[], .after⟩) letter
      simp only [isLetter, Bool.and_eq_true, decide_eq_true_eq, UInt16.le_iff_toNat_le] at letter
      unfold afterValue at stays
      split at stays
      next => cases stays
      next space =>
        rw [if_neg space, if_neg]
        rintro rfl
        exact absurd letter.1 (by decide)
    next => cases ended
  | false =>
    rcases mode_complete (show complete frames (.str read) = some mid from ended) with same | ⟨w, same⟩
    · simp only [step, same]
      exact afterValue_letter letter
    · simp only [step, same]
      exact afterValue_letter letter

theorem step_literal_none {frames : List Frame} {literal : Literal} {read : Nat} {c : UInt16}
    (other : c ∉ literal.text) : step ⟨frames, .literal literal read⟩ c = none := by
  simp only [step]
  exact if_neg fun here => other (List.mem_of_getElem? here)

/-- When a quote is followed by a letter, it has opened a string or is escaped in one. -/
theorem quote_letter {p mid q : Parser} {c : UInt16} (letter : isLetter c)
    (quote : p.step (unit '"') = some mid) (h : mid.step c = some q) :
    ∃ isKey read, mid = ⟨p.frames, .string isKey read⟩ ∧
      (isKey = true → p.mode.isText = false) ∧ (p.mode.isEscape = false → read = []) := by
  obtain ⟨frames, mode⟩ := p
  cases mode with
  | value | firstItem =>
    exact ⟨false, [], (Option.some.inj quote).symm, fun isKey => (by cases isKey), fun _ => rfl⟩
  | firstKey | key => exact ⟨true, [], (Option.some.inj quote).symm, fun _ => rfl, fun _ => rfl⟩
  | colon => cases quote
  | after | done =>
    change afterValue _ (unit '"') = some mid at quote
    rw [afterValue_quote] at quote
    cases quote
  | string isKey read =>
    rw [endString_letter letter quote] at h
    cases h
  | escape isKey read =>
    refine ⟨isKey, read ++ [unit '"'], (Option.some.inj quote).symm, ?_, fun fresh => (by cases fresh)⟩
    rintro rfl
    rfl
  | unicode => cases quote
  | number phase lexeme =>
    have stops : phase.next (unit '"') = none := by cases phase <;> rfl
    simp only [step, stops, afterValue_quote] at quote
    obtain ⟨_, ended⟩ := Option.ite_none_right_eq_some.mp quote
    obtain ⟨_, _, none⟩ := Option.bind_eq_some_iff.mp ended
    cases none
  | literal literal read =>
    rw [step_literal_none (by cases literal <;> decide)] at quote
    cases quote

/-- A name in quotes with a colon behind it is the key of a member: nothing of it counts. -/
theorem run_key {p q : Parser} {name : Text} (letter : name.head?.any isLetter = true)
    (plain : name.all isPlain = true)
    (h : (unit '"' :: (name ++ [unit '"', unit ':'])).foldlM step p = some q) :
    q.weight ≤ p.weight ∧ p.mode.isText = false ∧
      ∃ members key rest, q = ⟨.member members key :: rest, .value⟩ ∧
        (p.mode.isEscape = false → key = name) := by
  obtain ⟨opened, quote, h⟩ := run_cons h
  obtain ⟨isKey, text, rfl, outside, fresh⟩ : ∃ isKey text, opened = ⟨p.frames, .string isKey text⟩ ∧
      (isKey = true → p.mode.isText = false) ∧ (p.mode.isEscape = false → text = []) := by
    cases name with
    | nil => cases letter
    | cons c name =>
      obtain ⟨first, read, _⟩ := run_cons h
      exact quote_letter letter quote read
  obtain ⟨named, body, h⟩ := run_append h
  rw [run_string plain] at body
  cases Option.some.inj body
  obtain ⟨ended, close, h⟩ := run_cons h
  obtain ⟨colon, last, h⟩ := run_cons h
  cases Option.some.inj h
  change endString p.frames isKey (text ++ name) = some ended at close
  cases isKey with
  | true =>
    simp only [endString, if_true] at close
    split at close
    next members rest same =>
      cases Option.some.inj close
      cases Option.some.inj last
      refine ⟨?_, outside rfl, members, _, rest, rfl, fun unescaped => (by rw [fresh unescaped]; rfl)⟩
      simp [weight, same, frameWeights, Frame.weight, Mode.weight]
    next => cases close
  | false =>
    rcases mode_complete (show complete p.frames _ = some ended from close) with same | ⟨w, same⟩
    · simp only [step, same] at last
      cases last
    · simp only [step, same] at last
      cases last

/-- A comma is never taken for a backslash. -/
theorem isEscape_comma {p q : Parser} (h : p.step (unit ',') = some q) : q.mode.isEscape = false := by
  obtain ⟨frames, mode⟩ := p
  have after {r t : Parser} (separated : r.afterValue (unit ',') = some t) : t.mode.isEscape = false := by
    rw [afterValue, if_neg (by decide), if_pos rfl] at separated
    split at separated
    next => cases Option.some.inj separated; rfl
    next => cases Option.some.inj separated; rfl
    next => cases separated
  cases mode with
  | value | firstItem | firstKey | key | colon | escape => cases h
  | after | done => exact after h
  | string isKey read => cases Option.some.inj h; rfl
  | unicode => cases h
  | number phase lexeme =>
    have stops : phase.next (unit ',') = none := by cases phase <;> rfl
    simp only [step, stops] at h
    obtain ⟨_, ended⟩ := Option.ite_none_right_eq_some.mp h
    obtain ⟨_, _, separated⟩ := Option.bind_eq_some_iff.mp ended
    exact after separated
  | literal literal read =>
    rw [step_literal_none (by cases literal <;> decide)] at h
    cases h

/-- Only a quote leads out of a string. -/
theorem isText_step {p q : Parser} {c : UInt16} (h : p.step c = some q) (other : c ≠ unit '"')
    (inside : p.mode.isText = true) : q.mode.isText = true := by
  obtain ⟨frames, mode⟩ := p
  cases mode with
  | string isKey read =>
    simp only [step, if_neg other] at h
    split at h
    next => cases Option.some.inj h; exact inside
    next =>
      obtain ⟨_, same⟩ := Option.ite_none_left_eq_some.mp h
      cases Option.some.inj same
      exact inside
  | escape isKey read =>
    simp only [step] at h
    split at h
    next => cases Option.some.inj h; exact inside
    next =>
      obtain ⟨_, _, rfl⟩ := Option.map_eq_some_iff.mp h
      exact inside
  | unicode isKey read missing code =>
    obtain ⟨_, _, rfl⟩ := Option.map_eq_some_iff.mp h
    cases missing <;> exact inside
  | value | firstItem | firstKey | key | colon | after | done | number | literal => cases inside

/-- A unit in front of a key counts only if it is a quote. -/
theorem weight_step_outside {p q : Parser} {c : UInt16} (h : p.step c = some q) (other : c ≠ unit '"')
    (outside : q.mode.isText = false) : p.mode.isText = false ∧ q.weight ≤ p.weight := by
  have notText : p.mode.isText = false := by
    cases inside : p.mode.isText with
    | false => rfl
    | true =>
      rw [isText_step h other inside] at outside
      cases outside
  refine ⟨notText, ?_⟩
  simpa [notText, other] using weight_step h

/-- The last unit of a document adds nothing, unless it is a quote. -/
theorem weight_lastUnit {p q : Parser} {c : UInt16} {v : Value} (h : p.step c = some q)
    (other : c ≠ unit '"') (ended : q.finish = some v) : v.weight ≤ p.weight := by
  have outside : q.mode.isText = false := by
    unfold finish at ended
    split at ended
    next same => simp [same, Mode.isText]
    next same => simp [same, Mode.isText]
    next => cases ended
  exact Nat.le_trans (weight_finish ended) (weight_step_outside h other outside).2

end Parser

end Json
