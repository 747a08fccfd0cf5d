import PwDart.JsonDecode

namespace Json

mutual

/-- The length of the strings among the values of a document, with their quotes. Keys do not
count. -/
def Value.weight : Value → Nat
  | .str s => s.length + 2
  | .arr items => weights items
  | .obj members => memberWeights members
  | .null | .bool _ | .int _ | .double _ => 0

def weights : List Value → Nat
  | [] => 0
  | v :: vs => v.weight + weights vs

def memberWeights : List (Text × Value) → Nat
  | [] => 0
  | (_, v) :: ms => v.weight + memberWeights ms

end

theorem weights_append_singleton (vs : List Value) (v : Value) :
    weights (vs ++ [v]) = weights vs + v.weight := by
  induction vs with
  | nil => simp [weights]
  | cons w vs ih => rw [List.cons_append, weights, ih, weights]; omega

theorem memberWeights_append_singleton (ms : Members) (name : Text) (v : Value) :
    memberWeights (ms ++ [(name, v)]) = memberWeights ms + v.weight := by
  induction ms with
  | nil => simp [memberWeights]
  | cons m ms ih => rw [List.cons_append, memberWeights, ih, memberWeights]; omega

theorem get_append_singleton (ms : Members) (key : Text) (v : Value) (name : String) :
    Members.get (ms ++ [(key, v)]) name = if key = utf16 name then v else Members.get ms name := by
  simp [Members.get]

/-- Members of three names are three members. -/
theorem get_weights_le (ms : Members) {a b c : String} (hab : a ≠ b) (hac : a ≠ c) (hbc : b ≠ c) :
    (Members.get ms a).weight + (Members.get ms b).weight + (Members.get ms c).weight ≤
      memberWeights ms := by
  induction ms using List.reverseRecOn with
  | nil => simp [Members.get, Value.weight, memberWeights]
  | append_singleton ms m ih =>
    obtain ⟨key, v⟩ := m
    simp only [get_append_singleton, memberWeights_append_singleton]
    by_cases ha : key = utf16 a
    · have hb : key ≠ utf16 b := fun hb => hab (utf16_inj.mp (ha.symm.trans hb))
      have hc : key ≠ utf16 c := fun hc => hac (utf16_inj.mp (ha.symm.trans hc))
      rw [if_pos ha, if_neg hb, if_neg hc]
      omega
    · rw [if_neg ha]
      by_cases hb : key = utf16 b
      · have hc : key ≠ utf16 c := fun hc => hbc (utf16_inj.mp (hb.symm.trans hc))
        rw [if_pos hb, if_neg hc]
        omega
      · rw [if_neg hb]
        split <;> omega

def Frame.weight : Frame → Nat
  | arr items => weights items
  | obj members => memberWeights members
  | member members _ => memberWeights members

def frameWeights (frames : List Frame) : Nat := (frames.map Frame.weight).sum

def Mode.weight : Mode → Nat
  | string isKey read => if isKey then 0 else read.length + 1
  | escape isKey read => if isKey then 0 else read.length + 1
  | unicode isKey read _ _ => if isKey then 0 else read.length + 1
  | done v => v.weight
  | _ => 0

/-- Inside a string that is not a key. -/
def Mode.isText : Mode → Bool
  | string isKey _ | escape isKey _ | unicode isKey _ _ _ => !isKey
  | _ => false

namespace Parser

def weight (p : Parser) : Nat := frameWeights p.frames + p.mode.weight

theorem weight_numberValue (phase : NumberPhase) (lexeme : Text) :
    (numberValue phase lexeme).weight = 0 := by
  unfold numberValue
  dsimp only
  split_ifs <;> rfl

theorem weight_complete {frames : List Frame} {v : Value} {q : Parser}
    (h : complete frames v = some q) : q.weight = frameWeights frames + v.weight := by
  unfold complete at h
  split at h
  next => cases Option.some.inj h; rfl
  next =>
    cases Option.some.inj h
    simp [weight, frameWeights, Frame.weight, Mode.weight, weights_append_singleton]
    omega
  next =>
    cases Option.some.inj h
    simp [weight, frameWeights, Frame.weight, Mode.weight, memberWeights_append_singleton]
    omega
  next => cases h

theorem weight_closeArray {frames : List Frame} {q : Parser} (h : closeArray frames = some q) :
    q.weight = frameWeights frames := by
  unfold closeArray at h
  split at h
  next items rest =>
    rw [weight_complete h, Value.weight, Nat.add_comm]
    rfl
  next => cases h

theorem weight_closeObject {frames : List Frame} {q : Parser} (h : closeObject frames = some q) :
    q.weight = frameWeights frames := by
  unfold closeObject at h
  split at h
  next members rest =>
    rw [weight_complete h, Value.weight, Nat.add_comm]
    rfl
  next => cases h

theorem weight_startValue {frames : List Frame} {c : UInt16} {q : Parser}
    (h : startValue frames c = some q) :
    q.weight ≤ frameWeights frames + if c = unit '"' then 1 else 0 := by
  unfold startValue at h
  split at h
  next quote => cases Option.some.inj h; simp [weight, Mode.weight, quote]
  next =>
    split at h
    next => cases Option.some.inj h; simp [weight, frameWeights, Frame.weight, weights, Mode.weight]
    next =>
      split at h
      next =>
        cases Option.some.inj h
        simp [weight, frameWeights, Frame.weight, memberWeights, Mode.weight]
      next =>
        have quiet : q.frames = frames ∧ q.mode.weight = 0 := by grind [Mode.weight]
        simp [weight, quiet]

theorem weight_afterValue {p q : Parser} {c : UInt16} (h : p.afterValue c = some q) :
    q.weight ≤ p.weight := by
  unfold afterValue at h
  split at h
  next => cases Option.some.inj h; exact Nat.le_refl _
  next =>
    split at h
    next =>
      split at h
      next => cases Option.some.inj h; simp [weight, Mode.weight]
      next => cases Option.some.inj h; simp [weight, Mode.weight]
      next => cases h
    next =>
      split at h
      next => rw [weight_closeArray h]; exact Nat.le_add_right _ _
      next =>
        split at h
        next => rw [weight_closeObject h]; exact Nat.le_add_right _ _
        next => cases h

theorem weight_endString {frames : List Frame} {isKey : Bool} {read : Text} {q : Parser}
    (h : endString frames isKey read = some q) :
    q.weight = frameWeights frames + if isKey then 0 else read.length + 2 := by
  unfold endString at h
  cases isKey with
  | true =>
    simp only [if_true] at h ⊢
    split at h
    next => cases Option.some.inj h; rfl
    next => cases h
  | false => exact weight_complete h

/-- A unit adds at most one, and only a quote or a unit inside a string adds anything. -/
theorem weight_step {p q : Parser} {c : UInt16} (h : p.step c = some q) :
    q.weight ≤ p.weight + if p.mode.isText ∨ c = unit '"' then 1 else 0 := by
  obtain ⟨frames, mode⟩ := p
  unfold step at h
  cases mode with
  | value =>
    simp only at h
    split at h
    next => cases Option.some.inj h; exact Nat.le_add_right _ _
    next => simpa [weight, Mode.weight, Mode.isText] using weight_startValue h
  | firstItem =>
    simp only at h
    split at h
    next => cases Option.some.inj h; exact Nat.le_add_right _ _
    next =>
      split at h
      next => rw [weight_closeArray h]; exact Nat.le_add_right _ _
      next => simpa [weight, Mode.weight, Mode.isText] using weight_startValue h
  | firstKey =>
    simp only at h
    split at h
    next => cases Option.some.inj h; exact Nat.le_add_right _ _
    next =>
      split at h
      next => rw [weight_closeObject h]; exact Nat.le_add_right _ _
      next =>
        obtain ⟨_, same⟩ := Option.ite_none_right_eq_some.mp h
        cases Option.some.inj same
        exact Nat.le_add_right _ _
  | key | colon =>
    simp only at h
    split at h
    next => cases Option.some.inj h; exact Nat.le_add_right _ _
    next =>
      obtain ⟨_, same⟩ := Option.ite_none_right_eq_some.mp h
      cases Option.some.inj same
      exact Nat.le_add_right _ _
  | after | done => exact Nat.le_trans (weight_afterValue h) (Nat.le_add_right _ _)
  | string isKey read =>
    simp only at h
    split at h
    next =>
      rw [weight_endString h]
      cases isKey <;> simp [weight, Mode.weight, Mode.isText, *]
      omega
    next =>
      split at h
      next =>
        cases Option.some.inj h
        exact Nat.le_add_right _ _
      next =>
        obtain ⟨_, same⟩ := Option.ite_none_left_eq_some.mp h
        cases Option.some.inj same
        cases isKey <;> simp [weight, Mode.weight, Mode.isText]
        omega
  | escape isKey read =>
    simp only at h
    split at h
    next =>
      cases Option.some.inj h
      exact Nat.le_add_right _ _
    next =>
      obtain ⟨d, _, rfl⟩ := Option.map_eq_some_iff.mp h
      cases isKey <;> simp [weight, Mode.weight, Mode.isText]
      omega
  | unicode isKey read missing code =>
    obtain ⟨d, _, rfl⟩ := Option.map_eq_some_iff.mp h
    cases missing <;> cases isKey <;> simp [weight, Mode.weight, Mode.isText]
    omega
  | number phase lexeme =>
    simp only at h
    split at h
    next =>
      cases Option.some.inj h
      exact Nat.le_add_right _ _
    next =>
      obtain ⟨_, ended⟩ := Option.ite_none_right_eq_some.mp h
      obtain ⟨r, completed, rest⟩ := Option.bind_eq_some_iff.mp ended
      have := weight_numberValue phase lexeme
      have := weight_complete completed
      have := weight_afterValue rest
      simp only [weight, Mode.weight] at *
      omega
  | literal literal read =>
    obtain ⟨_, h⟩ := Option.ite_none_right_eq_some.mp h
    split at h
    next =>
      have light : literal.value.weight = 0 := by cases literal <;> rfl
      rw [weight_complete h, light]
      exact Nat.le_add_right _ _
    next =>
      cases Option.some.inj h
      exact Nat.le_add_right _ _

theorem weight_run {p q : Parser} {text : Text} (h : text.foldlM step p = some q) :
    q.weight ≤ p.weight + text.length := by
  induction text generalizing p with
  | nil => cases Option.some.inj h; exact Nat.le_refl _
  | cons c text ih =>
    rw [List.foldlM_cons] at h
    obtain ⟨mid, first, rest⟩ := Option.bind_eq_some_iff.mp h
    have gained : mid.weight ≤ p.weight + 1 := by
      refine Nat.le_trans (weight_step first) (Nat.add_le_add_left ?_ _)
      split <;> omega
    have := ih rest
    rw [List.length_cons]
    omega

theorem weight_finish {p : Parser} {v : Value} (h : p.finish = some v) : v.weight ≤ p.weight := by
  unfold finish at h
  split at h
  next ended =>
    cases Option.some.inj h
    simp [weight, ended, Mode.weight]
  next =>
    obtain ⟨_, same⟩ := Option.ite_none_right_eq_some.mp h
    cases Option.some.inj same
    rw [weight_numberValue]
    exact Nat.zero_le _
  next => cases h

end Parser

end Json
