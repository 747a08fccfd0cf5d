import PwDart.JsonRun

namespace Json

def Frame.names : Frame → List Text
  | arr _ => []
  | obj members => members.map Prod.fst
  | member members key => members.map Prod.fst ++ [key]

namespace Parser

/-- The keys read so far in the object that is the whole document. -/
def outerNames : List Frame → List Text
  | [] => []
  | [frame] => frame.names
  | _ :: frame :: rest => outerNames (frame :: rest)

def names (p : Parser) : List Text :=
  match p.mode, p.frames with
  | .done (.obj members), [] => members.map Prod.fst
  | .done _, _ => []
  | _, frames => outerNames frames

theorem outerNames_push (frame : Frame) {frames : List Frame} {name : Text}
    (h : name ∈ outerNames frames) : name ∈ outerNames (frame :: frames) := by
  cases frames with
  | nil => cases h
  | cons => exact h

/-- Replacing the innermost frame by one that has its keys loses none. -/
theorem outerNames_replace {frame other : Frame} {rest : List Frame} {name : Text}
    (keeps : ∀ n ∈ frame.names, n ∈ other.names) (h : name ∈ outerNames (frame :: rest)) :
    name ∈ outerNames (other :: rest) := by
  cases rest with
  | nil => exact keeps name h
  | cons => exact h

theorem names_of_open {frames : List Frame} {mode : Mode} (opened : ∀ v, mode ≠ .done v) :
    names ⟨frames, mode⟩ = outerNames frames := by
  cases mode with
  | done v => exact absurd rfl (opened v)
  | _ => rfl

theorem names_complete {frames : List Frame} {v : Value} {q : Parser} {name : Text}
    (h : complete frames v = some q) (known : name ∈ outerNames frames) : name ∈ q.names := by
  unfold complete at h
  split at h
  next => cases known
  next =>
    cases Option.some.inj h
    exact outerNames_replace (fun n hn => by cases hn) known
  next members key rest =>
    cases Option.some.inj h
    refine outerNames_replace (fun n hn => ?_) known
    simpa [Frame.names] using hn
  next => cases h

theorem names_closeArray {frames : List Frame} {q : Parser} {name : Text}
    (h : closeArray frames = some q) (known : name ∈ outerNames frames) : name ∈ q.names := by
  unfold closeArray at h
  split at h
  next items rest =>
    cases rest with
    | nil => cases known
    | cons frame rest => exact names_complete h known
  next => cases h

theorem names_closeObject {frames : List Frame} {q : Parser} {name : Text}
    (h : closeObject frames = some q) (known : name ∈ outerNames frames) : name ∈ q.names := by
  unfold closeObject at h
  split at h
  next members rest =>
    cases rest with
    | nil => cases Option.some.inj h; exact known
    | cons frame rest => exact names_complete h known
  next => cases h

theorem names_endString {frames : List Frame} {isKey : Bool} {read : Text} {q : Parser} {name : Text}
    (h : endString frames isKey read = some q) (known : name ∈ outerNames frames) : name ∈ q.names := by
  cases isKey with
  | true =>
    simp only [endString, if_true] at h
    split at h
    next =>
      cases Option.some.inj h
      refine outerNames_replace (fun n hn => ?_) known
      exact List.mem_append_left _ hn
    next => cases h
  | false => exact names_complete h known

theorem names_startValue {frames : List Frame} {c : UInt16} {q : Parser} {name : Text}
    (h : startValue frames c = some q) (known : name ∈ outerNames frames) : name ∈ q.names := by
  unfold startValue at h
  split at h
  next => cases Option.some.inj h; exact known
  next =>
    split at h
    next => cases Option.some.inj h; exact outerNames_push _ known
    next =>
      split at h
      next => cases Option.some.inj h; exact outerNames_push _ known
      next =>
        have plain : q.frames = frames ∧ ∀ v, q.mode ≠ .done v := by grind
        obtain ⟨frames', mode⟩ := q
        obtain ⟨rfl, opened⟩ := plain
        rw [names_of_open opened]
        exact known

theorem names_afterValue {frames : List Frame} {mode : Mode} {q : Parser} {c : UInt16} {name : Text}
    (h : afterValue ⟨frames, mode⟩ c = some q) (known : name ∈ outerNames frames)
    (opened : ∀ v, mode ≠ .done v) : name ∈ q.names := by
  unfold afterValue at h
  split at h
  next =>
    cases Option.some.inj h
    rw [names_of_open opened]
    exact known
  next =>
    split at h
    next =>
      split at h
      next => cases Option.some.inj h; exact known
      next => cases Option.some.inj h; exact known
      next => cases h
    next =>
      split at h
      next => exact names_closeArray h known
      next =>
        split at h
        next => exact names_closeObject h known
        next => cases h

theorem names_afterDone {frames : List Frame} {v : Value} {q : Parser} {c : UInt16} {name : Text}
    (h : afterValue ⟨frames, .done v⟩ c = some q) (known : name ∈ names ⟨frames, .done v⟩) :
    name ∈ q.names := by
  cases frames with
  | cons => cases v <;> cases known
  | nil =>
    unfold afterValue at h
    have same : isSpace c = true ∧ ⟨[], .done v⟩ = q := by simpa [closeArray, closeObject] using h
    rw [← same.2]
    exact known

/-- A key of the outermost object stays one. -/
theorem names_step {p q : Parser} {c : UInt16} {name : Text} (h : p.step c = some q)
    (known : name ∈ p.names) : name ∈ q.names := by
  obtain ⟨frames, mode⟩ := p
  cases mode with
  | done v => exact names_afterDone h known
  | after => exact names_afterValue h known (by simp)
  | value =>
    simp only [step] at h
    split at h
    next => cases Option.some.inj h; exact known
    next => exact names_startValue h known
  | firstItem =>
    simp only [step] at h
    split at h
    next => cases Option.some.inj h; exact known
    next =>
      split at h
      next => exact names_closeArray h known
      next => exact names_startValue h known
  | firstKey =>
    simp only [step] at h
    split at h
    next => cases Option.some.inj h; exact known
    next =>
      split at h
      next => exact names_closeObject h known
      next =>
        obtain ⟨_, same⟩ := Option.ite_none_right_eq_some.mp h
        cases Option.some.inj same
        exact known
  | key | colon =>
    simp only [step] at h
    split at h
    next => cases Option.some.inj h; exact known
    next =>
      obtain ⟨_, same⟩ := Option.ite_none_right_eq_some.mp h
      cases Option.some.inj same
      exact known
  | string isKey read =>
    simp only [step] at h
    split at h
    next => exact names_endString h known
    next =>
      split at h
      next => cases Option.some.inj h; exact known
      next =>
        obtain ⟨_, same⟩ := Option.ite_none_left_eq_some.mp h
        cases Option.some.inj same
        exact known
  | escape isKey read =>
    simp only [step] at h
    split at h
    next => cases Option.some.inj h; exact known
    next =>
      obtain ⟨_, _, rfl⟩ := Option.map_eq_some_iff.mp h
      exact known
  | unicode isKey read missing code =>
    obtain ⟨_, _, rfl⟩ := Option.map_eq_some_iff.mp h
    cases missing <;> exact known
  | number phase lexeme =>
    simp only [step] at h
    split at h
    next => cases Option.some.inj h; exact known
    next =>
      obtain ⟨_, ended⟩ := Option.ite_none_right_eq_some.mp h
      obtain ⟨mid, completed, rest⟩ := Option.bind_eq_some_iff.mp ended
      have kept := names_complete completed known
      obtain ⟨frames', mode⟩ := mid
      rcases mode_complete completed with same | ⟨w, same⟩
      · simp only at same
        subst same
        exact names_afterValue rest kept (by simp)
      · simp only at same
        subst same
        exact names_afterDone rest kept
  | literal literal read =>
    simp only [step] at h
    obtain ⟨_, h⟩ := Option.ite_none_right_eq_some.mp h
    split at h
    next => exact names_complete h known
    next => cases Option.some.inj h; exact known

theorem names_run {p q : Parser} {text : Text} {name : Text} (h : text.foldlM step p = some q)
    (known : name ∈ p.names) : name ∈ q.names := by
  induction text generalizing p with
  | nil => cases Option.some.inj h; exact known
  | cons c text ih =>
    obtain ⟨mid, first, rest⟩ := run_cons h
    exact ih rest (names_step first known)

/-- A key that the outermost object had at any time is a key of the document. -/
theorem names_decode {p : Parser} {text : Text} {members : Members} {name : Text}
    (h : (text.foldlM step p).bind finish = some (.obj members)) (known : name ∈ p.names) :
    name ∈ members.map Prod.fst := by
  obtain ⟨q, run, ended⟩ := Option.bind_eq_some_iff.mp h
  have kept := names_run run known
  obtain ⟨frames, mode⟩ := q
  unfold finish at ended
  split at ended
  next v same =>
    cases Option.some.inj ended
    simp only at same
    subst same
    cases frames with
    | nil => exact kept
    | cons => cases kept
  next =>
    obtain ⟨_, same⟩ := Option.ite_none_right_eq_some.mp ended
    unfold numberValue at same
    grind
  next => cases ended

end Parser

end Json
