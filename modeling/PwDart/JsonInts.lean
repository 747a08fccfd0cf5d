import PwDart.JsonDecode

namespace Json

mutual

/-- Its integers are of 64 bits. -/
def Value.Fits : Value → Prop
  | .null | .bool _ | .double _ | .str _ => True
  | .int i => -2 ^ 63 ≤ i ∧ i < 2 ^ 63
  | .arr items => AllFit items
  | .obj members => MembersFit members

def AllFit : List Value → Prop
  | [] => True
  | v :: vs => v.Fits ∧ AllFit vs

def MembersFit : List (Text × Value) → Prop
  | [] => True
  | (_, v) :: members => v.Fits ∧ MembersFit members

end

theorem allFit_append {vs : List Value} {v : Value} (all : AllFit vs) (fits : v.Fits) : AllFit (vs ++ [v]) := by
  induction vs with
  | nil => exact ⟨fits, trivial⟩
  | cons w vs ih => exact ⟨all.1, ih all.2⟩

theorem membersFit_append {members : Members} {key : Text} {v : Value} (all : MembersFit members) (fits : v.Fits) :
    MembersFit (members ++ [(key, v)]) := by
  induction members with
  | nil => exact ⟨fits, trivial⟩
  | cons member members ih => exact ⟨all.1, ih all.2⟩

theorem fits_get {members : Members} (all : MembersFit members) (name : String) : (members.get name).Fits := by
  have found (start : Value) (fits : start.Fits) :
      (members.foldl (fun found member => if member.1 = utf16 name then member.2 else found) start).Fits := by
    induction members generalizing start with
    | nil => exact fits
    | cons member members ih =>
      refine ih all.2 (if member.1 = utf16 name then member.2 else start) ?_
      split
      next => exact all.1
      next => exact fits
  exact found .null trivial

def Frame.Fits : Frame → Prop
  | arr items => AllFit items
  | obj members => MembersFit members
  | member members _ => MembersFit members

namespace Parser

/-- What has been read has integers of 64 bits. -/
structure Fits (p : Parser) : Prop where
  frames : ∀ frame ∈ p.frames, frame.Fits
  done : ∀ v, p.mode = .done v → v.Fits

/-- A mode that holds no value. -/
theorem fits_of_frames {frames : List Frame} {mode : Mode} (all : ∀ frame ∈ frames, frame.Fits)
    (open_ : ∀ v, mode ≠ .done v) : Fits ⟨frames, mode⟩ :=
  ⟨all, fun v same => absurd same (open_ v)⟩

theorem fits_complete {frames : List Frame} {v : Value} {q : Parser} (all : ∀ frame ∈ frames, frame.Fits)
    (fits : v.Fits) (completed : complete frames v = some q) : q.Fits := by
  unfold complete at completed
  split at completed
  next =>
    cases Option.some.inj completed
    refine ⟨fun frame mem => (by cases mem), fun w same => ?_⟩
    cases same
    exact fits
  next items rest =>
    cases Option.some.inj completed
    refine fits_of_frames (fun frame mem => ?_) (by simp)
    rcases List.mem_cons.mp mem with rfl | later
    · exact allFit_append (all _ List.mem_cons_self) fits
    · exact all frame (List.mem_cons_of_mem _ later)
  next members key rest =>
    cases Option.some.inj completed
    refine fits_of_frames (fun frame mem => ?_) (by simp)
    rcases List.mem_cons.mp mem with rfl | later
    · exact membersFit_append (all _ List.mem_cons_self) fits
    · exact all frame (List.mem_cons_of_mem _ later)
  next => cases completed

theorem fits_endString {frames : List Frame} {isKey : Bool} {read : Text} {q : Parser}
    (all : ∀ frame ∈ frames, frame.Fits) (ended : endString frames isKey read = some q) : q.Fits := by
  unfold endString at ended
  split at ended
  next =>
    split at ended
    next members rest =>
      cases Option.some.inj ended
      refine fits_of_frames (fun frame mem => ?_) (by simp)
      rcases List.mem_cons.mp mem with rfl | later
      · exact all (.obj members) List.mem_cons_self
      · exact all frame (List.mem_cons_of_mem _ later)
    next => cases ended
  next => exact fits_complete (v := .str read) all trivial ended

theorem fits_startValue {frames : List Frame} {c : UInt16} {q : Parser} (all : ∀ frame ∈ frames, frame.Fits)
    (started : startValue frames c = some q) : q.Fits := by
  have opened {f : Frame} (empty : f.Fits) : ∀ g ∈ f :: frames, g.Fits := by
    intro g mem
    rcases List.mem_cons.mp mem with rfl | later
    · exact empty
    · exact all g later
  unfold startValue at started
  split_ifs at started <;> cases Option.some.inj started
  · exact fits_of_frames all (by simp)
  · exact fits_of_frames (opened (f := .arr []) trivial) (by simp)
  · exact fits_of_frames (opened (f := .obj []) trivial) (by simp)
  all_goals exact fits_of_frames all (by simp)

theorem fits_closeArray {frames : List Frame} {q : Parser} (all : ∀ frame ∈ frames, frame.Fits)
    (closed : closeArray frames = some q) : q.Fits := by
  unfold closeArray at closed
  split at closed
  next items rest =>
    have fits : AllFit items := all (.arr items) List.mem_cons_self
    exact fits_complete (v := .arr items) (fun frame mem => all frame (List.mem_cons_of_mem _ mem)) fits closed
  next => cases closed

theorem fits_closeObject {frames : List Frame} {q : Parser} (all : ∀ frame ∈ frames, frame.Fits)
    (closed : closeObject frames = some q) : q.Fits := by
  unfold closeObject at closed
  split at closed
  next members rest =>
    have fits : MembersFit members := all (.obj members) List.mem_cons_self
    exact fits_complete (v := .obj members) (fun frame mem => all frame (List.mem_cons_of_mem _ mem)) fits closed
  next => cases closed

theorem fits_afterValue {p q : Parser} {c : UInt16} (h : p.Fits) (after : p.afterValue c = some q) : q.Fits := by
  unfold afterValue at after
  split_ifs at after
  · cases Option.some.inj after
    exact h
  · split at after
    next =>
      cases Option.some.inj after
      exact fits_of_frames h.frames (by simp)
    next =>
      cases Option.some.inj after
      exact fits_of_frames h.frames (by simp)
    next => cases after
  · exact fits_closeArray h.frames after
  · exact fits_closeObject h.frames after

theorem fits_numberValue (phase : NumberPhase) (lexeme : Text) : (numberValue phase lexeme).Fits := by
  simp only [numberValue]
  generalize (if lexeme.head? = some (unit '-') then -(digitsValue lexeme.tail : Int) else digitsValue lexeme) = n
  split
  next small => exact small.2
  next => trivial

theorem fits_literal (literal : Literal) : literal.value.Fits := by
  cases literal <;> trivial

theorem fits_step {p q : Parser} {c : UInt16} (h : p.Fits) (stepped : p.step c = some q) : q.Fits := by
  obtain ⟨frames, mode⟩ := p
  have all := h.frames
  cases mode with
  | value =>
    simp only [step] at stepped
    split_ifs at stepped
    · cases Option.some.inj stepped
      exact h
    · exact fits_startValue all stepped
  | firstItem =>
    simp only [step] at stepped
    split_ifs at stepped
    · cases Option.some.inj stepped
      exact h
    · exact fits_closeArray all stepped
    · exact fits_startValue all stepped
  | firstKey =>
    simp only [step] at stepped
    split_ifs at stepped
    · cases Option.some.inj stepped
      exact h
    · exact fits_closeObject all stepped
    · cases Option.some.inj stepped
      exact fits_of_frames all (by simp)
  | key | colon =>
    simp only [step] at stepped
    split_ifs at stepped
    · cases Option.some.inj stepped
      exact h
    · cases Option.some.inj stepped
      exact fits_of_frames all (by simp)
  | after | done => exact fits_afterValue h stepped
  | string isKey read =>
    simp only [step] at stepped
    split_ifs at stepped
    · exact fits_endString all stepped
    · cases Option.some.inj stepped
      exact fits_of_frames all (by simp)
    · cases Option.some.inj stepped
      exact fits_of_frames all (by simp)
  | escape isKey read =>
    simp only [step] at stepped
    split at stepped
    next =>
      cases Option.some.inj stepped
      exact fits_of_frames all (by simp)
    next =>
      obtain ⟨_, _, rfl⟩ := Option.map_eq_some_iff.mp stepped
      exact fits_of_frames all (by simp)
  | unicode isKey read missing code =>
    obtain ⟨_, _, rfl⟩ := Option.map_eq_some_iff.mp stepped
    cases missing with
    | zero => exact fits_of_frames all (by simp)
    | succ missing => exact fits_of_frames all (by simp)
  | number phase lexeme =>
    simp only [step] at stepped
    split at stepped
    next =>
      cases Option.some.inj stepped
      exact fits_of_frames all (by simp)
    next =>
      obtain ⟨_, ended⟩ := Option.ite_none_right_eq_some.mp stepped
      obtain ⟨r, completed, after⟩ := Option.bind_eq_some_iff.mp ended
      exact fits_afterValue (fits_complete all (fits_numberValue phase lexeme) completed) after
  | literal literal read =>
    simp only [step] at stepped
    split_ifs at stepped
    · exact fits_complete all (fits_literal literal) stepped
    · cases Option.some.inj stepped
      exact fits_of_frames all (by simp)

theorem fits_run {p q : Parser} {text : Text} (h : p.Fits) (run : text.foldlM step p = some q) : q.Fits := by
  induction text generalizing p with
  | nil =>
    cases Option.some.inj run
    exact h
  | cons c rest ih =>
    rw [List.foldlM_cons] at run
    obtain ⟨next, first, run⟩ := Option.bind_eq_some_iff.mp run
    exact ih (fits_step h first) run

end Parser

/-- A decoded value has integers of 64 bits only. -/
theorem fits_decode {text : Text} {v : Value} (decoded : decode text = some v) : v.Fits := by
  obtain ⟨p, run, ended⟩ := Option.bind_eq_some_iff.mp decoded
  have fits : p.Fits := Parser.fits_run (Parser.fits_of_frames (by simp) (by simp)) run
  unfold Parser.finish at ended
  split at ended
  next same =>
    cases Option.some.inj ended
    exact fits.done _ same
  next phase lexeme _ =>
    obtain ⟨_, same⟩ := Option.ite_none_right_eq_some.mp ended
    exact Option.some.inj same ▸ Parser.fits_numberValue phase lexeme
  next => cases ended

end Json
