import PwDart.JsonWrite

namespace Json

def hexUnit (n : Nat) : UInt16 := UInt16.ofNat (if n < 10 then 48 + n else 87 + n)

/-- What the encoder writes for a unit between two others: a surrogate without its partner is escaped. -/
def encodeUnit (before : Option UInt16) (c : UInt16) (after : Option UInt16) : Text :=
  if unit '\\' < c then
    if isHighSurrogate c && !after.any isLowSurrogate || isLowSurrogate c && !before.any isHighSurrogate then
      [unit '\\', unit 'u', unit 'd', hexUnit (c.toNat / 256 % 16), hexUnit (c.toNat / 16 % 16), hexUnit (c.toNat % 16)]
    else [c]
  else if c < 32 then
    if c = 0x08 then [unit '\\', unit 'b']
    else if c = 0x09 then [unit '\\', unit 't']
    else if c = 0x0A then [unit '\\', unit 'n']
    else if c = 0x0C then [unit '\\', unit 'f']
    else if c = 0x0D then [unit '\\', unit 'r']
    else [unit '\\', unit 'u', unit '0', unit '0', hexUnit (c.toNat / 16 % 16), hexUnit (c.toNat % 16)]
  else if c = unit '"' || c = unit '\\' then [unit '\\', c]
  else [c]

def encodeUnits (before : Option UInt16) : Text → Text
  | [] => []
  | c :: rest => encodeUnit before c rest.head? ++ encodeUnits (some c) rest

def encodeText (s : Text) : Text := unit '"' :: (encodeUnits none s ++ [unit '"'])

/-- The white space an encoder puts in: `gap` before an item at a level, or before the bracket that closes
the level. -/
structure Layout where
  gap : Nat → Text
  afterColon : Text
  gap_space : ∀ level, (gap level).all isSpace = true
  colon_space : afterColon.all isSpace = true

/-- `JsonEncoder()`. -/
def compact : Layout := ⟨fun _ => [], [], fun _ => rfl, rfl⟩

/-- `JsonEncoder.withIndent(indent)`. -/
def withIndent (indent : Text) (space : indent.all isSpace = true) : Layout where
  gap level := unit '\n' :: (List.replicate level indent).flatten
  afterColon := [unit ' ']
  gap_space level := by
    rw [List.all_cons, List.all_flatten, Bool.and_eq_true]
    refine ⟨rfl, List.all_eq_true.mpr fun t mem => ?_⟩
    rw [List.eq_of_mem_replicate mem, space]
  colon_space := rfl

mutual

/-- `convert`, for a value at a level. -/
def encode (layout : Layout) (level : Nat) : Value → Text
  | .null => utf16 "null"
  | .bool true => utf16 "true"
  | .bool false => utf16 "false"
  | .int i => utf16Chars (writeInt i)
  | .double lexeme => lexeme
  | .str s => encodeText s
  | .arr [] => [unit '[', unit ']']
  | .arr (v :: vs) =>
    unit '[' :: (layout.gap (level + 1) ++ (encode layout (level + 1) v ++ encodeItems layout level vs))
  | .obj [] => [unit '\x7b', unit '\x7d']
  | .obj ((key, v) :: members) =>
    unit '\x7b' :: (layout.gap (level + 1) ++ (encodeText key ++ (unit ':' :: (layout.afterColon ++
      (encode layout (level + 1) v ++ encodeMembers layout level members)))))

/-- The items after the first, with the bracket that closes their array. -/
def encodeItems (layout : Layout) (level : Nat) : List Value → Text
  | [] => layout.gap level ++ [unit ']']
  | v :: vs =>
    unit ',' :: (layout.gap (level + 1) ++ (encode layout (level + 1) v ++ encodeItems layout level vs))

def encodeMembers (layout : Layout) (level : Nat) : List (Text × Value) → Text
  | [] => layout.gap level ++ [unit '\x7d']
  | (key, v) :: members =>
    unit ',' :: (layout.gap (level + 1) ++ (encodeText key ++ (unit ':' :: (layout.afterColon ++
      (encode layout (level + 1) v ++ encodeMembers layout level members)))))

end

mutual

/-- No doubles, and integers of 64 bits; texts are any. -/
def Value.Encodable : Value → Prop
  | .null | .bool _ | .str _ => True
  | .int i => -2 ^ 63 ≤ i ∧ i < 2 ^ 63
  | .double _ => False
  | .arr items => AllEncodable items
  | .obj members => MembersEncodable members

def AllEncodable : List Value → Prop
  | [] => True
  | v :: vs => v.Encodable ∧ AllEncodable vs

def MembersEncodable : List (Text × Value) → Prop
  | [] => True
  | (_, v) :: members => v.Encodable ∧ MembersEncodable members

end

namespace Parser

theorem run_spaces {p : Parser} (skips : ∀ c, isSpace c = true → p.step c = some p) {spaces : Text}
    (all : spaces.all isSpace = true) : spaces.foldlM step p = some p := by
  induction spaces with
  | nil => rfl
  | cons c rest ih =>
    rw [List.all_cons, Bool.and_eq_true] at all
    rw [List.foldlM_cons, skips c all.1]
    exact ih all.2

theorem isSpace_cases {c : UInt16} (space : isSpace c = true) :
    c = unit ' ' ∨ c = unit '\t' ∨ c = unit '\n' ∨ c = unit '\r' := by
  simpa [isSpace, or_assoc] using space

/-- White space ends a number and is passed over after any other value. -/
theorem Ends.step_space {frames : List Frame} {v : Value} {p : Parser} {c : UInt16} (h : Ends frames v p)
    (space : isSpace c = true) : p.step c = complete frames v := by
  have after (q : Parser) : q.afterValue c = some q := by
    rw [afterValue, if_pos space]
  rcases h with ended | ⟨phase, lexeme, rfl, final, value⟩
  · rw [ended]
    rcases mode_complete ended with same | ⟨w, same⟩
    · simp only [step, same]
      exact after p
    · simp only [step, same]
      exact after p
  · have stops : phase.next c = none := by
      rcases isSpace_cases space with rfl | rfl | rfl | rfl <;> cases phase <;> rfl
    simp only [step, stops, final, if_true, value]
    cases complete frames v with
    | none => rfl
    | some q => exact after q

/-- After a value, white space changes nothing for the separator behind it. -/
theorem Ends.run_separator {frames : List Frame} {v : Value} {p : Parser} (h : Ends frames v p) {spaces : Text}
    (all : spaces.all isSpace = true) {c : UInt16} (separator : c = unit ',' ∨ c = unit ']' ∨ c = unit '\x7d') :
    (spaces ++ [c]).foldlM step p = (complete frames v).bind fun q => q.afterValue c := by
  cases spaces with
  | nil =>
    rw [List.nil_append, List.foldlM_cons, h.step_eq separator]
    exact Option.bind_fun_some _
  | cons d rest =>
    rw [List.all_cons, Bool.and_eq_true] at all
    rw [List.cons_append, List.foldlM_cons, h.step_space all.1]
    cases ended : complete frames v with
    | none => rfl
    | some q =>
      have step_after (e : UInt16) : q.step e = q.afterValue e := by
        rcases mode_complete ended with same | ⟨w, same⟩ <;> simp only [step, same]
      have skips (e : UInt16) (space : isSpace e = true) : q.step e = some q := by
        rw [step_after, afterValue, if_pos space]
      change (rest ++ [c]).foldlM step q = q.afterValue c
      rw [List.foldlM_append, run_spaces skips all.2]
      change [c].foldlM step q = q.afterValue c
      rw [List.foldlM_cons, step_after]
      exact Option.bind_fun_some _

theorem hexDigit_hexUnit {n : Nat} (small : n < 16) : hexDigit (hexUnit n) = some (UInt16.ofNat n) := by
  interval_cases n <;> rfl

/-- Four hexadecimal digits are read as their number. -/
theorem run_unicode (frames : List Frame) (isKey : Bool) (read : Text) {a b c d : Nat} (ha : a < 16) (hb : b < 16)
    (hc : c < 16) (hd : d < 16) :
    [unit '\\', unit 'u', hexUnit a, hexUnit b, hexUnit c, hexUnit d].foldlM step ⟨frames, .string isKey read⟩ =
      some ⟨frames, .string isKey (read ++ [UInt16.ofNat (((a * 16 + b) * 16 + c) * 16 + d)])⟩ := by
  have value : (16 : UInt16) * (16 * (16 * (16 * 0 + UInt16.ofNat a) + UInt16.ofNat b) + UInt16.ofNat c) + UInt16.ofNat d =
      UInt16.ofNat (((a * 16 + b) * 16 + c) * 16 + d) := by
    apply UInt16.toNat_inj.mp
    simp only [UInt16.toNat_add, UInt16.toNat_mul, UInt16.toNat_ofNat', UInt16.reduceToNat]
    omega
  have opens : step ⟨frames, .string isKey read⟩ (unit '\\') = some ⟨frames, .escape isKey read⟩ := rfl
  have escapes : step ⟨frames, .escape isKey read⟩ (unit 'u') = some ⟨frames, .unicode isKey read 3 0⟩ := rfl
  have digit (n : Nat) (small : n < 16) (missing : Nat) (code : UInt16) :
      step ⟨frames, .unicode isKey read (missing + 1) code⟩ (hexUnit n) =
        some ⟨frames, .unicode isKey read missing (16 * code + UInt16.ofNat n)⟩ := by
    simp only [step, hexDigit_hexUnit small, Option.map_some]
  have last (code : UInt16) : step ⟨frames, .unicode isKey read 0 code⟩ (hexUnit d) =
      some ⟨frames, .string isKey (read ++ [16 * code + UInt16.ofNat d])⟩ := by
    simp only [step, hexDigit_hexUnit hd, Option.map_some]
  simp only [List.foldlM_cons, List.foldlM_nil, Option.bind_eq_bind, Option.bind_some, opens, escapes, digit a ha 2,
    digit b hb 1, digit c hc 0, last, value]
  rfl

/-- What the encoder makes of a unit is read as that unit, whatever stands around it. -/
theorem run_encodeUnit (frames : List Frame) (isKey : Bool) (read : Text) (before after : Option UInt16) (c : UInt16) :
    (encodeUnit before c after).foldlM step ⟨frames, .string isKey read⟩ =
      some ⟨frames, .string isKey (read ++ [c])⟩ := by
  have plain (quote : c ≠ unit '"') (escape : c ≠ unit '\\') (printable : ¬c < 32) :
      [c].foldlM step ⟨frames, .string isKey read⟩ = some ⟨frames, .string isKey (read ++ [c])⟩ := by
    refine run_string ?_
    have above : (0x20 : UInt16) ≤ c := UInt16.not_lt.mp printable
    simp [isPlain, quote, escape, above]
  have number (n : Nat) (same : n = c.toNat) : UInt16.ofNat n = c := by
    rw [same, UInt16.ofNat_toNat]
  unfold encodeUnit
  split
  next large =>
    have large := UInt16.lt_iff_toNat_lt.mp large
    have backslash : (unit '\\').toNat = 92 := rfl
    split
    next lone =>
      have surrogate : 0xD800 ≤ c.toNat ∧ c.toNat < 0xE000 := by
        simp only [Bool.or_eq_true, Bool.and_eq_true, isHighSurrogate, isLowSurrogate, decide_eq_true_eq,
          UInt16.le_iff_toNat_le, UInt16.lt_iff_toNat_lt, UInt16.reduceToNat] at lone
        omega
      have run := run_unicode frames isKey read (a := 13) (by decide) (Nat.mod_lt (c.toNat / 256) (by decide))
        (Nat.mod_lt (c.toNat / 16) (by decide)) (Nat.mod_lt c.toNat (by decide))
      rw [number _ (by omega)] at run
      exact run
    next =>
      refine plain ?_ ?_ ?_
      · rintro rfl
        exact absurd large (by decide)
      · rintro rfl
        exact absurd large (by decide)
      · simp only [UInt16.lt_iff_toNat_lt, UInt16.reduceToNat]
        omega
  next =>
    split
    next control =>
      split_ifs with h8 h9 h10 h12 h13
      · subst h8; rfl
      · subst h9; rfl
      · subst h10; rfl
      · subst h12; rfl
      · subst h13; rfl
      · have small := UInt16.lt_iff_toNat_lt.mp control
        simp only [UInt16.reduceToNat] at small
        have run := run_unicode frames isKey read (a := 0) (b := 0) (by decide) (by decide)
          (Nat.mod_lt (c.toNat / 16) (by decide)) (Nat.mod_lt c.toNat (by decide))
        rw [number _ (by omega)] at run
        exact run
    next printable =>
      split
      next special =>
        have special : c = unit '"' ∨ c = unit '\\' := by simpa using special
        rcases special with rfl | rfl <;> rfl
      next ordinary =>
        have ordinary : c ≠ unit '"' ∧ c ≠ unit '\\' := by simpa using ordinary
        exact plain ordinary.1 ordinary.2 printable

theorem run_encodeUnits (frames : List Frame) (isKey : Bool) (read : Text) (before : Option UInt16) (s : Text) :
    (encodeUnits before s).foldlM step ⟨frames, .string isKey read⟩ = some ⟨frames, .string isKey (read ++ s)⟩ := by
  induction s generalizing read before with
  | nil => rw [List.append_nil]; rfl
  | cons c rest ih =>
    have later := ih (read ++ [c]) (some c)
    rw [List.append_assoc, List.singleton_append] at later
    exact run_trans (run_encodeUnit frames isKey read before rest.head? c) later

/-- An encoded text is read back where a string may stand. -/
theorem run_encodeText {p : Parser} {isKey : Bool} (s : Text)
    (opens : p.step (unit '"') = some ⟨p.frames, .string isKey []⟩) :
    (encodeText s).foldlM step p = endString p.frames isKey s := by
  rw [encodeText, List.foldlM_cons, opens, Option.bind_eq_bind, Option.bind_some, List.foldlM_append, run_encodeUnits]
  simp [step]

theorem readsValue_encodeText (s : Text) : ReadsValue (encodeText s) (.str s) := by
  refine ⟨unit '"', encodeUnits none s ++ [unit '"'], rfl, rfl, by decide, fun frames takes => ?_⟩
  obtain ⟨p, completed⟩ := complete_of_takesValue takes (.str s)
  refine ⟨p, ?_, Or.inl completed⟩
  have opens : Parser.step ⟨frames, .value⟩ (unit '"') = some ⟨frames, .string false []⟩ := rfl
  exact (run_encodeText s opens).trans completed

theorem step_space_value {frames : List Frame} {mode : Mode}
    (outside : mode = .value ∨ mode = .firstItem ∨ mode = .firstKey ∨ mode = .key) {c : UInt16}
    (space : isSpace c = true) : step ⟨frames, mode⟩ c = some ⟨frames, mode⟩ := by
  rcases outside with rfl | rfl | rfl | rfl <;> simp only [step, space, if_true]

/-- An encoded key and its colon lead to the value, with the white space around them. -/
theorem run_encodeKey {members : Members} {frames : List Frame} {mode : Mode} (layout : Layout) (level : Nat)
    (key rest : Text) (at_ : mode = .firstKey ∨ mode = .key) :
    (layout.gap level ++ (encodeText key ++ (unit ':' :: (layout.afterColon ++ rest)))).foldlM step
        ⟨.obj members :: frames, mode⟩ = rest.foldlM step ⟨.member members key :: frames, .value⟩ := by
  have skips : (layout.gap level).foldlM step ⟨.obj members :: frames, mode⟩ = some ⟨.obj members :: frames, mode⟩ :=
    run_spaces (fun c space => step_space_value (Or.inr (Or.inr at_)) space) (layout.gap_space level)
  have opens : step ⟨.obj members :: frames, mode⟩ (unit '"') = some ⟨.obj members :: frames, .string true []⟩ := by
    rcases at_ with rfl | rfl <;> rfl
  have named := run_encodeText key opens
  have colon : step ⟨.member members key :: frames, .colon⟩ (unit ':') =
      some ⟨.member members key :: frames, .value⟩ := rfl
  have after : layout.afterColon.foldlM step ⟨.member members key :: frames, .value⟩ =
      some ⟨.member members key :: frames, .value⟩ :=
    run_spaces (fun c space => step_space_value (Or.inl rfl) space) layout.colon_space
  rw [List.foldlM_append, skips, Option.bind_eq_bind, Option.bind_some, List.foldlM_append, named]
  simp only [endString, if_true, Option.bind_eq_bind, Option.bind_some, List.foldlM_cons, colon, List.foldlM_append,
    after]

mutual

/-- An encoded value is read back, wherever one may stand and however it is laid out. -/
theorem readsValue_encode (layout : Layout) (level : Nat) (v : Value) (encodable : v.Encodable) :
    ReadsValue (encode layout level v) v := by
  cases v with
  | null => exact readsValue_complete (c := unit 'n') rfl (by decide) fun frames => rfl
  | bool b =>
    cases b with
    | true => exact readsValue_complete (c := unit 't') rfl (by decide) fun frames => rfl
    | false => exact readsValue_complete (c := unit 'f') rfl (by decide) fun frames => rfl
  | int i => exact readsValue_write (.int i) encodable
  | double => exact False.elim encodable
  | str s => exact readsValue_encodeText s
  | arr items =>
    cases items with
    | nil => exact readsValue_complete (c := unit '[') rfl (by decide) fun frames => rfl
    | cons v vs =>
      obtain ⟨first, others⟩ : v.Encodable ∧ AllEncodable vs := encodable
      refine ⟨unit '[', layout.gap (level + 1) ++ (encode layout (level + 1) v ++ encodeItems layout level vs), rfl, rfl,
        by decide, fun frames takes => ?_⟩
      obtain ⟨p, run, ended⟩ := (readsValue_encode layout (level + 1) v first).run (takesValue_arr [] frames) (Or.inr rfl)
      obtain ⟨q, completed⟩ := complete_of_takesValue takes (.arr (v :: vs))
      have skips : (layout.gap (level + 1)).foldlM step ⟨.arr [] :: frames, .firstItem⟩ =
          some ⟨.arr [] :: frames, .firstItem⟩ :=
        run_spaces (fun c space => step_space_value (Or.inr (Or.inl rfl)) space) (layout.gap_space _)
      refine ⟨q, ?_, Or.inl completed⟩
      exact run_trans skips (run_trans run ((run_encodeItems layout level vs others ended).trans completed))
  | obj members =>
    cases members with
    | nil => exact readsValue_complete (c := unit '\x7b') rfl (by decide) fun frames => rfl
    | cons member members =>
      obtain ⟨key, v⟩ := member
      obtain ⟨first, others⟩ : v.Encodable ∧ MembersEncodable members := encodable
      refine ⟨unit '\x7b', _, rfl, rfl, by decide, fun frames takes => ?_⟩
      obtain ⟨p, run, ended⟩ :=
        (readsValue_encode layout (level + 1) v first).run (takesValue_member [] key frames) (Or.inl rfl)
      obtain ⟨q, completed⟩ := complete_of_takesValue takes (.obj ((key, v) :: members))
      have opened : startValue frames (unit '\x7b') = some ⟨.obj [] :: frames, .firstKey⟩ := rfl
      refine ⟨q, ?_, Or.inl completed⟩
      rw [opened, Option.bind_some, run_encodeKey layout (level + 1) key _ (Or.inl rfl)]
      exact run_trans run ((run_encodeMembers layout level members others ended).trans completed)

theorem run_encodeItems (layout : Layout) (level : Nat) (vs : List Value) (encodable : AllEncodable vs)
    {frames : List Frame} {items : List Value} {v : Value} {p : Parser} (ended : Ends (.arr items :: frames) v p) :
    (encodeItems layout level vs).foldlM step p = complete frames (.arr (items ++ v :: vs)) := by
  cases vs with
  | nil =>
    rw [encodeItems, ended.run_separator (layout.gap_space level) (Or.inr (Or.inl rfl))]
    rfl
  | cons w ws =>
    obtain ⟨first, others⟩ : w.Encodable ∧ AllEncodable ws := encodable
    obtain ⟨q, run, endedNext⟩ :=
      (readsValue_encode layout (level + 1) w first).run (takesValue_arr (items ++ [v]) frames) (Or.inl rfl)
    have comma : p.step (unit ',') = some ⟨.arr (items ++ [v]) :: frames, .value⟩ := ended.step_eq (Or.inl rfl)
    have skips : (layout.gap (level + 1)).foldlM step ⟨.arr (items ++ [v]) :: frames, .value⟩ =
        some ⟨.arr (items ++ [v]) :: frames, .value⟩ :=
      run_spaces (fun c space => step_space_value (Or.inl rfl) space) (layout.gap_space _)
    have rest := run_encodeItems layout level ws others endedNext
    rw [List.append_assoc, List.singleton_append] at rest
    rw [encodeItems, List.foldlM_cons, comma, Option.bind_eq_bind, Option.bind_some, ← rest, List.foldlM_append, skips,
      Option.bind_eq_bind, Option.bind_some, List.foldlM_append, run]
    rfl

theorem run_encodeMembers (layout : Layout) (level : Nat) (ms : List (Text × Value)) (encodable : MembersEncodable ms)
    {frames : List Frame} {members : Members} {key : Text} {v : Value} {p : Parser}
    (ended : Ends (.member members key :: frames) v p) :
    (encodeMembers layout level ms).foldlM step p = complete frames (.obj (members ++ (key, v) :: ms)) := by
  cases ms with
  | nil =>
    rw [encodeMembers, ended.run_separator (layout.gap_space level) (Or.inr (Or.inr rfl))]
    rfl
  | cons m ms =>
    obtain ⟨name, w⟩ := m
    obtain ⟨first, others⟩ : w.Encodable ∧ MembersEncodable ms := encodable
    obtain ⟨q, run, endedNext⟩ := (readsValue_encode layout (level + 1) w first).run
      (takesValue_member (members ++ [(key, v)]) name frames) (Or.inl rfl)
    have comma : p.step (unit ',') = some ⟨.obj (members ++ [(key, v)]) :: frames, .key⟩ :=
      ended.step_eq (Or.inl rfl)
    have rest := run_encodeMembers layout level ms others endedNext
    rw [List.append_assoc, List.singleton_append] at rest
    rw [encodeMembers, List.foldlM_cons, comma, Option.bind_eq_bind, Option.bind_some,
      run_encodeKey layout (level + 1) name _ (Or.inr rfl), ← rest, List.foldlM_append, run]
    rfl

end

end Parser

/-- What is encoded decodes to the same value, compact or with any white space between its tokens. -/
theorem decode_encode (layout : Layout) {v : Value} (encodable : v.Encodable) : decode (encode layout 0 v) = some v := by
  have takes : Parser.TakesValue [] := by
    intro members rest same
    cases same
  obtain ⟨p, run, ended⟩ := (Parser.readsValue_encode layout 0 v encodable).run takes (Or.inl rfl)
  rw [decode, run]
  exact ended.finish_eq

end Json
