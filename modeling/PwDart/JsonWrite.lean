import PwDart.JsonRun
import PwDart.NativeText

namespace Json

mutual

/-- A value that native data can have: its texts are well-formed UTF-16 and its numbers are integers
of 64 bits. -/
def Value.IsNative : Value → Prop
  | .null | .bool _ => True
  | .int i => -2 ^ 63 ≤ i ∧ i < 2 ^ 63
  | .double _ => False
  | .str s => utf16Chars (codePoints s) = s
  | .arr items => AllNative items
  | .obj members => MembersNative members

def AllNative : List Value → Prop
  | [] => True
  | v :: vs => v.IsNative ∧ AllNative vs

def MembersNative : List (Text × Value) → Prop
  | [] => True
  | (key, v) :: members => utf16Chars (codePoints key) = key ∧ v.IsNative ∧ MembersNative members

end

def hexChar (n : Nat) : Char := if n < 10 then Char.ofNat (48 + n) else Char.ofNat (87 + n)

def escapeChar (c : Char) : List Char :=
  if c = '"' then ['\\', '"']
  else if c = '\\' then ['\\', '\\']
  else if c.toNat < 0x20 then ['\\', 'u', '0', '0', hexChar (c.toNat / 16), hexChar (c.toNat % 16)]
  else [c]

def writeText (s : Text) : List Char := '"' :: ((codePoints s).flatMap escapeChar ++ ['"'])

def digitChar (d : Nat) : Char := Char.ofNat (48 + d)

def writeNat (n : Nat) : List Char :=
  if n = 0 then ['0'] else (Nat.digits 10 n).reverse.map digitChar

def writeInt (i : Int) : List Char := if i < 0 then '-' :: writeNat i.natAbs else writeNat i.natAbs

mutual

def write : Value → List Char
  | .null => ['n', 'u', 'l', 'l']
  | .bool true => ['t', 'r', 'u', 'e']
  | .bool false => ['f', 'a', 'l', 's', 'e']
  | .int i => writeInt i
  | .double lexeme => codePoints lexeme
  | .str s => writeText s
  | .arr [] => ['[', ']']
  | .arr (v :: vs) => '[' :: (write v ++ writeItems vs)
  | .obj [] => ['{', '}']
  | .obj ((key, v) :: members) => '{' :: (writeText key ++ (':' :: (write v ++ writeMembers members)))

/-- The items after the first, with the bracket that closes their array. -/
def writeItems : List Value → List Char
  | [] => [']']
  | v :: vs => ',' :: (write v ++ writeItems vs)

def writeMembers : List (Text × Value) → List Char
  | [] => ['}']
  | (key, v) :: members => ',' :: (writeText key ++ (':' :: (write v ++ writeMembers members)))

end

theorem utf16Chars_cons (c : Char) (cs : List Char) : utf16Chars (c :: cs) = utf16Char c ++ utf16Chars cs :=
  rfl

theorem utf16Chars_append (cs ds : List Char) : utf16Chars (cs ++ ds) = utf16Chars cs ++ utf16Chars ds := by
  simp [utf16Chars]

theorem utf16Char_small {c : Char} (small : c.toNat < 0x10000) : utf16Char c = [unit c] := by
  have val : c.val < 0x10000 := UInt32.lt_iff_toNat_lt.mpr small
  rw [utf16Char, if_pos val]
  rfl

theorem toNat_unit {c : Char} (small : c.toNat < 0x10000) : (unit c).toNat = c.toNat := by
  rw [unit, UInt32.toNat_toUInt16]
  exact Nat.mod_eq_of_lt small

namespace Parser

theorem run_trans {p q r : Parser} {first second : Text} (h : first.foldlM step p = some q)
    (then_ : second.foldlM step q = some r) : (first ++ second).foldlM step p = some r := by
  rw [List.foldlM_append, h]
  exact then_

theorem isPlain_of_toNat {c : UInt16} (quote : c.toNat ≠ 34) (escape : c.toNat ≠ 92)
    (printable : 32 ≤ c.toNat) : isPlain c = true := by
  have notQuote : c ≠ unit '"' := fun same => quote (congrArg UInt16.toNat same)
  have notEscape : c ≠ unit '\\' := fun same => escape (congrArg UInt16.toNat same)
  have above : (0x20 : UInt16) ≤ c := UInt16.le_iff_toNat_le.mpr printable
  simp [isPlain, notQuote, notEscape, above]

theorem plain_utf16Char {c : Char} (quote : c ≠ '"') (escape : c ≠ '\\') (printable : ¬c.toNat < 0x20) :
    (utf16Char c).all isPlain = true := by
  have other (d : Char) (different : c ≠ d) : c.toNat ≠ d.toNat := fun same =>
    different (Char.ext (UInt32.toNat_inj.mp same))
  by_cases small : c.toNat < 0x10000
  · rw [utf16Char_small small, List.all_cons, List.all_nil, Bool.and_true]
    refine isPlain_of_toNat ?_ ?_ ?_ <;> rw [toNat_unit small]
    · exact other '"' quote
    · exact other '\\' escape
    · omega
  · have large : ¬c.val < 0x10000 := fun lower => small (UInt32.lt_iff_toNat_lt.mp lower)
    obtain ⟨first, second⟩ := surrogates_toNat large
    unfold utf16Char
    rw [if_neg large, List.all_cons, List.all_cons, List.all_nil, Bool.and_true, Bool.and_eq_true]
    constructor
    · refine isPlain_of_toNat ?_ ?_ ?_ <;> rw [first] <;> omega
    · refine isPlain_of_toNat ?_ ?_ ?_ <;> rw [second] <;> omega

theorem run_control (frames : List Frame) (isKey : Bool) (read : Text) {n : Nat} (h : n < 0x20) :
    (utf16Chars ['\\', 'u', '0', '0', hexChar (n / 16), hexChar (n % 16)]).foldlM step
        ⟨frames, .string isKey read⟩ =
      some ⟨frames, .string isKey (read ++ [UInt16.ofNat n])⟩ := by
  interval_cases n <;> rfl

/-- What the writer makes of a code point is read as its units. -/
theorem run_escapeChar (frames : List Frame) (isKey : Bool) (read : Text) (c : Char) :
    (utf16Chars (escapeChar c)).foldlM step ⟨frames, .string isKey read⟩ =
      some ⟨frames, .string isKey (read ++ utf16Char c)⟩ := by
  unfold escapeChar
  split
  next quote => subst quote; rfl
  next notQuote =>
    split
    next escape => subst escape; rfl
    next notEscape =>
      split
      next control =>
        have same : utf16Char c = [UInt16.ofNat c.toNat] := by
          rw [utf16Char_small (by omega)]
          rfl
        rw [same]
        exact run_control frames isKey read control
      next printable =>
        have single : utf16Chars [c] = utf16Char c := by simp [utf16Chars]
        rw [single]
        exact run_string (plain_utf16Char notQuote notEscape printable)

theorem run_escapeChars (frames : List Frame) (isKey : Bool) (read : Text) (cs : List Char) :
    (utf16Chars (cs.flatMap escapeChar)).foldlM step ⟨frames, .string isKey read⟩ =
      some ⟨frames, .string isKey (read ++ utf16Chars cs)⟩ := by
  induction cs generalizing read with
  | nil => rw [show utf16Chars [] = [] from rfl, List.append_nil]; rfl
  | cons c cs ih =>
    rw [List.flatMap_cons, utf16Chars_append, utf16Chars_cons, ← List.append_assoc]
    exact run_trans (run_escapeChar frames isKey read c) (ih _)

/-- A written text is read back where a string may stand. -/
theorem run_writeText {p : Parser} {isKey : Bool} {s : Text} (native : utf16Chars (codePoints s) = s)
    (opens : p.step (unit '"') = some ⟨p.frames, .string isKey []⟩) :
    (utf16Chars (writeText s)).foldlM step p = endString p.frames isKey s := by
  have parts : utf16Chars (writeText s) =
      unit '"' :: (utf16Chars ((codePoints s).flatMap escapeChar) ++ [unit '"']) := by
    rw [writeText, utf16Chars_cons, utf16Chars_append]
    rfl
  rw [parts, List.foldlM_cons, opens, Option.bind_eq_bind, Option.bind_some, List.foldlM_append,
    run_escapeChars, native]
  simp [step]

theorem run_digits (frames : List Frame) (lexeme : Text) {text : Text} (digits : text.all isDigit = true) :
    text.foldlM step ⟨frames, .number .digits lexeme⟩ =
      some ⟨frames, .number .digits (lexeme ++ text)⟩ := by
  induction text generalizing lexeme with
  | nil => rw [List.append_nil]; rfl
  | cons c text ih =>
    rw [List.all_cons, Bool.and_eq_true] at digits
    have next : NumberPhase.digits.next c = some .digits := if_pos digits.1
    rw [List.foldlM_cons]
    simp only [step, next]
    exact (ih _ digits.2).trans (by simp)

theorem unit_digitChar : ∀ d, d < 10 → isDigit (unit (digitChar d)) = true ∧
    (unit (digitChar d) - unit '0').toNat = d ∧ utf16Char (digitChar d) = [unit (digitChar d)] := by
  intro d h
  interval_cases d <;> exact ⟨rfl, rfl, rfl⟩

theorem units_digits {ds : List Nat} (small : ∀ d ∈ ds, d < 10) :
    utf16Chars (ds.map digitChar) = ds.map fun d => unit (digitChar d) := by
  induction ds with
  | nil => rfl
  | cons d ds ih =>
    rw [List.map_cons, utf16Chars_cons, (unit_digitChar d (small d List.mem_cons_self)).2.2,
      ih fun e he => small e (List.mem_cons_of_mem _ he)]
    rfl

theorem digitsValue_units {ds : List Nat} (small : ∀ d ∈ ds, d < 10) :
    digitsValue (ds.map fun d => unit (digitChar d)) = Nat.ofDigits 10 ds.reverse := by
  induction ds using List.reverseRecOn with
  | nil => rfl
  | append_singleton ds d ih =>
    have earlier := ih fun e he => small e (List.mem_append_left _ he)
    have last := (unit_digitChar d (small d (by simp))).2.1
    rw [List.map_append, List.reverse_append, List.reverse_singleton, List.singleton_append,
      Nat.ofDigits_cons, ← earlier]
    simp only [digitsValue, List.foldl_append, List.map_cons, List.map_nil, List.foldl_cons,
      List.foldl_nil, last]
    omega

/-- The units of a positive number: digits, the first of which is not zero. -/
theorem units_writeNat {n : Nat} (positive : n ≠ 0) : ∃ c rest, utf16Chars (writeNat n) = c :: rest ∧
    isDigit c = true ∧ c ≠ unit '0' ∧ rest.all isDigit = true ∧ digitsValue (c :: rest) = n := by
  have small : ∀ d ∈ (Nat.digits 10 n).reverse, d < 10 := fun d hd =>
    Nat.digits_lt_base (by decide) (List.mem_reverse.mp hd)
  have value : digitsValue ((Nat.digits 10 n).reverse.map fun d => unit (digitChar d)) = n := by
    rw [digitsValue_units small, List.reverse_reverse, Nat.ofDigits_digits]
  have units : utf16Chars (writeNat n) = (Nat.digits 10 n).reverse.map fun d => unit (digitChar d) := by
    rw [writeNat, if_neg positive, units_digits small]
  obtain ⟨d, ds, same, leading⟩ : ∃ d ds, (Nat.digits 10 n).reverse = d :: ds ∧ d ≠ 0 := by
    have filled := Nat.digits_ne_nil_iff_ne_zero (b := 10).mpr positive
    refine ⟨_, (Nat.digits 10 n).dropLast.reverse, ?_, Nat.getLast_digit_ne_zero 10 positive⟩
    conv_lhs => rw [← List.dropLast_append_getLast filled]
    rw [List.reverse_append, List.reverse_singleton, List.singleton_append]
  rw [same] at small value units
  have first := unit_digitChar d (small d List.mem_cons_self)
  refine ⟨_, _, units, first.1, ?_, ?_, value⟩
  · intro zero
    have zeroDigit := first.2.1
    change unit (digitChar d) = unit '0' at zero
    rw [zero] at zeroDigit
    exact leading zeroDigit.symm
  · rw [List.all_map, List.all_eq_true]
    exact fun e he => (unit_digitChar e (small e (List.mem_cons_of_mem _ he))).1

theorem ne_of_isDigit {c d : UInt16} (digit : isDigit c = true)
    (outside : d.toNat < (unit '0').toNat ∨ (unit '9').toNat < d.toNat) : c ≠ d := by
  simp only [isDigit, Bool.and_eq_true, decide_eq_true_eq, UInt16.le_iff_toNat_le] at digit
  rintro rfl
  omega

theorem startValue_digit {frames : List Frame} {c : UInt16} (digit : isDigit c = true) (nonzero : c ≠ unit '0') :
    startValue frames c = some ⟨frames, .number .digits [c]⟩ := by
  unfold startValue
  rw [if_neg (ne_of_isDigit digit (by decide)), if_neg (ne_of_isDigit digit (by decide)),
    if_neg (ne_of_isDigit digit (by decide)), if_neg (ne_of_isDigit digit (by decide)), if_neg nonzero,
    if_pos digit]

theorem isSpace_digit {c : UInt16} (digit : isDigit c = true) : isSpace c = false := by
  have space := ne_of_isDigit digit (d := unit ' ') (by decide)
  have tab := ne_of_isDigit digit (d := unit '\t') (by decide)
  have line := ne_of_isDigit digit (d := unit '\n') (by decide)
  have back := ne_of_isDigit digit (d := unit '\r') (by decide)
  simp [isSpace, space, tab, line, back]

theorem numberValue_digits {lexeme : Text} {i : Int} (low : -2 ^ 63 ≤ i) (high : i < 2 ^ 63)
    (value : (if lexeme.head? = some (unit '-') then -(digitsValue lexeme.tail : Int)
      else digitsValue lexeme) = i) : numberValue .digits lexeme = .int i := by
  simp only [numberValue, value]
  rw [if_pos ⟨Or.inr trivial, low, high⟩]

theorem sign_digit {c : UInt16} (digit : isDigit c = true) (nonzero : c ≠ unit '0') :
    NumberPhase.sign.next c = some .digits := by
  simp only [NumberPhase.next, if_neg nonzero, if_pos digit]

/-- A written number is read as far as its last digit. -/
theorem run_writeInt (frames : List Frame) {i : Int} (native : (Value.int i).IsNative) :
    ∃ c rest phase, utf16Chars (writeInt i) = c :: rest ∧ isSpace c = false ∧ c ≠ unit ']' ∧
      (startValue frames c).bind (fun p => rest.foldlM step p) =
        some ⟨frames, .number phase (c :: rest)⟩ ∧
      phase.isFinal = true ∧ numberValue phase (c :: rest) = .int i := by
  obtain ⟨low, high⟩ : -2 ^ 63 ≤ i ∧ i < 2 ^ 63 := native
  unfold writeInt
  split
  next negative =>
    obtain ⟨c, rest, units, digit, nonzero, digits, value⟩ := units_writeNat (n := i.natAbs) (by omega)
    refine ⟨unit '-', c :: rest, .digits, ?_, rfl, by decide, ?_, rfl, ?_⟩
    · rw [utf16Chars_cons, units]
      rfl
    · have start : startValue frames (unit '-') = some ⟨frames, .number .sign [unit '-']⟩ := rfl
      rw [start, Option.bind_some, List.foldlM_cons]
      simp only [step, sign_digit digit nonzero]
      exact (run_digits frames _ digits).trans rfl
    · refine numberValue_digits low high ?_
      rw [List.head?_cons, if_pos rfl, List.tail_cons, value]
      omega
  next positive =>
    by_cases zero : i.natAbs = 0
    · have none_ : i = 0 := by omega
      subst none_
      exact ⟨unit '0', [], .zero, rfl, rfl, by decide, rfl, rfl, rfl⟩
    · obtain ⟨c, rest, units, digit, nonzero, digits, value⟩ := units_writeNat zero
      refine ⟨c, rest, .digits, units, ?_, ?_, ?_, rfl, ?_⟩
      · exact isSpace_digit digit
      · exact ne_of_isDigit digit (by decide)
      · rw [startValue_digit digit nonzero, Option.bind_some]
        exact run_digits frames _ digits
      · have notSign : some c ≠ some (unit '-') := fun same =>
          ne_of_isDigit digit (d := unit '-') (by decide) (Option.some.inj same)
        refine numberValue_digits low high ?_
        rw [List.head?_cons, if_neg notSign, value]
        omega

/-- The value has been read, except that a number may still go on. -/
def Ends (frames : List Frame) (v : Value) (p : Parser) : Prop :=
  complete frames v = some p ∨ ∃ phase lexeme, p = ⟨frames, .number phase lexeme⟩ ∧
    phase.isFinal = true ∧ numberValue phase lexeme = v

theorem Ends.step_eq {frames : List Frame} {v : Value} {p : Parser} {c : UInt16} (h : Ends frames v p)
    (separator : c = unit ',' ∨ c = unit ']' ∨ c = unit '\x7d') :
    p.step c = (complete frames v).bind fun q => q.afterValue c := by
  rcases h with ended | ⟨phase, lexeme, rfl, final, value⟩
  · rw [ended, Option.bind_some]
    rcases mode_complete ended with same | ⟨w, same⟩ <;> simp only [step, same]
  · have stops : phase.next c = none := by
      rcases separator with rfl | rfl | rfl <;> cases phase <;> rfl
    simp only [step, stops, final, if_true, value]

theorem Ends.finish_eq {v : Value} {p : Parser} (h : Ends [] v p) : p.finish = some v := by
  rcases h with ended | ⟨phase, lexeme, rfl, final, value⟩
  · cases Option.some.inj ended
    rfl
  · simp [finish, final, value]

/-- The value can stand here: no key is wanted. -/
def TakesValue (frames : List Frame) : Prop := ∀ members rest, frames ≠ .obj members :: rest

theorem complete_of_takesValue {frames : List Frame} (takes : TakesValue frames) (v : Value) :
    ∃ p, complete frames v = some p := by
  cases frames with
  | nil => exact ⟨_, rfl⟩
  | cons frame rest =>
    cases frame with
    | arr | member => exact ⟨_, rfl⟩
    | obj members => exact absurd rfl (takes members rest)

/-- The units are read as the value, from where a value may begin. -/
def ReadsValue (units : Text) (v : Value) : Prop :=
  ∃ c rest, units = c :: rest ∧ isSpace c = false ∧ c ≠ unit ']' ∧
    ∀ frames, TakesValue frames → ∃ p,
      (startValue frames c).bind (fun q => rest.foldlM step q) = some p ∧ Ends frames v p

theorem ReadsValue.run {units : Text} {v : Value} (h : ReadsValue units v) {frames : List Frame}
    (takes : TakesValue frames) {mode : Mode} (at_ : mode = .value ∨ mode = .firstItem) :
    ∃ p, units.foldlM step ⟨frames, mode⟩ = some p ∧ Ends frames v p := by
  obtain ⟨c, rest, rfl, space, bracket, reads⟩ := h
  obtain ⟨p, run, ended⟩ := reads frames takes
  refine ⟨p, ?_, ended⟩
  have started : step ⟨frames, mode⟩ c = startValue frames c := by
    rcases at_ with rfl | rfl <;> simp [step, space, bracket]
  rw [List.foldlM_cons, started]
  exact run

/-- A value that ends with its last unit. -/
theorem readsValue_complete {c : UInt16} {rest : Text} {v : Value} (space : isSpace c = false)
    (bracket : c ≠ unit ']')
    (run : ∀ frames, (startValue frames c).bind (fun q => rest.foldlM step q) = (complete frames v).bind pure) :
    ReadsValue (c :: rest) v := by
  refine ⟨c, rest, rfl, space, bracket, fun frames takes => ?_⟩
  obtain ⟨p, completed⟩ := complete_of_takesValue takes v
  refine ⟨p, ?_, Or.inl completed⟩
  rw [run, completed]
  rfl

theorem readsValue_text {s : Text} (native : utf16Chars (codePoints s) = s) :
    ReadsValue (utf16Chars (writeText s)) (.str s) := by
  refine ⟨unit '"', utf16Chars ((codePoints s).flatMap escapeChar ++ ['"']), rfl, rfl, by decide, ?_⟩
  intro frames takes
  obtain ⟨p, completed⟩ := complete_of_takesValue takes (.str s)
  refine ⟨p, ?_, Or.inl completed⟩
  have opens : Parser.step ⟨frames, .value⟩ (unit '"') = some ⟨frames, .string false []⟩ := rfl
  have read := run_writeText native opens
  rw [writeText, utf16Chars_cons] at read
  exact read.trans completed

theorem takesValue_arr (items : List Value) (frames : List Frame) : TakesValue (.arr items :: frames) := by
  intro members rest same
  cases same

theorem takesValue_member (members : Members) (key : Text) (frames : List Frame) :
    TakesValue (.member members key :: frames) := by
  intro other rest same
  cases same

/-- A written key and its colon lead to the value. -/
theorem run_writeKey {members : Members} {frames : List Frame} {mode : Mode} {key : Text} {cs : List Char}
    (native : utf16Chars (codePoints key) = key) (at_ : mode = .firstKey ∨ mode = .key) :
    (utf16Chars (writeText key ++ (':' :: cs))).foldlM step ⟨.obj members :: frames, mode⟩ =
      (utf16Chars cs).foldlM step ⟨.member members key :: frames, .value⟩ := by
  have opens : step ⟨.obj members :: frames, mode⟩ (unit '"') =
      some ⟨.obj members :: frames, .string true []⟩ := by
    rcases at_ with rfl | rfl <;> rfl
  have named := run_writeText native opens
  rw [utf16Chars_append, List.foldlM_append, named]
  rfl

mutual

/-- A written value is read back, wherever one may stand. -/
theorem readsValue_write (v : Value) (native : v.IsNative) : ReadsValue (utf16Chars (write v)) v := by
  cases v with
  | null => exact readsValue_complete (c := unit 'n') rfl (by decide) fun frames => rfl
  | bool b =>
    cases b with
    | true => exact readsValue_complete (c := unit 't') rfl (by decide) fun frames => rfl
    | false => exact readsValue_complete (c := unit 'f') rfl (by decide) fun frames => rfl
  | int i =>
    obtain ⟨c, rest, _, units, space, bracket, _⟩ := run_writeInt [] native
    refine ⟨c, rest, units, space, bracket, fun frames _ => ?_⟩
    obtain ⟨c', rest', phase, units', _, _, run, final, value⟩ := run_writeInt frames native
    obtain ⟨rfl, rfl⟩ := List.cons.inj (units.symm.trans units')
    exact ⟨_, run, Or.inr ⟨phase, c :: rest, rfl, final, value⟩⟩
  | double => exact False.elim native
  | str s => exact readsValue_text native
  | arr items =>
    cases items with
    | nil => exact readsValue_complete (c := unit '[') rfl (by decide) fun frames => rfl
    | cons v vs =>
      obtain ⟨first, others⟩ : v.IsNative ∧ AllNative vs := native
      refine ⟨unit '[', utf16Chars (write v ++ writeItems vs), rfl, rfl, by decide, fun frames takes => ?_⟩
      obtain ⟨p, run, ended⟩ := (readsValue_write v first).run (takesValue_arr [] frames) (Or.inr rfl)
      obtain ⟨q, completed⟩ := complete_of_takesValue takes (.arr (v :: vs))
      refine ⟨q, ?_, Or.inl completed⟩
      rw [utf16Chars_append]
      exact run_trans run ((run_writeItems vs others ended).trans completed)
  | obj members =>
    cases members with
    | nil => exact readsValue_complete (c := unit '\x7b') rfl (by decide) fun frames => rfl
    | cons member members =>
      obtain ⟨key, v⟩ := member
      obtain ⟨name, first, others⟩ : utf16Chars (codePoints key) = key ∧ v.IsNative ∧ MembersNative members :=
        native
      refine ⟨unit '\x7b', utf16Chars (writeText key ++ (':' :: (write v ++ writeMembers members))), rfl, rfl,
        by decide, fun frames takes => ?_⟩
      obtain ⟨p, run, ended⟩ := (readsValue_write v first).run (takesValue_member [] key frames) (Or.inl rfl)
      obtain ⟨q, completed⟩ := complete_of_takesValue takes (.obj ((key, v) :: members))
      refine ⟨q, ?_, Or.inl completed⟩
      have opened : startValue frames (unit '\x7b') = some ⟨.obj [] :: frames, .firstKey⟩ := rfl
      rw [opened, Option.bind_some, run_writeKey name (Or.inl rfl), utf16Chars_append]
      exact run_trans run ((run_writeMembers members others ended).trans completed)

theorem run_writeItems (vs : List Value) (native : AllNative vs) {frames : List Frame} {items : List Value}
    {v : Value} {p : Parser} (ended : Ends (.arr items :: frames) v p) :
    (utf16Chars (writeItems vs)).foldlM step p = complete frames (.arr (items ++ v :: vs)) := by
  cases vs with
  | nil =>
    change ([unit ']'] : Text).foldlM step p = _
    rw [List.foldlM_cons, ended.step_eq (Or.inr (Or.inl rfl))]
    exact Option.bind_fun_some _
  | cons w ws =>
    obtain ⟨first, others⟩ : w.IsNative ∧ AllNative ws := native
    obtain ⟨q, run, endedNext⟩ := (readsValue_write w first).run (takesValue_arr (items ++ [v]) frames) (Or.inl rfl)
    have comma : p.step (unit ',') = some ⟨.arr (items ++ [v]) :: frames, .value⟩ :=
      ended.step_eq (Or.inl rfl)
    have rest := run_writeItems ws others endedNext
    rw [List.append_assoc, List.singleton_append] at rest
    change (unit ',' :: utf16Chars (write w ++ writeItems ws)).foldlM step p = _
    rw [List.foldlM_cons, comma, utf16Chars_append, ← rest]
    exact (List.foldlM_append ..).trans (by rw [run]; rfl)

theorem run_writeMembers (ms : List (Text × Value)) (native : MembersNative ms) {frames : List Frame}
    {members : Members} {key : Text} {v : Value} {p : Parser} (ended : Ends (.member members key :: frames) v p) :
    (utf16Chars (writeMembers ms)).foldlM step p = complete frames (.obj (members ++ (key, v) :: ms)) := by
  cases ms with
  | nil =>
    change ([unit '\x7d'] : Text).foldlM step p = _
    rw [List.foldlM_cons, ended.step_eq (Or.inr (Or.inr rfl))]
    exact Option.bind_fun_some _
  | cons m ms =>
    obtain ⟨name, w⟩ := m
    obtain ⟨named, first, others⟩ : utf16Chars (codePoints name) = name ∧ w.IsNative ∧ MembersNative ms :=
      native
    obtain ⟨q, run, endedNext⟩ :=
      (readsValue_write w first).run (takesValue_member (members ++ [(key, v)]) name frames) (Or.inl rfl)
    have comma : p.step (unit ',') = some ⟨.obj (members ++ [(key, v)]) :: frames, .key⟩ :=
      ended.step_eq (Or.inl rfl)
    have rest := run_writeMembers ms others endedNext
    rw [List.append_assoc, List.singleton_append] at rest
    change (unit ',' :: utf16Chars (writeText name ++ (':' :: (write w ++ writeMembers ms)))).foldlM step p = _
    rw [List.foldlM_cons, comma, ← rest]
    refine (run_writeKey named (Or.inr rfl)).trans ?_
    rw [utf16Chars_append, List.foldlM_append, run]
    rfl

end

end Parser

/-- The writer and the parser agree. -/
theorem decode_write {v : Value} (native : v.IsNative) : decode (utf16Chars (write v)) = some v := by
  have takes : Parser.TakesValue [] := by
    intro members rest same
    cases same
  obtain ⟨p, run, ended⟩ := (Parser.readsValue_write v native).run takes (Or.inl rfl)
  rw [decode, run]
  exact ended.finish_eq

end Json
