import PwDart.JsonValue

namespace Json

def unit (c : Char) : UInt16 := c.val.toUInt16

def isSpace (c : UInt16) : Bool :=
  c = unit ' ' || c = unit '\t' || c = unit '\n' || c = unit '\r'

def isDigit (c : UInt16) : Bool := unit '0' ≤ c && c ≤ unit '9'

def hexDigit (c : UInt16) : Option UInt16 :=
  if isDigit c then some (c - unit '0')
  else if unit 'a' ≤ c && c ≤ unit 'f' then some (c - unit 'a' + 10)
  else if unit 'A' ≤ c && c ≤ unit 'F' then some (c - unit 'A' + 10)
  else none

/-- What a backslash and this unit stand for, `u` apart. -/
def unescape (c : UInt16) : Option UInt16 :=
  if c = unit '"' || c = unit '\\' || c = unit '/' then some c
  else if c = unit 'b' then some 0x08
  else if c = unit 'f' then some 0x0C
  else if c = unit 'n' then some 0x0A
  else if c = unit 'r' then some 0x0D
  else if c = unit 't' then some 0x09
  else none

/-- How much of a number has been read. -/
inductive NumberPhase
  | sign | zero | digits | point | fraction | exponent | exponentSign | exponentDigits
deriving DecidableEq

def NumberPhase.next (phase : NumberPhase) (c : UInt16) : Option NumberPhase :=
  match phase with
  | sign => if c = unit '0' then some zero else if isDigit c then some digits else none
  | zero =>
    if c = unit '.' then some point
    else if c = unit 'e' || c = unit 'E' then some exponent else none
  | digits =>
    if isDigit c then some digits
    else if c = unit '.' then some point
    else if c = unit 'e' || c = unit 'E' then some exponent else none
  | point => if isDigit c then some fraction else none
  | fraction =>
    if isDigit c then some fraction
    else if c = unit 'e' || c = unit 'E' then some exponent else none
  | exponent =>
    if isDigit c then some exponentDigits
    else if c = unit '+' || c = unit '-' then some exponentSign else none
  | exponentSign | exponentDigits => if isDigit c then some exponentDigits else none

def NumberPhase.isFinal : NumberPhase → Bool
  | zero | digits | fraction | exponentDigits => true
  | sign | point | exponent | exponentSign => false

def digitsValue (lexeme : Text) : Nat :=
  lexeme.foldl (fun n c => 10 * n + (c - unit '0').toNat) 0

def numberValue (phase : NumberPhase) (lexeme : Text) : Value :=
  let n : Int :=
    if lexeme.head? = some (unit '-') then -digitsValue lexeme.tail else digitsValue lexeme
  if (phase = .zero ∨ phase = .digits) ∧ -2 ^ 63 ≤ n ∧ n < 2 ^ 63 then .int n else .double lexeme

inductive Literal
  | true | false | null

def Literal.text : Literal → Text
  | true => utf16 "true"
  | false => utf16 "false"
  | null => utf16 "null"

def Literal.value : Literal → Value
  | true => .bool .true
  | false => .bool .false
  | null => .null

/-- An array or object that has been opened, with what it holds so far; `member` is an object that
waits for the value of a key. -/
inductive Frame
  | arr (items : List Value)
  | obj (members : Members)
  | member (members : Members) (key : Text)

inductive Mode
  | value
  | firstItem
  | firstKey
  | key
  | colon
  | after
  | string (isKey : Bool) (read : Text)
  | escape (isKey : Bool) (read : Text)
  | unicode (isKey : Bool) (read : Text) (missing : Nat) (code : UInt16)
  | number (phase : NumberPhase) (lexeme : Text)
  | literal (literal : Literal) (read : Nat)
  | done (value : Value)

/-- The parser between two units of the text. -/
structure Parser where
  frames : List Frame := []
  mode : Mode := .value

namespace Parser

/-- A value has ended: it goes to what is open around it. -/
def complete (frames : List Frame) (v : Value) : Option Parser :=
  match frames with
  | [] => some ⟨[], .done v⟩
  | .arr items :: rest => some ⟨.arr (items ++ [v]) :: rest, .after⟩
  | .member members key :: rest => some ⟨.obj (members ++ [(key, v)]) :: rest, .after⟩
  | .obj _ :: _ => none

def endString (frames : List Frame) (isKey : Bool) (read : Text) : Option Parser :=
  if isKey then
    match frames with
    | .obj members :: rest => some ⟨.member members read :: rest, .colon⟩
    | _ => none
  else complete frames (.str read)

def startValue (frames : List Frame) (c : UInt16) : Option Parser :=
  if c = unit '"' then some ⟨frames, .string false []⟩
  else if c = unit '[' then some ⟨.arr [] :: frames, .firstItem⟩
  else if c = unit '{' then some ⟨.obj [] :: frames, .firstKey⟩
  else if c = unit '-' then some ⟨frames, .number .sign [c]⟩
  else if c = unit '0' then some ⟨frames, .number .zero [c]⟩
  else if isDigit c then some ⟨frames, .number .digits [c]⟩
  else if c = unit 't' then some ⟨frames, .literal .true 1⟩
  else if c = unit 'f' then some ⟨frames, .literal .false 1⟩
  else if c = unit 'n' then some ⟨frames, .literal .null 1⟩
  else none

def closeArray : List Frame → Option Parser
  | .arr items :: rest => complete rest (.arr items)
  | _ => none

def closeObject : List Frame → Option Parser
  | .obj members :: rest => complete rest (.obj members)
  | _ => none

def afterValue (p : Parser) (c : UInt16) : Option Parser :=
  if isSpace c then some p
  else if c = unit ',' then
    match p.frames with
    | .arr _ :: _ => some ⟨p.frames, .value⟩
    | .obj _ :: _ => some ⟨p.frames, .key⟩
    | _ => none
  else if c = unit ']' then closeArray p.frames
  else if c = unit '}' then closeObject p.frames
  else none

def step (p : Parser) (c : UInt16) : Option Parser :=
  match p.mode with
  | .value => if isSpace c then some p else startValue p.frames c
  | .firstItem =>
    if isSpace c then some p
    else if c = unit ']' then closeArray p.frames
    else startValue p.frames c
  | .firstKey =>
    if isSpace c then some p
    else if c = unit '}' then closeObject p.frames
    else if c = unit '"' then some ⟨p.frames, .string true []⟩
    else none
  | .key =>
    if isSpace c then some p
    else if c = unit '"' then some ⟨p.frames, .string true []⟩
    else none
  | .colon =>
    if isSpace c then some p
    else if c = unit ':' then some ⟨p.frames, .value⟩
    else none
  | .after | .done _ => p.afterValue c
  | .string isKey read =>
    if c = unit '"' then endString p.frames isKey read
    else if c = unit '\\' then some ⟨p.frames, .escape isKey read⟩
    else if c < 0x20 then none
    else some ⟨p.frames, .string isKey (read ++ [c])⟩
  | .escape isKey read =>
    if c = unit 'u' then some ⟨p.frames, .unicode isKey read 3 0⟩
    else (unescape c).map fun d => ⟨p.frames, .string isKey (read ++ [d])⟩
  | .unicode isKey read missing code =>
    (hexDigit c).map fun d =>
      match missing with
      | 0 => ⟨p.frames, .string isKey (read ++ [16 * code + d])⟩
      | missing + 1 => ⟨p.frames, .unicode isKey read missing (16 * code + d)⟩
  | .number phase lexeme =>
    match phase.next c with
    | some phase => some ⟨p.frames, .number phase (lexeme ++ [c])⟩
    | none =>
      if phase.isFinal then
        (complete p.frames (numberValue phase lexeme)).bind fun q => q.afterValue c
      else none
  | .literal literal read =>
    if literal.text[read]? = some c then
      if read + 1 = literal.text.length then complete p.frames literal.value
      else some ⟨p.frames, .literal literal (read + 1)⟩
    else none

/-- The end of the text, which also ends a number. -/
def finish (p : Parser) : Option Value :=
  match p.mode with
  | .done v => some v
  | .number phase lexeme =>
    if p.frames.isEmpty && phase.isFinal then some (numberValue phase lexeme) else none
  | _ => none

end Parser

/-- The value of a JSON text, if it is well formed. -/
def decode (text : Text) : Option Value :=
  (text.foldlM Parser.step {}).bind Parser.finish

example : decode (utf16 "[-12, \x7b\"a\": \"\\u0062\"\x7d]") =
    some (.arr [.int (-12), .obj [(utf16 "a", .str (utf16 "b"))]]) := rfl

example : decode (utf16 "[true,]") = none := rfl

end Json
