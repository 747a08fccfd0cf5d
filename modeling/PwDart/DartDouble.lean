import PwDart.JsonDecode

namespace Json

/-- `significand * 10 ^ exponent`. -/
structure Decimal where
  significand : Nat
  exponent : Int

/-- A number without its sign, as it is written in JSON. -/
def readDecimal (lexeme : Text) : Decimal :=
  let (mantissa, scale) := lexeme.span fun c => c ≠ unit 'e' ∧ c ≠ unit 'E'
  let (whole, fraction) := mantissa.span fun c => c ≠ unit '.'
  let shift : Int :=
    match scale.tail with
    | [] => 0
    | c :: rest =>
      if c = unit '-' then -digitsValue rest else if c = unit '+' then digitsValue rest else digitsValue (c :: rest)
  ⟨digitsValue (whole ++ fraction.tail), shift - fraction.tail.length⟩

def decimalLength (n : Nat) : Nat := (Nat.toDigits 10 n).length

/-- `n / d` rounded to an integer, a half to the even one. -/
def roundHalfEven (n d : Nat) : Nat :=
  if 2 * (n % d) < d ∨ (2 * (n % d) = d ∧ n / d % 2 = 0) then n / d else n / d + 1

/-- The numerator and the denominator of `n / d * base ^ e`. -/
def scaled (base n d : Nat) (e : Int) : Nat × Nat := (n * base ^ e.toNat, d * base ^ (-e).toNat)

/-- A positive IEEE 754 double, `significand * 2 ^ exponent`. -/
structure Double where
  significand : Nat
  exponent : Int
deriving DecidableEq

/-- The double nearest to `n / d`; its exponent may be too large for a finite one. -/
def nearestDouble (n d : Nat) : Double :=
  let guess : Int := (Nat.log2 n : Int) - Nat.log2 d - 52
  let (n', d') := scaled 2 n d (-guess)
  let exponent := max (if n' < 2 ^ 52 * d' then guess - 1 else guess) (-1074)
  let (n', d') := scaled 2 n d (-exponent)
  let significand := roundHalfEven n' d'
  if significand = 2 ^ 53 then ⟨2 ^ 52, exponent + 1⟩ else ⟨significand, exponent⟩

def Double.isFinite (x : Double) : Bool := x.exponent ≤ 971

/-- The multiple of `10 ^ e` nearest to the double that reads back as it. -/
def Double.approximate (x : Double) (e : Int) : Option Decimal :=
  let (n, d) := scaled 2 x.significand 1 x.exponent
  let (n', d') := scaled 10 n d (-e)
  let candidates := if 2 * (n' % d') ≤ d' then [n' / d', n' / d' + 1] else [n' / d' + 1, n' / d']
  let reads (significand : Nat) : Bool :=
    let (a, b) := scaled 10 significand 1 e
    nearestDouble a b = x
  (candidates.find? reads).map fun significand => ⟨significand, e⟩

/-- The shortest decimal that reads back as the double, of at most 17 digits. -/
def Double.shortest (x : Double) : Decimal :=
  let (n, d) := scaled 2 x.significand 1 x.exponent
  let guess : Int := (decimalLength n : Int) - decimalLength d
  let (n', d') := scaled 10 n d (-guess)
  let top := if n' < d' then guess - 1 else guess
  ((List.range 17).findSome? fun digits => x.approximate (top - digits)).getD ⟨0, 0⟩

/-- The digits without the zeros at their end, and where the decimal point stands before or after them. -/
def Decimal.plain (x : Decimal) : List Char × Int :=
  let digits := Nat.toDigits 10 x.significand
  ((digits.reverse.dropWhile fun c => c = '0').reverse, digits.length + x.exponent)

def zeros (n : Nat) : List Char := List.replicate n '0'

/-- As Dart shows a number: in exponential notation below 1e-6 and from 1e21 on. -/
def showDecimal (digits : List Char) (point : Int) : List Char :=
  if -6 < point ∧ point ≤ 21 then
    if point ≤ 0 then ['0', '.'] ++ zeros (-point).toNat ++ digits
    else if digits.length ≤ point then digits ++ zeros (point.toNat - digits.length) ++ ['.', '0']
    else digits.take point.toNat ++ ['.'] ++ digits.drop point.toNat
  else
    digits.take 1 ++ (if digits.length = 1 then [] else '.' :: digits.drop 1) ++
      ['e', if 0 < point then '+' else '-'] ++ Nat.toDigits 10 (point - 1).natAbs

/-- A number without its sign. Exponents far out of range are not computed with. -/
def showPositive (x : Decimal) : List Char :=
  let magnitude := decimalLength x.significand + x.exponent
  if x.significand = 0 ∨ magnitude < -330 then ['0', '.', '0']
  else if 330 < magnitude then "Infinity".toList
  else
    let (n, d) := scaled 10 x.significand 1 x.exponent
    let nearest := nearestDouble n d
    if nearest.significand = 0 then ['0', '.', '0']
    else if nearest.isFinite then
      let (digits, point) := nearest.shortest.plain
      showDecimal digits point
    else "Infinity".toList

/-- `toString` of the double that `jsonDecode` makes of a number. -/
def doubleText (lexeme : Text) : Text :=
  if lexeme.head? = some (unit '-') then utf16Chars ('-' :: showPositive (readDecimal lexeme.tail))
  else utf16Chars (showPositive (readDecimal lexeme))

end Json
