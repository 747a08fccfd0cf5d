import PwDart.NativeRecords

namespace PwDart

/-- One entry of a `spa_dict`; either pointer may be null. -/
structure SpaDictItem where
  key : Option String
  value : Option String
deriving DecidableEq

abbrev SpaDict : Type := List SpaDictItem

/-- `spa_dict_lookup` on an unsorted dict: the value of the first item with that key. -/
def spaDictLookup (dict : SpaDict) (key : String) : Option String :=
  (dict.find? fun item => item.key == some key).bind SpaDictItem.value

def dictGet (dict : Option SpaDict) (key : String) : String :=
  match dict with
  | none => ""
  | some d => (spaDictLookup d key).getD ""

/-- The loop body of `dict_to_map`: an item with both pointers set overwrites its key. -/
def dictToMapStep (result : StringMap) (item : SpaDictItem) : StringMap :=
  match item.key, item.value with
  | some key, some value => result.insert key value
  | _, _ => result

def dictToMap (dict : Option SpaDict) : StringMap :=
  match dict with
  | none => ∅
  | some d => d.foldl dictToMapStep ∅

/-- A computation that may throw returns if each of its steps does. -/
theorem bind_eq_ok_iff {ε α β : Type} {x : Except ε α} {f : α → Except ε β} {b : β} :
    (x >>= f) = .ok b ↔ ∃ a, x = .ok a ∧ f a = .ok b := by
  cases x with
  | error e =>
    refine iff_of_false nofun ?_
    rintro ⟨_, failed, _⟩
    cases failed
  | ok a =>
    constructor
    · exact fun h => ⟨a, rfl, h⟩
    · rintro ⟨_, same, h⟩
      cases same
      exact h

/-- What `std::stoul` throws. -/
inductive StdException
  | invalidArgument
  | outOfRange
deriving DecidableEq

def isSpace (c : Char) : Bool :=
  c = ' ' || c = '\t' || c = '\n' || c = '\x0b' || c = '\x0c' || c = '\r'

def decimalValue (digits : List Char) : Nat :=
  digits.foldl (fun v c => 10 * v + (c.toNat - '0'.toNat)) 0

/-- `std::stoul` in base ten with a 64-bit `unsigned long`: leading white space and one sign are
skipped, the longest run of digits is read, what follows it is ignored, and a minus sign negates
modulo 2^64. -/
def stoul (str : String) : Except StdException Nat :=
  let chars := str.toList.dropWhile isSpace
  let negative := chars.head? = some '-'
  let digits := (if negative ∨ chars.head? = some '+' then chars.tail else chars).takeWhile Char.isDigit
  if digits = [] then .error .invalidArgument
  else if 2 ^ 64 ≤ decimalValue digits then .error .outOfRange
  else if negative then .ok ((2 ^ 64 - decimalValue digits) % 2 ^ 64)
  else .ok (decimalValue digits)

/-- `str.empty() ? 0 : static_cast<uint32_t>(std::stoul(str))`. -/
def idOfProp (str : String) : Except StdException UInt32 :=
  if str.isEmpty then .ok 0 else (stoul str).map UInt32.ofNat

example : idOfProp " +42x" = .ok 42 := by decide

example : idOfProp "x42" = .error .invalidArgument := by decide

end PwDart
