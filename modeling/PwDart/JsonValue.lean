import PwDart.Utf16

namespace Json

/-- The values a JSON text denotes. Members stand in the order of the text, duplicates included.
A number is an `int` when it is written without fraction and exponent and fits 64 bits; any other
is a `double`, kept as the text it was written with. -/
inductive Value
  | null
  | bool (b : Bool)
  | int (i : Int)
  | double (lexeme : Text)
  | str (s : Text)
  | arr (items : List Value)
  | obj (members : List (Text × Value))

abbrev Members : Type := List (Text × Value)

/-- `json[name]`: the last member of that name, null if there is none. -/
def Members.get (members : Members) (name : String) : Value :=
  members.foldl (fun found member => if member.1 = utf16 name then member.2 else found) .null

end Json
