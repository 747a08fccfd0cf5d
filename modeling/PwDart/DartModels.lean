import PwDart.DartDouble
import PwDart.LinkedMap

namespace PwDart

open Json

/-- The exceptions the decoders raise: `jsonDecode` on ill-formed text, an `as` cast that fails. -/
inductive DartError
  | formatException
  | typeError
deriving DecidableEq

abbrev DartResult (α : Type) : Type := Except DartError α

/-- `value as int`. -/
def asInt : Value → DartResult Int
  | .int i => .ok i
  | _ => .error .typeError

/-- `value as String`. -/
def asString : Value → DartResult Text
  | .str s => .ok s
  | _ => .error .typeError

/-- `(value as String?) ?? orElse`. -/
def asStringOr (orElse : String) : Value → DartResult Text
  | .str s => .ok s
  | .null => .ok (utf16 orElse)
  | _ => .error .typeError

/-- `(value as bool?) ?? orElse`. -/
def asBoolOr (orElse : Bool) : Value → DartResult Bool
  | .bool b => .ok b
  | .null => .ok orElse
  | _ => .error .typeError

/-- `value as Map<String, dynamic>`. -/
def asMembers : Value → DartResult Members
  | .obj members => .ok members
  | _ => .error .typeError

/-- `value as List<dynamic>`. -/
def asItems : Value → DartResult (List Value)
  | .arr items => .ok items
  | _ => .error .typeError

def joinTexts (separator : Text) : List Text → Text
  | [] => []
  | [t] => t
  | t :: ts => t ++ separator ++ joinTexts separator ts

mutual

/-- `value.toString()`. A map shows each of its keys once. -/
def toDartText : Value → Text
  | .null => utf16 "null"
  | .bool b => utf16 (if b then "true" else "false")
  | .int i => utf16 (toString i)
  | .double lexeme => doubleText lexeme
  | .str s => s
  | .arr items => utf16 "[" ++ joinTexts (utf16 ", ") (toDartTexts items) ++ utf16 "]"
  | .obj members =>
    let shown := (LinkedMap.ofEntries (toDartEntries members)).entries.map fun e => e.1 ++ utf16 ": " ++ e.2
    utf16 "\x7b" ++ joinTexts (utf16 ", ") shown ++ utf16 "\x7d"

def toDartTexts : List Value → List Text
  | [] => []
  | v :: vs => toDartText v :: toDartTexts vs

def toDartEntries : List (Text × Value) → List (Text × Text)
  | [] => []
  | (k, v) :: ms => (k, toDartText v) :: toDartEntries ms

end

/-- `Map<String, String>`. -/
abbrev TextMap : Type := LinkedMap Text Text

/-- `(value as Map?)?.map((k, v) => MapEntry(k.toString(), v.toString())) ?? const {}`. -/
def asProperties : Value → DartResult TextMap
  | .obj members => .ok (LinkedMap.ofEntries (members.map fun m => (m.1, toDartText m.2)))
  | .null => .ok ∅
  | _ => .error .typeError

inductive PwNodeState
  | error | creating | suspended | idle | running
deriving DecidableEq

def PwNodeState.fromString (s : Text) : PwNodeState :=
  if s = utf16 "error" then error
  else if s = utf16 "creating" then creating
  else if s = utf16 "suspended" then suspended
  else if s = utf16 "idle" then idle
  else if s = utf16 "running" then running
  else error

inductive PwDirection
  | input | output
deriving DecidableEq

def PwDirection.fromString (s : Text) : PwDirection :=
  if s = utf16 "input" ∨ s = utf16 "in" then input
  else if s = utf16 "output" ∨ s = utf16 "out" then output
  else input

inductive PwLinkState
  | error | unlinked | init | negotiating | allocating | paused | active
deriving DecidableEq

def PwLinkState.fromString (s : Text) : PwLinkState :=
  if s = utf16 "error" then error
  else if s = utf16 "unlinked" then unlinked
  else if s = utf16 "init" then init
  else if s = utf16 "negotiating" then negotiating
  else if s = utf16 "allocating" then allocating
  else if s = utf16 "paused" then paused
  else if s = utf16 "active" then active
  else error

structure PwNode where
  id : Int
  name : Text
  mediaClass : Text
  state : PwNodeState
  properties : TextMap
deriving DecidableEq

structure PwPort where
  id : Int
  nodeId : Int
  name : Text
  direction : PwDirection
  mediaType : Text
  isPhysical : Bool
  isTerminal : Bool
  aliasName : Text
  properties : TextMap
deriving DecidableEq

structure PwLink where
  id : Int
  outputNodeId : Int
  outputPortId : Int
  inputNodeId : Int
  inputPortId : Int
  state : PwLinkState
  error : Text
  properties : TextMap
deriving DecidableEq

structure PwDevice where
  id : Int
  name : Text
  description : Text
  mediaClass : Text
  api : Text
  properties : TextMap
deriving DecidableEq

def PwNode.fromJson (json : Members) : DartResult PwNode := do
  let id ← asInt (json.get "id")
  let name ← asStringOr "" (json.get "name")
  let mediaClass ← asStringOr "" (json.get "media_class")
  let state ← asStringOr "error" (json.get "state")
  let properties ← asProperties (json.get "properties")
  return ⟨id, name, mediaClass, PwNodeState.fromString state, properties⟩

def PwPort.fromJson (json : Members) : DartResult PwPort := do
  let id ← asInt (json.get "id")
  let nodeId ← asInt (json.get "node_id")
  let name ← asStringOr "" (json.get "name")
  let direction ← asStringOr "input" (json.get "direction")
  let mediaType ← asStringOr "" (json.get "media_type")
  let isPhysical ← asBoolOr false (json.get "is_physical")
  let isTerminal ← asBoolOr false (json.get "is_terminal")
  let aliasName ← asStringOr "" (json.get "alias")
  let properties ← asProperties (json.get "properties")
  return ⟨id, nodeId, name, PwDirection.fromString direction, mediaType, isPhysical, isTerminal,
    aliasName, properties⟩

def PwLink.fromJson (json : Members) : DartResult PwLink := do
  let id ← asInt (json.get "id")
  let outputNodeId ← asInt (json.get "output_node_id")
  let outputPortId ← asInt (json.get "output_port_id")
  let inputNodeId ← asInt (json.get "input_node_id")
  let inputPortId ← asInt (json.get "input_port_id")
  let state ← asStringOr "error" (json.get "state")
  let error ← asStringOr "" (json.get "error")
  let properties ← asProperties (json.get "properties")
  return ⟨id, outputNodeId, outputPortId, inputNodeId, inputPortId,
    PwLinkState.fromString state, error, properties⟩

def PwDevice.fromJson (json : Members) : DartResult PwDevice := do
  let id ← asInt (json.get "id")
  let name ← asStringOr "" (json.get "name")
  let description ← asStringOr "" (json.get "description")
  let mediaClass ← asStringOr "" (json.get "media_class")
  let api ← asStringOr "" (json.get "api")
  let properties ← asProperties (json.get "properties")
  return ⟨id, name, description, mediaClass, api, properties⟩

end PwDart
