import PwDart.JsonDecode
import PwDart.DartModels

namespace PwDart

open Json

theorem bind_eq_ok {α β : Type} {x : DartResult α} {f : α → DartResult β} {b : β}
    (h : (x >>= f) = .ok b) : ∃ a, x = .ok a ∧ f a = .ok b := by
  cases x with
  | error e => cases h
  | ok a => exact ⟨a, rfl, h⟩

theorem asString_ok {v : Value} {s : Text} (h : asString v = .ok s) : v = .str s := by
  cases v with
  | str t => cases h; rfl
  | _ => cases h

theorem asMembers_ok {v : Value} {members : Members} (h : asMembers v = .ok members) :
    v = .obj members := by
  cases v with
  | obj members => cases h; rfl
  | _ => cases h

theorem asItems_ok {v : Value} {items : List Value} (h : asItems v = .ok items) : v = .arr items := by
  cases v with
  | arr items => cases h; rfl
  | _ => cases h

/-- `jsonDecode`. -/
def jsonDecode (text : Text) : DartResult Value :=
  match decode text with
  | some value => .ok value
  | none => .error .formatException

inductive PwParamType
  | int | float | double | string | bool | bytes | unknown
deriving DecidableEq

def PwParamType.fromString (s : Text) : PwParamType :=
  if s = utf16 "Int" ∨ s = utf16 "int" then int
  else if s = utf16 "Float" ∨ s = utf16 "float" then float
  else if s = utf16 "Double" ∨ s = utf16 "double" then double
  else if s = utf16 "String" ∨ s = utf16 "string" then string
  else if s = utf16 "Bool" ∨ s = utf16 "bool" then bool
  else if s = utf16 "Bytes" ∨ s = utf16 "bytes" then bytes
  else unknown

structure PwParamFlags where
  readable : Bool := true
  writable : Bool := false
deriving DecidableEq

def PwParamFlags.fromJson (json : Members) : DartResult PwParamFlags := do
  let readable ← asBoolOr true (json.get "readable")
  let writable ← asBoolOr false (json.get "writable")
  return ⟨readable, writable⟩

/-- The fields of type `Object?` hold what was decoded, null where nothing was given. -/
structure PwParam where
  key : Text
  value : Value
  type : PwParamType
  flags : PwParamFlags
  defaultValue : Value
  min : Value
  max : Value

def paramFlags : Value → DartResult PwParamFlags
  | .null => .ok {}
  | flags => do PwParamFlags.fromJson (← asMembers flags)

def PwParam.fromJson (json : Members) : DartResult PwParam := do
  let key ← asString (json.get "key")
  let type ← asStringOr "unknown" (json.get "type")
  let flags ← paramFlags (json.get "flags")
  return ⟨key, json.get "value", PwParamType.fromString type, flags, json.get "default",
    json.get "min", json.get "max"⟩

theorem PwParam.fromJson_ok {json : Members} {param : PwParam} (h : PwParam.fromJson json = .ok param) :
    json.get "key" = .str param.key ∧ param.value = json.get "value" ∧
      ∃ type, asStringOr "unknown" (json.get "type") = .ok type ∧
        param.type = PwParamType.fromString type := by
  obtain ⟨key, isKey, h⟩ := bind_eq_ok h
  obtain ⟨type, isType, h⟩ := bind_eq_ok h
  obtain ⟨flags, _, h⟩ := bind_eq_ok h
  cases h
  exact ⟨asString_ok isKey, rfl, type, isType, rfl⟩

/-- `Map<String, PwParam>`. -/
abbrev ParamMap : Type := LinkedMap Text PwParam

def paramStep (params : ParamMap) (item : Value) : DartResult ParamMap := do
  let param ← PwParam.fromJson (← asMembers item)
  return params.put param.key param

def readParams (json : Text) : DartResult ParamMap := do
  let list ← asItems (← jsonDecode json)
  list.foldlM paramStep ∅

/-- `PwEventDeserializer.deserializeParams`. -/
def deserializeParams (json : Text) : ParamMap :=
  match readParams json with
  | .ok params => params
  | .error _ => ∅

theorem lookup_readParams {json : Text} {params : ParamMap} (h : readParams json = .ok params) :
    ∃ items, decode json = some (.arr items) ∧ ∀ name param, params.lookup name = some param →
      ∃ item ∈ items, ∃ members, item = .obj members ∧ PwParam.fromJson members = .ok param ∧
        param.key = name := by
  obtain ⟨value, decoded, listed⟩ := bind_eq_ok h
  obtain ⟨items, list, folded⟩ := bind_eq_ok listed
  cases asItems_ok list
  refine ⟨items, ?_, ?_⟩
  · unfold jsonDecode at decoded
    split at decoded
    next same => cases decoded; exact same
    next => cases decoded
  · clear h decoded listed list
    induction items using List.reverseRecOn generalizing params with
    | nil =>
      cases folded
      intro name param found
      simp at found
    | append_singleton items item ih =>
      intro name param found
      rw [List.foldlM_append] at folded
      obtain ⟨before, first, last⟩ := bind_eq_ok folded
      obtain ⟨after, last, done⟩ := bind_eq_ok last
      cases done
      obtain ⟨members, object, last⟩ := bind_eq_ok last
      obtain ⟨new, read, last⟩ := bind_eq_ok last
      cases last
      rw [LinkedMap.lookup_put] at found
      split at found
      next here =>
        cases found
        exact ⟨item, by simp, members, asMembers_ok object, read, here.symm⟩
      next =>
        obtain ⟨other, hother, rest⟩ := ih first name param found
        exact ⟨other, List.mem_append_left _ hother, rest⟩

end PwDart
