import PwDart.JsonKeys
import PwDart.NativeText
import PwDart.ParamText

namespace PwDart

open Json Json.Parser

/-- The text that `PwNativeBridge.setNodeParam` builds; `value` is `value.toString()`. -/
def setNodeParamJson (key value : Text) : Text :=
  utf16 "\x7b\"key\":\"" ++ key ++ utf16 "\",\"value\":" ++ utf16 "\"" ++ value ++ utf16 "\"\x7d"

/-- The `param_json` that reaches `set_param` through `pwDartSetNodeParam` and `set_node_param`. -/
def nativeParamJson (key value : Text) : String :=
  ofCString (toNativeUtf8 (setNodeParamJson key value))

/-- The last member of the name is the field's text; without one the field keeps its default. -/
def ReadsField (members : Members) (name text : String) : Prop :=
  if utf16 name ∈ members.map Prod.fst then members.get name = .str (utf16 text) else text = ""

/-- What is relied on of `glz::read_json` into a new `ParamUpdate`. -/
structure ReadsParamUpdate (readJson : String → Option ParamUpdate) : Prop where
  sound : ∀ json update, readJson json = some update →
    ∃ members, decode (utf16 json) = some (.obj members) ∧
      ReadsField members "key" update.key ∧ ReadsField members "value" update.value
  complete : ∀ json key value,
    decode (utf16 json) = some (.obj [(utf16 "key", .str (utf16 key)), (utf16 "value", .str (utf16 value))]) →
      readJson json = some ⟨key, value⟩

/-- An object of just the two strings is read as what it gives. -/
def ReadsUpdates (readJson : String → Option ParamUpdate) : Prop :=
  ∀ json key value,
    decode (utf16 json) = some (.obj [(utf16 "key", .str (utf16 key)), (utf16 "value", .str (utf16 value))]) →
      readJson json = some ⟨key, value⟩

/-- The native side reads the text as exactly this key and this value. -/
def ReadsAs (readJson : String → Option ParamUpdate) (key value : Text) : Prop :=
  ∃ update, readJson (nativeParamJson key value) = some update ∧
    utf16 update.key = key ∧ utf16 update.value = value

/-- Well-formed UTF-16 without quotes, backslashes and control characters. -/
def IsVerbatim (text : Text) : Prop := text.all isPlain = true ∧ ∃ s, utf16 s = text

def readMember (update : ParamUpdate) (member : Text × Value) : Option ParamUpdate :=
  match member.2 with
  | .str s =>
    if utf16 (toNativeUtf8 s) = s then
      if member.1 = utf16 "key" then some { update with key := toNativeUtf8 s }
      else if member.1 = utf16 "value" then some { update with value := toNativeUtf8 s }
      else none
    else none
  | _ => none

/-- A reader that takes the members one after the other and refuses any but strings under the two
names. -/
def readParamUpdate (json : String) : Option ParamUpdate :=
  match decode (utf16 json) with
  | some (.obj members) => members.foldlM readMember {}
  | _ => none

theorem readsField_append {members : Members} {name text : String} (key : Text) (v : Value) :
    ReadsField (members ++ [(key, v)]) name text ↔
      if key = utf16 name then v = .str (utf16 text) else ReadsField members name text := by
  have mem : utf16 name ∈ (members ++ [(key, v)]).map Prod.fst ↔
      utf16 name ∈ members.map Prod.fst ∨ key = utf16 name := by
    rw [List.map_append, List.mem_append, List.map_singleton, List.mem_singleton]
    exact or_congr_right eq_comm
  simp only [ReadsField, get_append_singleton, mem]
  by_cases here : key = utf16 name
  · simp only [here, or_true, if_true]
  · simp only [here, or_false, if_false]

theorem readsField_members {members : Members} {update : ParamUpdate}
    (h : members.foldlM readMember {} = some update) :
    ReadsField members "key" update.key ∧ ReadsField members "value" update.value := by
  induction members using List.reverseRecOn generalizing update with
  | nil => cases Option.some.inj h; exact ⟨rfl, rfl⟩
  | append_singleton members member ih =>
    obtain ⟨name, v⟩ := member
    rw [List.foldlM_append] at h
    obtain ⟨before, first, last⟩ := Option.bind_eq_some_iff.mp h
    obtain ⟨key, value⟩ := ih first
    have last : readMember before (name, v) = some update := by simpa using last
    unfold readMember at last
    split at last
    next s same =>
      simp only at same
      subst same
      obtain ⟨text, last⟩ := Option.ite_none_right_eq_some.mp last
      rw [readsField_append, readsField_append]
      split at last
      next isKey =>
        cases Option.some.inj last
        simp only at isKey
        subst isKey
        exact ⟨by rw [if_pos rfl, text], by rw [if_neg (by decide)]; exact value⟩
      next notKey =>
        obtain ⟨isValue, last⟩ := Option.ite_none_right_eq_some.mp last
        cases Option.some.inj last
        simp only at isValue
        subst isValue
        exact ⟨by rw [if_neg (by decide)]; exact key, by rw [if_pos rfl, text]⟩
    next => cases last

theorem readsParamUpdate_members : ReadsParamUpdate readParamUpdate where
  sound json update h := by
    unfold readParamUpdate at h
    split at h
    next members decoded => exact ⟨members, decoded, readsField_members h⟩
    next => cases h
  complete json key value decoded := by
    have names : utf16 "value" ≠ utf16 "key" := by decide
    simp [readParamUpdate, decoded, readMember, toNativeUtf8_utf16, names]

/-- The text read up to the string in which the key stands. -/
theorem run_keyHead : (utf16 "\x7b\"key\":\"").foldlM step {} =
    some ⟨[.member [] (utf16 "key")], .string false []⟩ := rfl

theorem run_valueMiddle (key : Text) :
    (utf16 "\",\"value\":" ++ utf16 "\"").foldlM step ⟨[.member [] (utf16 "key")], .string false key⟩ =
      some ⟨[.member [(utf16 "key", .str key)] (utf16 "value")], .string false []⟩ := rfl

theorem run_valueTail (key value : Text) :
    ((utf16 "\"\x7d").foldlM step
        ⟨[.member [(utf16 "key", .str key)] (utf16 "value")], .string false value⟩).bind finish =
      some (.obj [(utf16 "key", .str key), (utf16 "value", .str value)]) := rfl

theorem decode_setNodeParamJson {key value : Text} (plainKey : key.all isPlain = true)
    (plainValue : value.all isPlain = true) :
    decode (setNodeParamJson key value) =
      some (.obj [(utf16 "key", .str key), (utf16 "value", .str value)]) := by
  rw [← run_valueTail]
  unfold decode setNodeParamJson
  rw [List.foldlM_append, List.foldlM_append, List.append_assoc (utf16 _ ++ key), List.foldlM_append,
    List.foldlM_append, run_keyHead]
  simp only [Option.bind_eq_bind, Option.bind_some]
  rw [run_string plainKey, Option.bind_some, List.nil_append, run_valueMiddle, Option.bind_some,
    run_string plainValue, Option.bind_some, List.nil_append]

theorem utf16_nativeParamJson (key value : String) :
    utf16 (nativeParamJson (utf16 key) (utf16 value)) =
      (setNodeParamJson (utf16 key) (utf16 value)).takeWhile fun c => c ≠ 0 := by
  have text : setNodeParamJson (utf16 key) (utf16 value) =
      utf16 ("\x7b\"key\":\"" ++ key ++ "\",\"value\":" ++ "\"" ++ value ++ "\"\x7d") := by
    simp only [setNodeParamJson, utf16_append]
  rw [nativeParamJson, text, toNativeUtf8_utf16, utf16_ofCString]

end PwDart
