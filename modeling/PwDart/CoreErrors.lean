import PwDart.ClientThread
import PwDart.NodeParamExact

namespace Json

theorem digitChar_eq {d : Nat} (small : d < 10) : d.digitChar = digitChar d := by
  interval_cases d <;> rfl

theorem toDigits_eq_writeNat (n : Nat) : Nat.toDigits 10 n = writeNat n := by
  induction n using Nat.strong_induction_on with
  | _ n ih =>
    rw [Nat.toDigits_eq_if (by decide)]
    split
    next small =>
      rw [digitChar_eq small]
      interval_cases n <;> rfl
    next large =>
      have smaller := ih (n / 10) (by omega)
      have rest : n / 10 ≠ 0 := by omega
      have last := digitChar_eq (Nat.mod_lt n (show 10 > 0 by decide))
      rw [smaller, last, writeNat, writeNat, if_neg rest, if_neg (show n ≠ 0 by omega),
        Nat.digits_def' (by decide) (show 0 < n by omega)]
      simp

theorem toList_toString_nat (n : Nat) : (toString n).toList = writeInt n := by
  rw [Nat.toString_eq_repr, Nat.toList_repr, toDigits_eq_writeNat, writeInt, if_neg (by omega), Int.natAbs_natCast]

theorem toList_toString (i : Int) : (toString i).toList = writeInt i := by
  rw [Int.toString_eq_repr, Int.repr_eq_if, writeInt]
  split
  next positive =>
    have same : i.toNat = i.natAbs := by omega
    rw [if_neg (by omega), Nat.toList_repr, toDigits_eq_writeNat, same]
  next negative =>
    have same : (-i).toNat = i.natAbs := by omega
    rw [if_pos (by omega), String.toList_append, Nat.toList_repr, toDigits_eq_writeNat, same]
    rfl

namespace Parser

/-- A number that is a member's value, with the comma after it. -/
theorem run_intMember (members : Members) (key : Text) {i : Int} (native : (Value.int i).IsNative) :
    (utf16Chars (writeInt i) ++ [unit ',']).foldlM step ⟨[.member members key], .value⟩ =
      some ⟨[.obj (members ++ [(key, .int i)])], .key⟩ := by
  have takes : TakesValue [.member members key] := by
    intro others rest same
    cases same
  have value : Mode.value = .value ∨ Mode.value = .firstItem := Or.inl rfl
  obtain ⟨p, run, ends⟩ := (readsValue_write (.int i) native).run takes value
  have number : utf16Chars (writeInt i) = utf16Chars (write (.int i)) := rfl
  rw [List.foldlM_append, number, run, Option.bind_eq_bind, Option.bind_some, List.foldlM_cons,
    ends.step_eq (Or.inl rfl)]
  rfl

end Parser

end Json

namespace PwDart

open Json Json.Parser

/-- The text decodes to an error object with the id, the code and the message that were reported. -/
def CoreErrorDecodes (id : UInt32) (res : Int32) (message : Option String) : Prop :=
  ∃ members : Members, decode (utf16 (coreErrorJson id res.toInt message)) = some (.obj members) ∧
    members.get "type" = textValue "error" ∧ members.get "id" = .int id.toNat ∧
    members.get "code" = .int res.toInt ∧ members.get "message" = textValue (message.getD "")

/-- And the Dart listener gets an event from it. -/
def CoreErrorArrives (id : UInt32) (res : Int32) (message : Option String) : Prop :=
  CoreErrorDecodes id res message ∧ ∃ event, deserializeEvent (utf16 (coreErrorJson id res.toInt message)) = some event

def errorMembers (id : UInt32) (res : Int32) : Members :=
  [(utf16 "type", .str (utf16 "error")), (utf16 "id", .int id.toNat), (utf16 "code", .int res.toInt)]

/-- The text in front of the message. -/
def errorHead (id : UInt32) (res : Int32) : Text :=
  utf16 "\x7b\"type\":\"error\",\"id\":" ++ (utf16Chars (writeInt id.toNat) ++ [unit ',']) ++ utf16 "\"code\":" ++
    (utf16Chars (writeInt res.toInt) ++ [unit ',']) ++ utf16 "\"message\":\""

theorem utf16_coreErrorJson (id : UInt32) (res : Int32) (message : Option String) :
    utf16 (coreErrorJson id res.toInt message) =
      errorHead id res ++ (utf16 (message.getD "") ++ [unit '"']) ++ [unit '\x7d'] := by
  have parts : utf16 (coreErrorJson id res.toInt message) =
      utf16 "\x7b\"type\":\"error\",\"id\":" ++ utf16 (toString id.toNat) ++ utf16 ",\"code\":" ++
        utf16 (toString res.toInt) ++ utf16 ",\"message\":\"" ++ utf16 (message.getD "") ++ utf16 "\"\x7d" := by
    unfold coreErrorJson
    rw [utf16_append, utf16_append, utf16_append, utf16_append, utf16_append, utf16_append]
  have number : utf16 (toString id.toNat) = utf16Chars (writeInt id.toNat) :=
    congrArg utf16Chars (toList_toString_nat id.toNat)
  have code : utf16 (toString res.toInt) = utf16Chars (writeInt res.toInt) :=
    congrArg utf16Chars (toList_toString res.toInt)
  have second : utf16 ",\"code\":" = [unit ','] ++ utf16 "\"code\":" := rfl
  have third : utf16 ",\"message\":\"" = [unit ','] ++ utf16 "\"message\":\"" := rfl
  have tail : utf16 "\"\x7d" = [unit '"'] ++ [unit '\x7d'] := rfl
  rw [parts, number, code, second, third, tail]
  simp only [errorHead, List.append_assoc]

theorem isNative_id (id : UInt32) : (Value.int id.toNat).IsNative := Codec.isNative_uint32 id

theorem isNative_code (res : Int32) : (Value.int res.toInt).IsNative := by
  have low := res.le_toInt
  have high := res.toInt_lt
  change -2 ^ 63 ≤ res.toInt ∧ res.toInt < 2 ^ 63
  omega

theorem run_errorHead (id : UInt32) (res : Int32) : (errorHead id res).foldlM step {} =
    some ⟨[.member (errorMembers id res) (utf16 "message")], .string false []⟩ := by
  have first : (utf16 "\x7b\"type\":\"error\",\"id\":").foldlM step {} =
      some ⟨[.member [(utf16 "type", .str (utf16 "error"))] (utf16 "id")], .value⟩ := rfl
  have number := run_intMember [(utf16 "type", .str (utf16 "error"))] (utf16 "id") (isNative_id id)
  have middle : (utf16 "\"code\":").foldlM step
      ⟨[.obj ([(utf16 "type", .str (utf16 "error"))] ++ [(utf16 "id", .int id.toNat)])], .key⟩ =
      some ⟨[.member [(utf16 "type", .str (utf16 "error")), (utf16 "id", .int id.toNat)] (utf16 "code")], .value⟩ := rfl
  have code := run_intMember [(utf16 "type", .str (utf16 "error")), (utf16 "id", .int id.toNat)] (utf16 "code")
    (isNative_code res)
  have last : (utf16 "\"message\":\"").foldlM step ⟨[.obj (errorMembers id res)], .key⟩ =
      some ⟨[.member (errorMembers id res) (utf16 "message")], .string false []⟩ := rfl
  exact run_trans (run_trans (run_trans (run_trans first number) middle) code) last

/-- The text decodes to what was reported exactly if the message stands for itself between quotes. -/
theorem coreErrorDecodes_iff (id : UInt32) (res : Int32) (message : Option String) :
    CoreErrorDecodes id res message ↔ (utf16 (message.getD "")).all isPlain = true := by
  constructor
  · rintro ⟨members, decoded, type, _, _, text⟩
    rw [utf16_coreErrorJson, List.append_assoc, decode, List.foldlM_append, run_errorHead] at decoded
    obtain ⟨last, run, finished⟩ := Option.bind_eq_some_iff.mp decoded
    obtain ⟨ended, body, brace⟩ := run_append (p := ⟨[.member (errorMembers id res) (utf16 "message")], .string false []⟩)
      run
    obtain ⟨q, brace, done⟩ := run_cons brace
    cases done
    have light := weight_lastUnit brace (by decide) finished
    have heavy := get_weights_le members (a := "type") (b := "message") (c := "") (by decide) (by decide) (by decide)
    refine plain_of_weight body ?_
    have start : frameWeights [.member (errorMembers id res) (utf16 "message")] = 7 := rfl
    rw [type, text, textValue, textValue, Value.weight, Value.weight] at heavy
    rw [Value.weight] at light
    have word : (utf16 "error").length = 5 := rfl
    rw [start, List.length_nil]
    omega
  · intro plain
    refine ⟨errorMembers id res ++ [(utf16 "message", .str (utf16 (message.getD "")))], ?_, rfl, rfl, rfl, rfl⟩
    rw [utf16_coreErrorJson, List.append_assoc, List.append_assoc, decode, List.foldlM_append, run_errorHead,
      Option.bind_eq_bind, Option.bind_some, List.foldlM_append, run_string plain]
    rfl

/-- An object whose type is error is none of the events that Dart knows. -/
theorem deserializeEvent_of_decodes {json : Text} {members : Members} (decoded : decode json = some (.obj members))
    (type : members.get "type" = textValue "error") : deserializeEvent json = none := by
  have read : jsonDecode json = .ok (.obj members) := by
    rw [jsonDecode, decoded]
  have unknown : PwGraphEvent.fromJson members = .ok none := by
    simp [PwGraphEvent.fromJson, type, textValue, asStringOr, bind, Except.bind, pure, Except.pure]
  rw [deserializeEvent, read]
  simp [deserializeEventValue, asMembers, unknown, bind, Except.bind]

/-- No core error arrives; its text decodes to what was reported exactly if the message stands for itself
between quotes. -/
theorem core_error_never_arrives (id : UInt32) (res : Int32) (message : Option String) :
    ¬CoreErrorArrives id res message ∧
      (CoreErrorDecodes id res message ↔ (utf16 (message.getD "")).all isPlain = true) := by
  refine ⟨?_, coreErrorDecodes_iff id res message⟩
  rintro ⟨⟨members, decoded, type, _⟩, event, shown⟩
  cases (deserializeEvent_of_decodes decoded type).symm.trans shown

/-- The daemon's end of the connection is lost. -/
theorem connection_error_dropped :
    ¬CoreErrorArrives 0 (-32) (some "connection error") ∧
      deserializeEvent (utf16 (coreErrorJson 0 (-32) (some "connection error"))) = none := by
  have text : (utf16 "connection error").all isPlain = true := by
    decide
  obtain ⟨members, decoded, type, _⟩ := (coreErrorDecodes_iff 0 (-32) (some "connection error")).mpr text
  have dropped := deserializeEvent_of_decodes decoded type
  refine ⟨fun arrives => ?_, dropped⟩
  obtain ⟨_, event, shown⟩ := arrives
  cases dropped.symm.trans shown

end PwDart
