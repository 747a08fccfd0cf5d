import PwDart.NodeParamText

namespace PwDart

open Json Json.Parser

/-- A text between quotes that counts for its whole length stands for itself. -/
theorem plain_of_weight {frames : List Frame} {read text : Text} {q : Parser}
    (h : (text ++ [unit '"']).foldlM step ⟨frames, .string false read⟩ = some q)
    (heavy : frameWeights frames + read.length + text.length + 2 ≤ q.weight) :
    text.all isPlain = true := by
  induction text generalizing read with
  | nil => rfl
  | cons c text ih =>
    rw [List.cons_append] at h
    obtain ⟨mid, first, rest⟩ := run_cons h
    rw [List.length_cons] at heavy
    have later := weight_run rest
    rw [List.length_append, List.length_singleton] at later
    by_cases plain : isPlain c = true
    · rw [step_string plain] at first
      cases Option.some.inj first
      rw [List.all_cons, plain, Bool.true_and]
      refine ih rest ?_
      rw [List.length_append, List.length_singleton]
      omega
    · exfalso
      simp only [step] at first
      split at first
      next =>
        -- the string has ended, and nothing that can follow counts
        have closed : complete frames (.str read) = some mid := first
        have ended := weight_complete closed
        rw [Value.weight] at ended
        obtain ⟨d, others, same⟩ : ∃ d others, text ++ [unit '"'] = d :: others := by
          cases text with
          | nil => exact ⟨_, _, rfl⟩
          | cons d others => exact ⟨_, _, rfl⟩
        have lengths := congrArg List.length same
        rw [List.length_append, List.length_singleton, List.length_cons] at lengths
        rw [same] at rest
        obtain ⟨after, next, rest⟩ := run_cons rest
        have last := weight_run rest
        have kept : after.weight ≤ mid.weight := by
          refine weight_afterValue (c := d) ?_
          rcases mode_complete closed with at_ | ⟨w, at_⟩
          · simpa only [step, at_] using next
          · simpa only [step, at_] using next
        omega
      next notQuote =>
        split at first
        next =>
          cases Option.some.inj first
          have light : weight ⟨frames, .escape false read⟩ = frameWeights frames + (read.length + 1) := rfl
          rw [light] at later
          omega
        next notEscape =>
          obtain ⟨notControl, _⟩ := Option.ite_none_left_eq_some.mp first
          refine plain ?_
          have above : (0x20 : UInt16) ≤ c := UInt16.not_lt.mp notControl
          simp [isPlain, notQuote, notEscape, above]

theorem weight_get {members : Members} {name text : String} (field : ReadsField members name text)
    (present : utf16 name ∈ members.map Prod.fst) :
    (members.get name).weight = (utf16 text).length + 2 := by
  rw [ReadsField, if_pos present] at field
  rw [field, Value.weight]

/-- A field that is not empty has been given. -/
theorem present_of_ne {members : Members} {name text : String} (field : ReadsField members name text)
    (filled : utf16 text ≠ []) : utf16 name ∈ members.map Prod.fst := by
  by_contra absent
  rw [ReadsField, if_neg absent] at field
  subst field
  exact filled rfl

theorem key_present {text : Text} {members : Members}
    (h : decode (utf16 "\x7b\"key\":\"" ++ text) = some (.obj members)) :
    utf16 "key" ∈ members.map Prod.fst := by
  rw [decode, List.foldlM_append, run_keyHead] at h
  exact names_decode h (List.mem_singleton.mpr rfl)

/-- The text read as it was built, from the string of the key to the string of the value. -/
theorem weight_afterKey {key text : Text} {members : Members}
    (h : decode (utf16 "\x7b\"key\":\"" ++ (key ++ (utf16 "\",\"value\":" ++ text))) = some (.obj members)) :
    ∃ closed frames, (key ++ [unit '"']).foldlM step ⟨[.member [] (utf16 "key")], .string false []⟩ = some closed ∧
      closed.weight ≤ key.length + 2 ∧ frameWeights frames ≤ closed.weight ∧
      (text.foldlM step ⟨frames, .value⟩).bind finish = some (.obj members) ∧
      ∃ before rest, frames = .member before (utf16 "value") :: rest := by
  rw [decode, List.foldlM_append, run_keyHead] at h
  obtain ⟨q, run, ended⟩ := Option.bind_eq_some_iff.mp h
  obtain ⟨inKey, body, run⟩ := run_append (p := ⟨[.member [] (utf16 "key")], .string false []⟩) run
  obtain ⟨named, middle, run⟩ := run_append run
  obtain ⟨closed, quote, light, before, rest, rfl⟩ := ParamHandler.run_valueHead middle
  have read : (key ++ [unit '"']).foldlM step ⟨[.member [] (utf16 "key")], .string false []⟩ = some closed := by
    rw [List.foldlM_append, body]
    simpa using quote
  have most := weight_run read
  have start : weight ⟨[.member [] (utf16 "key")], .string false []⟩ = 1 := rfl
  rw [start, List.length_append, List.length_singleton] at most
  refine ⟨closed, .member before (utf16 "value") :: rest, read, by omega, light, ?_, before, rest, rfl⟩
  rw [run]
  exact ended

theorem weight_bind {frames : List Frame} {text : Text} {v : Value}
    (h : (text.foldlM step ⟨frames, .value⟩).bind finish = some v) :
    v.weight ≤ frameWeights frames + text.length := by
  obtain ⟨q, run, ended⟩ := Option.bind_eq_some_iff.mp h
  exact Nat.le_trans (weight_finish ended) (weight_run run)

/-- The member weights of a document that is read as it should be. -/
theorem memberWeights_of_reads {members : Members} {update : ParamUpdate}
    (key : ReadsField members "key" update.key) (value : ReadsField members "value" update.value)
    (hasKey : utf16 "key" ∈ members.map Prod.fst) (hasValue : utf16 "value" ∈ members.map Prod.fst) :
    (utf16 update.key).length + (utf16 update.value).length + 4 ≤ memberWeights members := by
  have bound := get_weights_le members (a := "key") (b := "value") (c := "")
    (by decide) (by decide) (by decide)
  have first := weight_get key hasKey
  have second := weight_get value hasValue
  omega

theorem keyHead_nonzero : ∀ c ∈ utf16 "\x7b\"key\":\"", decide (c ≠ 0) = true :=
  List.all_eq_true.mp (by decide)

theorem valueHead_nonzero : ∀ c ∈ utf16 "\",\"value\":", decide (c ≠ 0) = true :=
  List.all_eq_true.mp (by decide)

theorem quote_nonzero : ∀ c ∈ utf16 "\"", decide (c ≠ 0) = true := List.all_eq_true.mp (by decide)

theorem tail_nonzero : ∀ c ∈ utf16 "\"\x7d", decide (c ≠ 0) = true := List.all_eq_true.mp (by decide)

/-- A zero in the key or the value cuts the document off. -/
theorem nonzero_of_reads {key value : Text} {update : ParamUpdate} {members : Members}
    (decoded : decode ((setNodeParamJson key value).takeWhile fun c => c ≠ 0) = some (.obj members))
    (readKey : ReadsField members "key" update.key) (readValue : ReadsField members "value" update.value)
    (sameKey : utf16 update.key = key) (sameValue : utf16 update.value = value) :
    (setNodeParamJson key value).takeWhile (fun c => c ≠ 0) = setNodeParamJson key value := by
  have shape : setNodeParamJson key value =
      utf16 "\x7b\"key\":\"" ++ (key ++ (utf16 "\",\"value\":" ++
        (utf16 "\"" ++ (value ++ utf16 "\"\x7d")))) := by
    simp only [setNodeParamJson, List.append_assoc]
  have cut (text : Text) : (text.takeWhile fun c => decide (c ≠ 0)).length ≤ text.length :=
    (List.takeWhile_sublist _).length_le
  rw [shape] at decoded ⊢
  rw [List.takeWhile_append_of_pos keyHead_nonzero] at decoded ⊢
  have hasKey := key_present decoded
  rw [List.takeWhile_append] at decoded ⊢
  split at decoded
  next whole =>
    rw [if_pos whole]
    rw [List.takeWhile_append_of_pos valueHead_nonzero, List.takeWhile_append_of_pos quote_nonzero] at decoded ⊢
    rw [List.takeWhile_append] at decoded ⊢
    split at decoded
    next whole =>
      rw [if_pos whole, List.takeWhile_eq_self_iff.mpr tail_nonzero]
    next partly =>
      exfalso
      have filled : utf16 update.value ≠ [] := by
        rintro empty
        rw [← sameValue, empty] at partly
        exact partly rfl
      have heavy := memberWeights_of_reads readKey readValue hasKey (present_of_ne readValue filled)
      obtain ⟨closed, frames, _, light, closing, rest, _⟩ := weight_afterKey decoded
      have most := weight_bind rest
      rw [Value.weight, List.length_append, show (utf16 "\"").length = 1 from rfl] at most
      have short := cut value
      rw [sameKey, sameValue] at heavy
      omega
  next partly =>
    exfalso
    rw [decode, List.foldlM_append, run_keyHead] at decoded
    obtain ⟨q, run, ended⟩ := Option.bind_eq_some_iff.mp decoded
    have most := weight_run (p := ⟨[.member [] (utf16 "key")], .string false []⟩) run
    have start : weight ⟨[.member [] (utf16 "key")], .string false []⟩ = 1 := rfl
    have least := weight_finish ended
    rw [Value.weight] at least
    have bound := get_weights_le members (a := "key") (b := "value") (c := "")
      (by decide) (by decide) (by decide)
    have heavy := weight_get readKey hasKey
    have short := cut key
    rw [sameKey] at heavy
    omega

/-- From the string of the value to the end of the document. -/
theorem run_value {frames : List Frame} {value : Text} {v : Value}
    (h : ((utf16 "\"" ++ (value ++ utf16 "\"\x7d")).foldlM step ⟨frames, .value⟩).bind finish = some v) :
    ∃ ended last, (value ++ [unit '"']).foldlM step ⟨frames, .string false []⟩ = some ended ∧
      ended.step (unit '\x7d') = some last ∧ last.finish = some v := by
  have parts : utf16 "\"" ++ (value ++ utf16 "\"\x7d") =
      unit '"' :: ((value ++ [unit '"']) ++ [unit '\x7d']) := by
    rw [List.append_assoc]
    rfl
  rw [parts] at h
  obtain ⟨q, run, finished⟩ := Option.bind_eq_some_iff.mp h
  obtain ⟨opened, quote, run⟩ := run_cons run
  cases Option.some.inj quote
  obtain ⟨ended, body, brace⟩ := run_append run
  obtain ⟨last, step, done⟩ := run_cons brace
  cases Option.some.inj done
  exact ⟨ended, q, body, step, finished⟩

/-- A member whose value is empty is the last of its object, and there is no other around it. -/
theorem value_present {before members : Members} {outer : List Frame} {ended last : Parser}
    (body : ([] ++ [unit '"']).foldlM step ⟨.member before (utf16 "value") :: outer, .string false []⟩ =
      some ended)
    (brace : ended.step (unit '\x7d') = some last) (finished : last.finish = some (.obj members)) :
    utf16 "value" ∈ members.map Prod.fst := by
  cases Option.some.inj body
  have closed : complete outer (.obj (before ++ [(utf16 "value", .str [])])) = some last := brace
  cases outer with
  | nil =>
    cases Option.some.inj closed
    cases Option.some.inj finished
    simp
  | cons frame outer =>
    cases frame with
    | obj => cases closed
    | arr | member => cases Option.some.inj closed; cases finished

/-- Whatever the reader, the native side reads the key and the value that were given exactly when
each of them stands for itself between quotes. -/
theorem set_param_reads_iff {readJson : String → Option ParamUpdate} (reader : ReadsParamUpdate readJson)
    (key value : Text) : ReadsAs readJson key value ↔ IsVerbatim key ∧ IsVerbatim value := by
  constructor
  · rintro ⟨update, read, sameKey, sameValue⟩
    obtain ⟨members, decoded, readKey, readValue⟩ := reader.sound _ _ read
    rw [← sameKey, ← sameValue, utf16_nativeParamJson, sameKey, sameValue] at decoded
    rw [nonzero_of_reads decoded readKey readValue sameKey sameValue] at decoded
    have shape : setNodeParamJson key value =
        utf16 "\x7b\"key\":\"" ++ (key ++ (utf16 "\",\"value\":" ++
          (utf16 "\"" ++ (value ++ utf16 "\"\x7d")))) := by
      simp only [setNodeParamJson, List.append_assoc]
    rw [shape] at decoded
    have hasKey := key_present decoded
    obtain ⟨closed, frames, inKey, most, closing, rest, before, outer, rfl⟩ := weight_afterKey decoded
    obtain ⟨ended, last, inValue, brace, finished⟩ := run_value rest
    have hasValue : utf16 "value" ∈ members.map Prod.fst := by
      by_cases filled : utf16 update.value = []
      · rw [← sameValue, filled] at inValue
        exact value_present inValue brace finished
      · exact present_of_ne readValue filled
    have heavy := memberWeights_of_reads readKey readValue hasKey hasValue
    have light := weight_lastUnit brace (by decide) finished
    have grown := weight_run inValue
    have opened : weight ⟨.member before (utf16 "value") :: outer, .string false []⟩ =
        frameWeights (.member before (utf16 "value") :: outer) + 1 := rfl
    rw [opened, List.length_append, List.length_singleton] at grown
    rw [Value.weight] at light
    rw [sameKey, sameValue] at heavy
    have empty : frameWeights [.member [] (utf16 "key")] = 0 := rfl
    refine ⟨⟨plain_of_weight inKey ?_, update.key, sameKey⟩, plain_of_weight inValue ?_, update.value, sameValue⟩
    · rw [empty, List.length_nil]
      omega
    · rw [List.length_nil]
      omega
  · rintro ⟨⟨plainKey, k, rfl⟩, plainValue, v, rfl⟩
    have nonzero : (setNodeParamJson (utf16 k) (utf16 v)).takeWhile (fun c => c ≠ 0) =
        setNodeParamJson (utf16 k) (utf16 v) := by
      rw [List.takeWhile_eq_self_iff]
      intro c hc
      have plain {text : Text} (h : text.all isPlain = true) (mem : c ∈ text) : decide (c ≠ 0) = true := by
        refine decide_eq_true ?_
        rintro rfl
        exact absurd (List.all_eq_true.mp h 0 mem) (by decide)
      simp only [setNodeParamJson, List.mem_append] at hc
      rcases hc with ((((hc | hc) | hc) | hc) | hc) | hc
      · exact keyHead_nonzero c hc
      · exact plain plainKey hc
      · exact valueHead_nonzero c hc
      · exact quote_nonzero c hc
      · exact plain plainValue hc
      · exact tail_nonzero c hc
    refine ⟨⟨k, v⟩, reader.complete _ k v ?_, rfl, rfl⟩
    rw [utf16_nativeParamJson, nonzero]
    exact decode_setNodeParamJson plainKey plainValue

theorem set_param_reads_volume : ReadsAs readParamUpdate (utf16 "volume") (utf16 "0.75") :=
  (set_param_reads_iff readsParamUpdate_members (utf16 "volume") (utf16 "0.75")).mpr
    ⟨⟨by decide, "volume", rfl⟩, by decide, "0.75", rfl⟩

set_option maxRecDepth 4000 in
/-- A value that closes its own string goes on to name another key. -/
theorem set_param_other_key :
    let value := utf16 "0.5\",\"key\":\"mute"
    readParamUpdate (nativeParamJson (utf16 "volume") value) = some ⟨"mute", "0.5"⟩ ∧
      ¬ReadsAs readParamUpdate (utf16 "volume") value := by
  intro value
  have read : readParamUpdate (nativeParamJson (utf16 "volume") value) = some ⟨"mute", "0.5"⟩ := by
    decide +kernel
  refine ⟨read, ?_⟩
  rintro ⟨update, found, key, _⟩
  cases read.symm.trans found
  exact absurd key (by decide)

end PwDart
