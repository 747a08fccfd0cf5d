import PwDart.JsonRun
import PwDart.PwParams
import PwDart.ParamHandler

namespace PwDart

open Json Json.Parser

namespace ParamHandler

theorem weight_keyHead {p q : Parser} (h : (utf16 "\x7b\"key\":\"").foldlM step p = some q) :
    q.weight ≤ p.weight + 1 := by
  have parts : utf16 "\x7b\"key\":\"" =
      unit '\x7b' :: ((unit '"' :: (utf16 "key" ++ [unit '"', unit ':'])) ++ [unit '"']) := by decide
  rw [parts] at h
  obtain ⟨opened, first, h⟩ := run_cons h
  obtain ⟨named, key, last⟩ := run_append h
  obtain ⟨light, outside, _⟩ := run_key (by decide) (by decide) key
  have opening := (weight_step_outside first (by decide) outside).2
  have closing := weight_run last
  simp only [List.length_singleton] at closing
  omega

/-- The quote closes the string before, and what follows is a key and counts for nothing. -/
theorem run_valueHead {p q : Parser} (h : (utf16 "\",\"value\":").foldlM step p = some q) :
    ∃ closed, p.step (unit '"') = some closed ∧ q.weight ≤ closed.weight ∧
      ∃ members rest, q = ⟨.member members (utf16 "value") :: rest, .value⟩ := by
  have parts : utf16 "\",\"value\":" =
      unit '"' :: (unit ',' :: (unit '"' :: (utf16 "value" ++ [unit '"', unit ':']))) := by decide
  rw [parts] at h
  obtain ⟨closed, first, h⟩ := run_cons h
  obtain ⟨separated, comma, key⟩ := run_cons h
  obtain ⟨light, outside, members, name, rest, rfl, named⟩ := run_key (by decide) (by decide) key
  have between := (weight_step_outside comma (by decide) outside).2
  rw [named (isEscape_comma comma)] at light ⊢
  exact ⟨closed, first, Nat.le_trans light between, members, rest, rfl⟩

theorem weight_valueHead {p q : Parser} (h : (utf16 "\",\"value\":").foldlM step p = some q) :
    q.weight ≤ p.weight + 1 := by
  obtain ⟨closed, first, light, _⟩ := run_valueHead h
  have closing := weight_step first
  split at closing <;> omega

theorem run_typeHead {p q : Parser} (h : (utf16 ",\"type\":\"").foldlM step p = some q) :
    ∃ members name rest, q = ⟨.member members name :: rest, .string false []⟩ ∧
      q.weight ≤ p.weight + 1 := by
  have parts : utf16 ",\"type\":\"" =
      unit ',' :: ((unit '"' :: (utf16 "type" ++ [unit '"', unit ':'])) ++ [unit '"']) := by decide
  rw [parts] at h
  obtain ⟨separated, comma, h⟩ := run_cons h
  obtain ⟨named, key, last⟩ := run_append h
  obtain ⟨light, outside, members, name, rest, rfl, _⟩ := run_key (by decide) (by decide) key
  have between := (weight_step_outside comma (by decide) outside).2
  have opening := weight_run last
  simp only [List.length_singleton] at opening
  refine ⟨members, name, rest, (Option.some.inj last).symm, ?_⟩
  omega

set_option maxRecDepth 2000 in
/-- From inside the type, the rest of the entry is read as it was meant. -/
theorem run_flagsTail (members : Members) (name text : Text) (rest : List Frame) :
    (utf16 "\",\"flags\":\x7b\"readable\":true,\"writable\":true\x7d").foldlM step
        ⟨.member members name :: rest, .string false text⟩ =
      some ⟨.obj (members ++ [(name, .str text)] ++
        [(utf16 "flags", .obj [(utf16 "readable", .bool true), (utf16 "writable", .bool true)])]) :: rest,
          .after⟩ :=
  rfl

theorem weight_flagsTail {members : Members} {name text : Text} {rest : List Frame} {q : Parser}
    (h : (utf16 "\",\"flags\":\x7b\"readable\":true,\"writable\":true\x7d\x7d").foldlM step
      ⟨.member members name :: rest, .string false text⟩ = some q) :
    q.weight = (Parser.mk (.member members name :: rest) (.string false text)).weight + 1 := by
  have parts : "\",\"flags\":\x7b\"readable\":true,\"writable\":true\x7d\x7d" =
      "\",\"flags\":\x7b\"readable\":true,\"writable\":true\x7d" ++ "\x7d" := by decide
  rw [parts, utf16_append] at h
  obtain ⟨filled, body, last⟩ := run_append h
  rw [run_flagsTail] at body
  cases Option.some.inj body
  have closing : complete rest (.obj (members ++ [(name, .str text)] ++
      [(utf16 "flags", .obj [(utf16 "readable", .bool true), (utf16 "writable", .bool true)])])) =
        some q := by
    obtain ⟨ended, brace, done⟩ := run_cons last
    cases Option.some.inj done
    exact brace
  rw [weight_complete closing]
  simp only [weight, frameWeights, List.map_cons, List.sum_cons, Frame.weight, Mode.weight,
    memberWeights_append_singleton, Value.weight, memberWeights, Bool.false_eq_true, if_false]
  omega

/-- What one entry of the text adds. -/
theorem weight_paramText {p q : Parser} {key value : String}
    (h : (utf16 (paramText key value "String")).foldlM step p = some q) :
    q.weight ≤ p.weight + ((utf16 key).length + (utf16 value).length + 10) := by
  unfold paramText at h
  simp only [utf16_append, List.append_assoc] at h
  obtain ⟨a, head, h⟩ := run_append h
  obtain ⟨b, body, h⟩ := run_append h
  obtain ⟨c, middle, h⟩ := run_append h
  obtain ⟨d, content, h⟩ := run_append h
  obtain ⟨e, typed, h⟩ := run_append h
  obtain ⟨f, type, tail⟩ := run_append h
  have := weight_keyHead head
  have := weight_run body
  have := weight_valueHead middle
  have := weight_run content
  obtain ⟨members, name, rest, rfl, _⟩ := run_typeHead typed
  have := weight_run type
  rw [run_string (by decide)] at type
  cases Option.some.inj type
  have := weight_flagsTail tail
  simp only [show (utf16 "String").length = 6 by decide] at *
  omega

/-- What the loop has written is read with at most this much in strings. -/
theorem weight_params {types : StringMap} (strings : ∀ (key type : String), types[key]? = some type → type = "String")
    (entries : List (String × String)) {p : Parser}
    (h : (utf16 (entries.foldl (appendParam types) ("[", true)).1).foldlM step {} = some p) :
    p.weight ≤ (entries.map fun e => (utf16 e.1).length + (utf16 e.2).length + 11).sum := by
  induction entries using List.reverseRecOn generalizing p with
  | nil =>
    have opened : (utf16 "[").foldlM step {} = some ⟨[.arr []], .firstItem⟩ := rfl
    cases opened.symm.trans h
    exact Nat.le_refl _
  | append_singleton entries e ih =>
    have type : types[e.1]?.getD "String" = "String" := by
      cases found : types[e.1]? with
      | none => rfl
      | some type => exact strings e.1 type found
    rw [List.foldl_append] at h
    simp only [List.foldl_cons, List.foldl_nil, appendParam, type] at h
    rw [utf16_append] at h
    obtain ⟨mid, before, entry⟩ := run_append h
    have added := weight_paramText entry
    have written : mid.weight ≤
        (entries.map fun e => (utf16 e.1).length + (utf16 e.2).length + 11).sum + 1 := by
      split at before
      next => exact Nat.le_succ_of_le (ih before)
      next =>
        rw [utf16_append] at before
        obtain ⟨last, before, comma⟩ := run_append before
        have := ih before
        have := weight_run comma
        simp only [show (utf16 ",").length = 1 by decide] at this
        omega
    rw [List.map_append, List.sum_append, List.map_singleton, List.sum_singleton]
    omega

end ParamHandler

end PwDart
