import PwDart.ParamText
import PwDart.ParamCache

namespace PwDart

open Json Json.Parser ParamHandler

/-- The parameters of a node as Dart reads them are those that were set, each a string with the value
it was last set to. -/
def ReadsBack (readJson : String → Option ParamUpdate) (calls : List ParamCall) (nodeId : UInt32) :
    Prop :=
  let shown := deserializeParams (utf16 ((setParams readJson calls).getCachedParamsJson nodeId))
  (∀ name, (shown.lookup name).isSome ↔
    ∃ key, name = utf16 key ∧ (lastSet readJson calls nodeId key).isSome) ∧
  ∀ key value, lastSet readJson calls nodeId key = some value →
    ∃ param, shown.lookup (utf16 key) = some param ∧ param.type = .string ∧
      param.value = .str (utf16 value)

/-- An item of the decoded list that is the parameter of this name with this string. -/
def Shows (item : Value) (name value : Text) : Prop :=
  ∃ members param, item = .obj members ∧ PwParam.fromJson members = .ok param ∧ param.key = name ∧
    param.type = .string ∧ param.value = .str value

theorem length_of_string {s : Text} (h : PwParamType.fromString s = .string) : s.length = 6 := by
  unfold PwParamType.fromString at h
  have upper : (utf16 "String").length = 6 := by decide
  have lower : (utf16 "string").length = 6 := by decide
  split_ifs at h with h1 h2 h3 h4
  rcases h4 with rfl | rfl
  · exact upper
  · exact lower

theorem weight_of_shows {item : Value} {name value : Text} (h : Shows item name value) :
    name.length + value.length + 12 ≤ item.weight := by
  obtain ⟨members, param, rfl, read, rfl, string, same⟩ := h
  obtain ⟨key, value_, type, text, isType⟩ := PwParam.fromJson_ok read
  have parts := get_weights_le members (a := "key") (b := "value") (c := "type") (by decide) (by decide)
    (by decide)
  have six := length_of_string (isType.symm.trans string)
  have typed : Members.get members "type" = .str type := by
    cases found : Members.get members "type" with
    | str s =>
      rw [found] at text
      cases text
      rfl
    | null =>
      rw [found] at text
      cases text
      exact absurd six (by decide)
    | bool | int | double | arr | obj =>
      rw [found] at text
      cases text
  rw [key, ← value_, same, typed] at parts
  simp only [Value.weight] at parts ⊢
  omega

/-- Every entry has an item to itself, so the items are at least as heavy. -/
theorem sum_le_weights {entries : List (String × String)} (distinct : (entries.map Prod.fst).Nodup)
    {items : List Value}
    (placed : ∀ e ∈ entries, ∃ item ∈ items, Shows item (utf16 e.1) (utf16 e.2)) :
    (entries.map fun e => (utf16 e.1).length + (utf16 e.2).length + 12).sum ≤ weights items := by
  induction items generalizing entries with
  | nil =>
    cases entries with
    | nil => exact Nat.zero_le _
    | cons e entries =>
      obtain ⟨item, hitem, _⟩ := placed e (List.mem_cons_self ..)
      cases hitem
  | cons item items ih =>
    rw [weights]
    by_cases here : ∃ e ∈ entries, Shows item (utf16 e.1) (utf16 e.2)
    · obtain ⟨e, he, shown⟩ := here
      obtain ⟨before, after, rfl⟩ := List.append_of_mem he
      rw [List.map_append, List.map_cons, List.nodup_middle, List.nodup_cons] at distinct
      have alone : ((before ++ after).map Prod.fst).Nodup := by
        rw [List.map_append]
        exact distinct.2
      have rest := ih alone fun other hother => by
        obtain ⟨place, hplace, placedThere⟩ := placed other (by
          rcases List.mem_append.mp hother with h | h <;> simp [h])
        rcases List.mem_cons.mp hplace with rfl | hplace
        · have same : other.1 = e.1 := by
            obtain ⟨members, param, rfl, read, isKey, _⟩ := placedThere
            obtain ⟨_, param', object, read', isKey', _⟩ := shown
            cases object
            cases read.symm.trans read'
            exact utf16_inj.mp (isKey.symm.trans isKey')
          refine absurd ?_ distinct.1
          rw [← List.map_append, ← same]
          exact List.mem_map_of_mem hother
        · exact ⟨place, hplace, placedThere⟩
      have heavy := weight_of_shows shown
      simp only [List.map_append, List.map_cons, List.sum_append, List.sum_cons] at rest ⊢
      omega
    · refine Nat.le_trans (ih distinct fun e he => ?_) (Nat.le_add_left _ _)
      obtain ⟨place, hplace, shown⟩ := placed e he
      rcases List.mem_cons.mp hplace with rfl | hplace
      · exact absurd ⟨e, he, shown⟩ here
      · exact ⟨place, hplace, shown⟩

theorem weights_le_of_decode {held : NodeParams}
    (strings : ∀ (key type : String), held.types[key]? = some type → type = "String")
    (entries : List (String × String)) {items : List Value}
    (h : decode (utf16 ((entries.foldl (appendParam held.types) ("[", true)).1 ++ "]")) =
      some (.arr items)) :
    weights items ≤ (entries.map fun e => (utf16 e.1).length + (utf16 e.2).length + 11).sum := by
  obtain ⟨q, run, ended⟩ := Option.bind_eq_some_iff.mp h
  rw [utf16_append] at run
  obtain ⟨p, before, bracket⟩ := run_append run
  obtain ⟨last, step, done⟩ := run_cons bracket
  cases Option.some.inj done
  have light := weight_lastUnit step (by decide) ended
  rw [Value.weight] at light
  exact Nat.le_trans light (weight_params strings entries before)

theorem params_empty_of_readsBack {readJson : String → Option ParamUpdate} {calls : List ParamCall}
    {nodeId : UInt32} {held : NodeParams} (present : (setParams readJson calls).cache[nodeId]? = some held)
    (back : ReadsBack readJson calls nodeId) : held.params = ∅ := by
  have known := caches_setParams readJson calls
  obtain ⟨_, values⟩ := back
  rw [getCachedParamsJson, present] at values
  simp only [deserializeParams] at values
  have entry (e : String × String) (he : e ∈ held.params.toList) :
      lastSet readJson calls nodeId e.1 = some e.2 := by
    rw [← known.last, present]
    exact Std.ExtTreeMap.mem_toList_iff_getElem?_eq_some.mp he
  by_contra filled
  have some_ : held.params.toList ≠ [] := fun h => filled (Std.ExtTreeMap.toList_eq_nil_iff.mp h)
  split at values
  next shown read =>
    obtain ⟨items, decoded, sources⟩ := lookup_readParams read
    have upper := weights_le_of_decode (known.strings nodeId held present) _ decoded
    have lower := sum_le_weights
      (by rw [Std.ExtTreeMap.map_fst_toList_eq_keys]; exact Std.ExtTreeMap.nodup_keys)
      fun e (he : e ∈ held.params.toList) => by
        obtain ⟨param, found, string, same⟩ := values e.1 e.2 (entry e he)
        obtain ⟨item, hitem, members, object, read, key⟩ := sources _ _ found
        exact ⟨item, hitem, members, param, object, read, key, string, same⟩
    have apart (entries : List (String × String)) :
        (entries.map fun e => (utf16 e.1).length + (utf16 e.2).length + 12).sum =
          (entries.map fun e => (utf16 e.1).length + (utf16 e.2).length + 11).sum + entries.length := by
      induction entries with
      | nil => rfl
      | cons e entries ih =>
        simp only [List.map_cons, List.sum_cons, List.length_cons, ih]
        omega
    rw [apart] at lower
    exact some_ (List.eq_nil_of_length_eq_zero (by omega))
  next =>
    obtain ⟨e, he⟩ := List.exists_mem_of_ne_nil _ some_
    obtain ⟨param, found, _⟩ := values e.1 e.2 (entry e he)
    simp at found

/-- Whatever is set for a node, its parameters do not read back; only a node without any reads back. -/
theorem params_read_back_iff (readJson : String → Option ParamUpdate) (calls : List ParamCall)
    (nodeId : UInt32) :
    ReadsBack readJson calls nodeId ↔
      ∀ c ∈ calls, c.nodeId = nodeId → readJson c.paramJson = none := by
  have known := caches_setParams readJson calls
  rw [← known.unset]
  constructor
  · intro back
    cases present : (setParams readJson calls).cache[nodeId]? with
    | none => rfl
    | some held => exact absurd (params_empty_of_readsBack present back) (known.filled nodeId held present)
  · intro absent
    have none_ (key : String) : lastSet readJson calls nodeId key = none := by
      rw [← known.last, absent]
      rfl
    have empty : deserializeParams (utf16 ((setParams readJson calls).getCachedParamsJson nodeId)) = ∅ := by
      rw [getCachedParamsJson, absent]
      rfl
    unfold ReadsBack
    simp [empty, none_]

/-- The value of a string parameter is written without quotes, and the list is lost. -/
theorem param_not_read_back :
    let text := "\x7b\"key\":\"name\",\"value\":\"Main\"\x7d"
    ¬ReadsBack (fun json => if json = text then some ⟨"name", "Main"⟩ else none)
      [⟨7, text⟩] 7 := by
  intro text back
  obtain ⟨param, found, _⟩ := back.2 "name" "Main" (by decide)
  have lost : ((deserializeParams (utf16 ((setParams
      (fun json => if json = text then some ⟨"name", "Main"⟩ else none)
        [⟨7, text⟩]).getCachedParamsJson 7))).lookup (utf16 "name")).isNone = true := by
    decide +kernel
  rw [found] at lost
  cases lost

end PwDart
