import PwDart.JsonNesting
import PwDart.NodeParamExact
import PwDart.ParamLifetimes
import PwDart.SnapshotGrammar

namespace PwDart

open Json Json.Parser ParamHandler LinkedMap

/-- A call of `setNodeParam`. -/
structure SetNodeParam where
  nodeId : Int
  key : Text
  value : Value

namespace SetNodeParam

/-- The id as it crosses the FFI. -/
def node (c : SetNodeParam) : UInt32 := UInt32.ofInt c.nodeId

/-- What `set_param` is called with for it. -/
def call (c : SetNodeParam) : ParamCall := ⟨c.node, nativeParamJson c.key (toDartText c.value)⟩

/-- Key and value stand for themselves between quotes, and the text of the value is JSON. -/
structure Legible (c : SetNodeParam) : Prop where
  key : IsVerbatim c.key
  text : IsVerbatim (toDartText c.value)
  json : ∃ v, decode (toDartText c.value) = some v

/-- The parameter that is listed for it. -/
def listed (c : SetNodeParam) : Option PwParam :=
  (decode (toDartText c.value)).map fun v => ⟨c.key, v, .string, ⟨true, true⟩, .null, .null, .null⟩

end SetNodeParam

namespace ClientThread

/-- The client after the calls. -/
def play (writeJson : Value → Option String) (readJson : String → Option ParamUpdate) (calls : List ThreadCall) :
    ClientThread :=
  calls.foldl (fun s call => (s.handle writeJson readJson call).1) {}

/-- `PwNativeBridge.getNodeParams`. -/
def getNodeParams (s : ClientThread) (nodeId : Int) : ParamMap :=
  deserializeParams (utf16 (s.params.getCachedParamsJson (UInt32.ofInt nodeId)))

end ClientThread

/-- The calls of `set_param` among the calls of the thread. -/
def paramCalls (calls : List ThreadCall) : List ParamCall :=
  calls.filterMap fun
    | .command (.setParam nodeId paramJson _) => some ⟨nodeId, paramJson⟩
    | _ => none

/-- Nothing else changes the parameters. -/
theorem params_play (writeJson : Value → Option String) (readJson : String → Option ParamUpdate)
    (calls : List ThreadCall) :
    (ClientThread.play writeJson readJson calls).params = setParams readJson (paramCalls calls) := by
  induction calls using List.reverseRecOn with
  | nil => rfl
  | append_singleton calls call ih =>
    rw [ClientThread.play, List.foldl_append, List.foldl_cons, List.foldl_nil, paramCalls, List.filterMap_append,
      setParams, List.foldl_append]
    change ((ClientThread.play writeJson readJson calls).handle writeJson readJson call).1.params =
      List.foldl _ (setParams readJson (paramCalls calls)) _
    rw [← ih]
    cases call with
    | callback | coreError => rfl
    | command cmd => cases cmd <;> rfl

section

variable {readJson : String → Option ParamUpdate} (reader : ReadsUpdates readJson)

include reader

/-- A text that stands for itself reaches the native side as it is. -/
theorem readJson_verbatim {key value : String} (plainKey : (utf16 key).all isPlain = true)
    (plainValue : (utf16 value).all isPlain = true) :
    readJson (nativeParamJson (utf16 key) (utf16 value)) = some ⟨key, value⟩ := by
  refine reader _ key value ?_
  have plain {text : Text} (h : text.all isPlain = true) : ∀ c ∈ text, decide (c ≠ 0) = true := by
    intro c mem
    refine decide_eq_true ?_
    rintro rfl
    exact absurd (List.all_eq_true.mp h 0 mem) (by decide)
  have uncut : (setNodeParamJson (utf16 key) (utf16 value)).takeWhile (fun c => c ≠ 0) =
      setNodeParamJson (utf16 key) (utf16 value) := by
    rw [List.takeWhile_eq_self_iff]
    intro c mem
    simp only [setNodeParamJson, List.mem_append] at mem
    rcases mem with ((((mem | mem) | mem) | mem) | mem) | mem
    · exact keyHead_nonzero c mem
    · exact plain plainKey c mem
    · exact valueHead_nonzero c mem
    · exact quote_nonzero c mem
    · exact plain plainValue c mem
    · exact tail_nonzero c mem
  rw [utf16_nativeParamJson, uncut]
  exact decode_setNodeParamJson plainKey plainValue

theorem readJson_call {c : SetNodeParam} (legible : c.Legible) :
    ∃ key value, utf16 key = c.key ∧ utf16 value = toDartText c.value ∧
      readJson c.call.paramJson = some ⟨key, value⟩ := by
  obtain ⟨⟨plainKey, key, sameKey⟩, ⟨plainValue, value, sameValue⟩, _⟩ := legible
  refine ⟨key, value, sameKey, sameValue, ?_⟩
  rw [← sameKey] at plainKey
  rw [← sameValue] at plainValue
  rw [SetNodeParam.call, ← sameKey, ← sameValue]
  exact readJson_verbatim reader plainKey plainValue

/-- The last value that was set under the key, among the calls for the node. -/
theorem lastSet_sets {node : UInt32} {sets : List SetNodeParam}
    (legible : ∀ c ∈ sets, c.node = node → c.Legible) (key : String) :
    (lastSet readJson (sets.map SetNodeParam.call) node key).map utf16 =
      ((sets.filter fun c => c.node = node ∧ c.key = utf16 key).getLast?).map fun c => toDartText c.value := by
  induction sets using List.reverseRecOn with
  | nil => rfl
  | append_singleton sets c ih =>
    have before := ih fun d mem => legible d (List.mem_append_left _ mem)
    rw [List.map_append, List.map_singleton, lastSet_append_singleton, List.filter_append, List.getLast?_append]
    by_cases here : c.node = node
    · obtain ⟨name, value, sameKey, sameValue, read⟩ := readJson_call reader (legible c (by simp) here)
      have node_ : c.call.nodeId = node := here
      simp only [read, node_, true_and]
      by_cases same : name = key
      · simp [same, here, ← sameKey, sameValue]
      · have other : ¬c.key = utf16 key := fun h => same (utf16_inj.mp (sameKey.trans h))
        simp [same, here, other, before]
    · have node_ : ¬c.call.nodeId = node := here
      cases readJson c.call.paramJson <;> simp [node_, here, before]

end

/-- The members of the object that is written for an entry of the cache. -/
def entryMembers (key : Text) (value : Value) : Members :=
  [(utf16 "key", .str key), (utf16 "value", value), (utf16 "type", .str (utf16 "String")),
    (utf16 "flags", .obj [(utf16 "readable", .bool true), (utf16 "writable", .bool true)])]

def entryParam (key : Text) (value : Value) : PwParam :=
  ⟨key, value, .string, ⟨true, true⟩, .null, .null, .null⟩

theorem fromJson_entryMembers (key : Text) (value : Value) :
    PwParam.fromJson (entryMembers key value) = .ok (entryParam key value) := rfl

namespace ParamHandler

theorem run_entryHead (items : List Value) (frames : List Frame) {mode : Mode}
    (at_ : mode = .firstItem ∨ mode = .value) :
    (utf16 "\x7b\"key\":\"").foldlM step ⟨.arr items :: frames, mode⟩ =
      some ⟨.member [] (utf16 "key") :: .arr items :: frames, .string false []⟩ := by
  rcases at_ with rfl | rfl <;> rfl

theorem run_entryMiddle (key : Text) (frames : List Frame) :
    (utf16 "\",\"value\":").foldlM step ⟨.member [] (utf16 "key") :: frames, .string false key⟩ =
      some ⟨.member [(utf16 "key", .str key)] (utf16 "value") :: frames, .value⟩ := rfl

theorem run_entryType (members : Members) (frames : List Frame) :
    (utf16 "\"type\":\"String").foldlM step ⟨.obj members :: frames, .key⟩ =
      some ⟨.member members (utf16 "type") :: frames, .string false (utf16 "String")⟩ := rfl

/-- An entry of a key that stands for itself and a value that is JSON is read as it was meant. -/
theorem run_paramText {key value : String} {v : Value} (plain : (utf16 key).all isPlain = true)
    (json : decode (utf16 value) = some v) (items : List Value) (frames : List Frame) {mode : Mode}
    (at_ : mode = .firstItem ∨ mode = .value) :
    (utf16 (paramText key value "String")).foldlM step ⟨.arr items :: frames, mode⟩ =
      some ⟨.arr (items ++ [.obj (entryMembers (utf16 key) v)]) :: frames, .after⟩ := by
  obtain ⟨p, run, ended⟩ := run_of_decode
    (takesValue_member [(utf16 "key", .str (utf16 key))] (utf16 "value") (.arr items :: frames)) json
  have comma : p.step (unit ',') =
      some ⟨.obj [(utf16 "key", .str (utf16 key)), (utf16 "value", v)] :: .arr items :: frames, .key⟩ :=
    ended.step_eq (Or.inl rfl)
  have parts : paramText key value "String" = "\x7b\"key\":\"" ++ (key ++ ("\",\"value\":" ++ (value ++ ("," ++
      ("\"type\":\"String" ++ ("\",\"flags\":\x7b\"readable\":true,\"writable\":true\x7d" ++ "\x7d")))))) := by
    unfold paramText
    simp only [String.append_assoc]
    rfl
  rw [parts]
  simp only [utf16_append]
  have separated : (utf16 ",").foldlM step p =
      some ⟨.obj [(utf16 "key", .str (utf16 key)), (utf16 "value", v)] :: .arr items :: frames, .key⟩ := by
    change [unit ','].foldlM step p = _
    rw [List.foldlM_cons, comma]
    rfl
  have closed : (utf16 "\x7d").foldlM step ⟨.obj (entryMembers (utf16 key) v) :: .arr items :: frames, .after⟩ =
      some ⟨.arr (items ++ [.obj (entryMembers (utf16 key) v)]) :: frames, .after⟩ := rfl
  have typed := run_entryType [(utf16 "key", .str (utf16 key)), (utf16 "value", v)] (.arr items :: frames)
  have flags := run_flagsTail [(utf16 "key", .str (utf16 key)), (utf16 "value", v)] (utf16 "type") (utf16 "String")
    (.arr items :: frames)
  exact run_trans (run_entryHead items frames at_) (run_trans (run_string plain) (run_trans
    (run_entryMiddle (utf16 key) _) (run_trans run (run_trans separated (run_trans typed (run_trans flags closed))))))

/-- The object that an entry of the cache is read as. -/
def entryItem (e : String × String) : Value :=
  .obj (entryMembers (utf16 e.1) ((decode (utf16 e.2)).getD .null))

/-- The loop writes the entries as a list that is still open. -/
theorem run_entries {types : StringMap} (strings : ∀ key type : String, types[key]? = some type → type = "String")
    {entries : List (String × String)}
    (legible : ∀ e ∈ entries, (utf16 e.1).all isPlain = true ∧ ∃ v, decode (utf16 e.2) = some v) :
    (entries.foldl (appendParam types) ("[", true)).2 = entries.isEmpty ∧
      (utf16 (entries.foldl (appendParam types) ("[", true)).1).foldlM step {} =
        some ⟨[.arr (entries.map entryItem)], if entries.isEmpty then .firstItem else .after⟩ := by
  induction entries using List.reverseRecOn with
  | nil =>
    have opened : (utf16 "[").foldlM step {} = some ⟨[.arr []], .firstItem⟩ := rfl
    exact ⟨rfl, opened⟩
  | append_singleton entries e ih =>
    obtain ⟨first, before⟩ := ih fun d mem => legible d (List.mem_append_left _ mem)
    obtain ⟨plain, v, json⟩ := legible e (by simp)
    have type : types[e.1]?.getD "String" = "String" := by
      cases found : types[e.1]? with
      | none => rfl
      | some type => exact strings e.1 type found
    have item : entryItem e = .obj (entryMembers (utf16 e.1) v) := by
      rw [entryItem, json]
      rfl
    have notEmpty : (entries ++ [e]).isEmpty = false := by simp
    rw [List.foldl_append, List.foldl_cons, List.foldl_nil, notEmpty, List.map_append, List.map_singleton, item]
    simp only [appendParam, type, first, utf16_append]
    -- a comma stands before every entry but the first
    obtain ⟨mode, at_, separated⟩ : ∃ mode, (mode = .firstItem ∨ mode = .value) ∧
        (utf16 (if entries.isEmpty then (entries.foldl (appendParam types) ("[", true)).1
          else (entries.foldl (appendParam types) ("[", true)).1 ++ ",")).foldlM step {} =
            some ⟨[.arr (entries.map entryItem)], mode⟩ := by
      cases entries with
      | nil => exact ⟨.firstItem, Or.inl rfl, before⟩
      | cons d entries =>
        refine ⟨.value, Or.inr rfl, ?_⟩
        simp only [List.isEmpty_cons, Bool.false_eq_true, if_false, utf16_append]
        exact run_trans before rfl
    exact ⟨trivial, run_trans separated (run_paramText plain json _ [] at_)⟩

theorem decode_entries {types : StringMap} (strings : ∀ key type : String, types[key]? = some type → type = "String")
    {entries : List (String × String)}
    (legible : ∀ e ∈ entries, (utf16 e.1).all isPlain = true ∧ ∃ v, decode (utf16 e.2) = some v) :
    decode (utf16 ((entries.foldl (appendParam types) ("[", true)).1 ++ "]")) = some (.arr (entries.map entryItem)) := by
  have run := (run_entries strings legible).2
  rw [utf16_append, decode, List.foldlM_append, run]
  cases entries <;> rfl

end ParamHandler

/-- What is listed for an entry of the cache. -/
def listedEntry (e : String × String) : PwParam := entryParam (utf16 e.1) ((decode (utf16 e.2)).getD .null)

theorem deserializeParams_entries {types : StringMap}
    (strings : ∀ key type : String, types[key]? = some type → type = "String") {entries : List (String × String)}
    (legible : ∀ e ∈ entries, (utf16 e.1).all isPlain = true ∧ ∃ v, decode (utf16 e.2) = some v) :
    deserializeParams (utf16 ((entries.foldl (appendParam types) ("[", true)).1 ++ "]")) =
      collected PwParam.key (entries.map listedEntry) := by
  have listed : (entries.map entryItem).foldlM paramStep ∅ =
      .ok (collected PwParam.key (entries.map listedEntry)) := by
    refine (foldlM_put_iff paramStep_iff).mpr ⟨_, ?_, rfl⟩
    rw [Decodes, List.forall₂_map_left_iff, List.forall₂_map_right_iff, List.forall₂_same]
    exact fun e _ => fromJson_entryMembers _ _
  have read : readParams (utf16 ((entries.foldl (appendParam types) ("[", true)).1 ++ "]")) =
      .ok (collected PwParam.key (entries.map listedEntry)) := by
    rw [readParams, jsonDecode_iff.mpr (decode_entries strings legible)]
    exact listed
  rw [deserializeParams, read]

theorem mem_sets_of_getLast? {sets : List SetNodeParam} {node : UInt32} {key : Text} {c : SetNodeParam}
    (found : (sets.filter fun c => c.node = node ∧ c.key = key).getLast? = some c) :
    c ∈ sets ∧ c.node = node ∧ c.key = key := by
  simpa using List.mem_filter.mp (List.mem_of_getLast? found)

/-- No key is listed twice. -/
theorem nodup_listedEntry (texts : StringMap) : ((texts.toList.map listedEntry).map PwParam.key).Nodup := by
  have keys : (texts.toList.map Prod.fst).Nodup := by
    rw [Std.ExtTreeMap.map_fst_toList_eq_keys]
    exact Std.ExtTreeMap.nodup_keys
  have named := keys.map fun _ _ same => utf16_inj.mp same
  rw [List.map_map] at named ⊢
  exact named

section

variable {readJson : String → Option ParamUpdate} {sets : List SetNodeParam} {node : UInt32} {params : NodeParams}

theorem mem_entries_iff (held : (setParams readJson (sets.map SetNodeParam.call)).cache[node]? = some params)
    {e : String × String} :
    e ∈ params.params.toList ↔ lastSet readJson (sets.map SetNodeParam.call) node e.1 = some e.2 := by
  rw [← (caches_setParams readJson (sets.map SetNodeParam.call)).last, held]
  exact Std.ExtTreeMap.mem_toList_iff_getElem?_eq_some

/-- An entry has the text of the last call that set its key. -/
theorem exists_set_of_entry (reader : ReadsUpdates readJson) (legible : ∀ c ∈ sets, c.node = node → c.Legible)
    (held : (setParams readJson (sets.map SetNodeParam.call)).cache[node]? = some params) {e : String × String}
    (mem : e ∈ params.params.toList) :
    ∃ c, (sets.filter fun c => c.node = node ∧ c.key = utf16 e.1).getLast? = some c ∧
      toDartText c.value = utf16 e.2 := by
  have text := lastSet_sets reader legible e.1
  rw [(mem_entries_iff held).mp mem] at text
  exact Option.map_eq_some_iff.mp text.symm

theorem legible_of_entry (reader : ReadsUpdates readJson) (legible : ∀ c ∈ sets, c.node = node → c.Legible)
    (held : (setParams readJson (sets.map SetNodeParam.call)).cache[node]? = some params) {e : String × String}
    (mem : e ∈ params.params.toList) : (utf16 e.1).all isPlain = true ∧ ∃ v, decode (utf16 e.2) = some v := by
  obtain ⟨c, found, text⟩ := exists_set_of_entry reader legible held mem
  obtain ⟨among, here, sameKey⟩ := mem_sets_of_getLast? found
  obtain ⟨plain, _, json⟩ := legible c among here
  rw [← sameKey, ← text]
  exact ⟨plain.1, json⟩

/-- What is listed under a key is the last value that was set for it. -/
theorem mem_listed_iff (reader : ReadsUpdates readJson) (legible : ∀ c ∈ sets, c.node = node → c.Legible)
    (held : (setParams readJson (sets.map SetNodeParam.call)).cache[node]? = some params) {key : Text}
    {param : PwParam} :
    param ∈ params.params.toList.map listedEntry ∧ param.key = key ↔
      ∃ c, (sets.filter fun c => c.node = node ∧ c.key = key).getLast? = some c ∧ c.listed = some param := by
  constructor
  · rintro ⟨mem, rfl⟩
    obtain ⟨e, among, rfl⟩ := List.mem_map.mp mem
    obtain ⟨c, found, text⟩ := exists_set_of_entry reader legible held among
    obtain ⟨_, v, json⟩ := legible_of_entry reader legible held among
    refine ⟨c, found, ?_⟩
    obtain ⟨_, _, sameKey⟩ := mem_sets_of_getLast? found
    rw [SetNodeParam.listed, text, json, listedEntry, json, sameKey]
    rfl
  · rintro ⟨c, found, listed⟩
    obtain ⟨among, here, rfl⟩ := mem_sets_of_getLast? found
    obtain ⟨name, text, sameKey, sameText, _⟩ := readJson_call reader (legible c among here)
    obtain ⟨v, json, rfl⟩ := Option.map_eq_some_iff.mp listed
    refine ⟨List.mem_map.mpr ⟨(name, text), (mem_entries_iff held).mpr ?_, ?_⟩, rfl⟩
    · have set := lastSet_sets reader legible name
      rw [sameKey, found, Option.map_some, ← sameText] at set
      obtain ⟨other, set, same⟩ := Option.map_eq_some_iff.mp set
      rw [set, utf16_inj.mp same]
    · rw [listedEntry, sameKey, sameText, json]
      rfl

end

/-- The text of the parameters lists, for a node, exactly the keys that were set, each with its last value. -/
theorem lookup_setParams {readJson : String → Option ParamUpdate} (reader : ReadsUpdates readJson)
    {sets : List SetNodeParam} {node : UInt32} (legible : ∀ c ∈ sets, c.node = node → c.Legible) (key : Text) :
    (deserializeParams (utf16 ((setParams readJson (sets.map SetNodeParam.call)).getCachedParamsJson node))).lookup key =
      ((sets.filter fun c => c.node = node ∧ c.key = key).getLast?).bind SetNodeParam.listed := by
  have known := caches_setParams readJson (sets.map SetNodeParam.call)
  cases held : (setParams readJson (sets.map SetNodeParam.call)).cache[node]? with
  | none =>
    have empty : deserializeParams (utf16 "[]") = ∅ := rfl
    rw [getCachedParamsJson, held, empty]
    cases found : (sets.filter fun c => c.node = node ∧ c.key = key).getLast? with
    | none => rfl
    | some c =>
      obtain ⟨mem, here, rfl⟩ := mem_sets_of_getLast? found
      obtain ⟨name, _, sameKey, _, read⟩ := readJson_call reader (legible c mem here)
      have unset := (known.unset node).mp held c.call (List.mem_map_of_mem mem) here
      rw [unset] at read
      cases read
  | some params =>
    rw [getCachedParamsJson, held]
    simp only
    rw [deserializeParams_entries (known.strings node params held) fun e => legible_of_entry reader legible held]
    ext param
    rw [lookup_collected_iff (nodup_listedEntry params.params), Option.bind_eq_some_iff]
    exact mem_listed_iff reader legible held

/-- What is set through Dart is read back through Dart: in every run of the PipeWire thread, `getNodeParams` lists
for a node exactly the keys that were set, each with the JSON value that the text of its last value spells. -/
theorem set_then_get (writeJson : Value → Option String) {readJson : String → Option ParamUpdate}
    (reader : ReadsUpdates readJson) {calls : List ThreadCall} {sets : List SetNodeParam}
    (made : paramCalls calls = sets.map SetNodeParam.call) {nodeId : Int}
    (legible : ∀ c ∈ sets, c.node = UInt32.ofInt nodeId → c.Legible) (key : Text) :
    ((ClientThread.play writeJson readJson calls).getNodeParams nodeId).lookup key =
      ((sets.filter fun c => c.node = UInt32.ofInt nodeId ∧ c.key = key).getLast?).bind SetNodeParam.listed := by
  rw [ClientThread.getNodeParams, params_play, made]
  exact lookup_setParams reader legible key

def setVolume : SetNodeParam := ⟨7, utf16 "volume", .double (utf16 "0.75")⟩

def setMute (mute : Bool) : SetNodeParam := ⟨7, utf16 "mute", .bool mute⟩

def setCalls (sets : List SetNodeParam) : List ThreadCall :=
  sets.map fun c => .command (.setParam c.call.nodeId c.call.paramJson 0)

theorem set_then_get_muted :
    let s := ClientThread.play (fun _ => none) readParamUpdate (setCalls [setMute true, setVolume, setMute false])
    (s.getNodeParams 7).lookup (utf16 "mute") =
      some ⟨utf16 "mute", .bool false, .string, ⟨true, true⟩, .null, .null, .null⟩ := by
  have volume : toDartText setVolume.value = utf16 "0.75" := by decide +kernel
  have legible : ∀ c ∈ [setMute true, setVolume, setMute false], c.node = UInt32.ofInt 7 → c.Legible := by
    intro c mem _
    simp only [List.mem_cons, List.not_mem_nil, or_false] at mem
    rcases mem with rfl | rfl | rfl
    · exact ⟨⟨by decide, "mute", rfl⟩, ⟨by decide, "true", rfl⟩, .bool true, rfl⟩
    · exact ⟨⟨by decide, "volume", rfl⟩, ⟨by rw [volume]; decide, "0.75", volume.symm⟩, .double (utf16 "0.75"),
        by rw [volume]; rfl⟩
    · exact ⟨⟨by decide, "mute", rfl⟩, ⟨by decide, "false", rfl⟩, .bool false, rfl⟩
  exact @set_then_get (fun _ => none) _ readsParamUpdate_members.complete
    (setCalls [setMute true, setVolume, setMute false]) _ rfl 7 legible (utf16 "mute")

end PwDart
