import PwDart.JsonFront
import PwDart.LabelledRun
import PwDart.NodeParamText
import PwDart.ParamCache

namespace PwDart

open Json LabelledRun

/-- A string under one of the two names of an update. -/
def IsUpdateMember (member : Text × Value) : Prop :=
  (member.1 = utf16 "key" ∨ member.1 = utf16 "value") ∧ ∃ s : String, member.2 = .str (utf16 s)

/-- The text is an object that gives a string as key and a string as value. -/
def GivesUpdate (json : String) : Prop :=
  ∃ members : Members, decode (utf16 json) = some (.obj members) ∧
    (∃ key : String, members.get "key" = .str (utf16 key)) ∧ ∃ value : String, members.get "value" = .str (utf16 value)

/-- The object has strings for an update and nothing else, but not both of them. -/
def LacksField (json : String) : Prop :=
  ∃ members : Members, decode (utf16 json) = some (.obj members) ∧ (∀ member ∈ members, IsUpdateMember member) ∧
    ¬(utf16 "key" ∈ members.map Prod.fst ∧ utf16 "value" ∈ members.map Prod.fst)

/-- The object gives both strings, and has a member that is no string of an update. -/
def HasSurplus (json : String) : Prop :=
  GivesUpdate json ∧ ∀ members : Members, decode (utf16 json) = some (.obj members) →
    ∃ member ∈ members, ¬IsUpdateMember member

/-- The text begins with an object that has strings for an update and nothing else, and `passes` holds of what
stands behind it. -/
def BeginsUpdate (passes : Text → Prop) (json : String) : Prop :=
  ∃ (before rest : Text) (members : Members), utf16 json = before ++ rest ∧ passes rest ∧
    decode before = some (.obj members) ∧ ∀ member ∈ members, IsUpdateMember member

/-- The text begins with such an object and is no object as a whole. -/
def HasTail (passes : Text → Prop) (json : String) : Prop :=
  BeginsUpdate passes json ∧ ∀ members : Members, decode (utf16 json) ≠ some (.obj members)

/-- What is relied on of `glz::read_json`: missing fields are ignored, unknown ones refused. `passes` is what it
lets stand behind the object: by default it does not look there, and anything may. -/
structure AcceptsUpdates (passes : Text → Prop) (readJson : String → Option ParamUpdate) : Prop where
  nothing : passes []
  accepts : ∀ json, (readJson json).isSome ↔ BeginsUpdate passes json

/-- A reader that does not look behind the object. -/
def readUpdateFront (json : String) : Option ParamUpdate :=
  match Parser.front (utf16 json) {} with
  | some (.obj members) => members.foldlM readMember {}
  | _ => none

/-- A call with what it returned, what it found and what it left. -/
structure ParamAnswer where
  call : ParamCall
  result : Int
  before : ParamHandler
  after : ParamHandler
  posted : List GraphEvent

/-- The handler, and all calls of `set_param` so far. -/
structure ParamUpdates where
  handler : ParamHandler := {}
  answers : List ParamAnswer := []

namespace ParamUpdates

def posted (s : ParamUpdates) : List GraphEvent := s.answers.flatMap ParamAnswer.posted

def answer (readJson : String → Option ParamUpdate) (h : ParamHandler) (c : ParamCall) : ParamAnswer :=
  let (after, result, posted) := h.setParam readJson c.nodeId c.paramJson
  ⟨c, result, h, after, posted⟩

def next (readJson : String → Option ParamUpdate) (s : ParamUpdates) (c : ParamCall) : Option ParamUpdates :=
  some ⟨(answer readJson s.handler c).after, s.answers ++ [answer readJson s.handler c]⟩

/-- The map that the events describe. -/
def replayStep (values : UInt32 × String → Option String) : GraphEvent → UInt32 × String → Option String
  | .paramChanged nodeId key value => Function.update values (nodeId, key) (some value)
  | _ => values

def replay (events : List GraphEvent) : UInt32 × String → Option String := events.foldl replayStep fun _ => none

/-- A call succeeds exactly if its text gives an update, a failed one leaves nothing behind, and the events
describe the cache. -/
structure Exact (s : ParamUpdates) : Prop where
  answered : ∀ answer ∈ s.answers, (answer.result = 0 ↔ GivesUpdate answer.call.paramJson)
  atomic : ∀ answer ∈ s.answers, answer.result < 0 → answer.after.cache = answer.before.cache ∧ answer.posted = []
  replayed : ∀ (nodeId : UInt32) (key : String),
    replay s.posted (nodeId, key) = s.handler.cache[nodeId]?.bind fun held => held.params[key]?

/-- The text lacks no field of an update, has no other, and ends with its object. -/
def Whole (passes : Text → Prop) (_ : ParamUpdates) (c : ParamCall) : Prop :=
  ¬LacksField c.paramJson ∧ ¬HasSurplus c.paramJson ∧ ¬HasTail passes c.paramJson

end ParamUpdates

theorem get_isText {members : Members} {name : String} (strings : ∀ member ∈ members, IsUpdateMember member)
    (present : utf16 name ∈ members.map Prod.fst) : ∃ s : String, members.get name = .str (utf16 s) := by
  induction members using List.reverseRecOn with
  | nil => cases present
  | append_singleton members member ih =>
    obtain ⟨field, v⟩ := member
    rw [get_append_singleton]
    obtain ⟨_, s, isText⟩ := strings (field, v) (by simp)
    split
    next => exact ⟨s, isText⟩
    next other =>
      rw [List.map_append, List.mem_append] at present
      rcases present with before | last
      · exact ih (fun m mem => strings m (List.mem_append_left _ mem)) before
      · exact absurd (List.mem_singleton.mp last).symm other

theorem mem_names_of_get {members : Members} {name : String} {v : Value} (found : members.get name = v)
    (given : v ≠ .null) : utf16 name ∈ members.map Prod.fst := by
  induction members using List.reverseRecOn with
  | nil => exact absurd found.symm given
  | append_singleton members member ih =>
    obtain ⟨field, w⟩ := member
    rw [get_append_singleton] at found
    split at found
    next here => simp [here]
    next =>
      rw [List.map_append]
      exact List.mem_append_left _ (ih found)

theorem beginsUpdate_of_decode {passes : Text → Prop} (nothing : passes []) {json : String} {members : Members}
    (decoded : decode (utf16 json) = some (.obj members)) (strings : ∀ member ∈ members, IsUpdateMember member) :
    BeginsUpdate passes json :=
  ⟨utf16 json, [], members, (List.append_nil _).symm, nothing, decoded, strings⟩

/-- The object at the start of a text is the only one that the whole text can be. -/
theorem strings_of_beginsUpdate {passes : Text → Prop} {json : String} (begins : BeginsUpdate passes json)
    {members : Members} (decoded : decode (utf16 json) = some (.obj members)) :
    ∀ member ∈ members, IsUpdateMember member := by
  obtain ⟨before, rest, others, split, _, first, strings⟩ := begins
  rw [split] at decoded
  cases Value.obj.inj (Parser.decode_append_unique first decoded)
  exact strings

/-- Whether a text begins with an update and whether it gives one are the same but for what it lacks, has in surplus
or has behind its object. -/
theorem begins_iff_gives {passes : Text → Prop} (nothing : passes []) {json : String} :
    (BeginsUpdate passes json ↔ GivesUpdate json) ↔ ¬LacksField json ∧ ¬HasSurplus json ∧ ¬HasTail passes json := by
  constructor
  · intro same
    refine ⟨?_, ?_, ?_⟩
    · rintro ⟨members, decoded, strings, lacks⟩
      obtain ⟨others, again, ⟨key, hasKey⟩, value, hasValue⟩ := same.mp (beginsUpdate_of_decode nothing decoded strings)
      cases Value.obj.inj (Option.some.inj (decoded.symm.trans again))
      exact lacks ⟨mem_names_of_get hasKey nofun, mem_names_of_get hasValue nofun⟩
    · rintro ⟨gives, surplus⟩
      have begins := same.mpr gives
      obtain ⟨members, decoded, _⟩ := gives
      obtain ⟨member, mem, other⟩ := surplus members decoded
      exact other (strings_of_beginsUpdate begins decoded member mem)
    · rintro ⟨begins, none⟩
      obtain ⟨members, decoded, _⟩ := same.mp begins
      exact none members decoded
  · rintro ⟨whole, plain, ended⟩
    constructor
    · intro begins
      obtain ⟨members, decoded⟩ : ∃ members : Members, decode (utf16 json) = some (.obj members) := by
        by_contra none
        exact ended ⟨begins, fun members decoded => none ⟨members, decoded⟩⟩
      have strings := strings_of_beginsUpdate begins decoded
      have both : utf16 "key" ∈ members.map Prod.fst ∧ utf16 "value" ∈ members.map Prod.fst := by
        by_contra lacks
        exact whole ⟨members, decoded, strings, lacks⟩
      exact ⟨members, decoded, get_isText strings both.1, get_isText strings both.2⟩
    · intro gives
      by_contra refused
      refine plain ⟨gives, fun members decoded => ?_⟩
      by_contra all
      push Not at all
      exact refused (beginsUpdate_of_decode nothing decoded all)

namespace ParamUpdates

theorem replay_append (events more : List GraphEvent) : replay (events ++ more) = more.foldl replayStep (replay events) :=
  List.foldl_append

theorem result_eq_zero_iff {readJson : String → Option ParamUpdate} {h : ParamHandler} (client : h.client = true)
    (c : ParamCall) : (h.setParam readJson c.nodeId c.paramJson).2.1 = 0 ↔ (readJson c.paramJson).isSome := by
  unfold ParamHandler.setParam
  cases readJson c.paramJson <;> simp [client]

theorem setParam_client (readJson : String → Option ParamUpdate) (h : ParamHandler) (c : ParamCall) :
    (h.setParam readJson c.nodeId c.paramJson).1.client = h.client := by
  unfold ParamHandler.setParam
  cases client : h.client <;> cases readJson c.paramJson <;> simp [client, ParamHandler.updateCache]

theorem setParam_atomic {readJson : String → Option ParamUpdate} {h : ParamHandler} {c : ParamCall}
    (failed : (h.setParam readJson c.nodeId c.paramJson).2.1 < 0) :
    (h.setParam readJson c.nodeId c.paramJson).1.cache = h.cache ∧
      (h.setParam readJson c.nodeId c.paramJson).2.2 = [] := by
  unfold ParamHandler.setParam at failed ⊢
  cases client : h.client with
  | false => exact ⟨rfl, rfl⟩
  | true =>
    cases read : readJson c.paramJson with
    | none => exact ⟨rfl, rfl⟩
    | some update => simp [client, read] at failed

/-- The event of a call describes what the call changes in the cache. -/
theorem replay_setParam {readJson : String → Option ParamUpdate} {h : ParamHandler} {c : ParamCall}
    {values : UInt32 × String → Option String}
    (same : ∀ (nodeId : UInt32) (key : String),
      values (nodeId, key) = h.cache[nodeId]?.bind fun held => held.params[key]?) (nodeId : UInt32) (key : String) :
    (h.setParam readJson c.nodeId c.paramJson).2.2.foldl replayStep values (nodeId, key) =
      (h.setParam readJson c.nodeId c.paramJson).1.cache[nodeId]?.bind fun held => held.params[key]? := by
  unfold ParamHandler.setParam
  cases client : h.client with
  | false => exact same nodeId key
  | true =>
    cases read : readJson c.paramJson with
    | none => exact same nodeId key
    | some update =>
      change Function.update values (c.nodeId, update.key) (some update.value) (nodeId, key) =
        (h.updateCache c.nodeId update.key update.value "String").cache[nodeId]?.bind fun held => held.params[key]?
      rw [cache_updateCache]
      by_cases here : c.nodeId = nodeId
      · subst here
        rw [if_pos rfl, Option.bind_some]
        by_cases set : update.key = key
        · subst set
          rw [Function.update_self, Std.ExtTreeMap.getElem?_insert_self]
        · have other : (c.nodeId, key) ≠ (c.nodeId, update.key) := fun both => set (congrArg Prod.snd both).symm
          rw [Function.update_of_ne other, same]
          cases h.cache[c.nodeId]? <;> simp [Std.ExtTreeMap.getElem?_insert, set]
      · have other : (nodeId, key) ≠ (c.nodeId, update.key) := fun both => here (congrArg Prod.fst both).symm
        rw [if_neg here, Function.update_of_ne other, same]

theorem exact_start : Exact {} where
  answered answer mem := by cases mem
  atomic answer mem := by cases mem
  replayed nodeId key := by simp [replay, posted]

theorem exact_next {passes : Text → Prop} {readJson : String → Option ParamUpdate}
    (accepts : AcceptsUpdates passes readJson) {s t : ParamUpdates} {c : ParamCall} (client : s.handler.client = true)
    (before : s.Exact) (step : next readJson s c = some t) : t.Exact ↔ Whole passes s c := by
  cases Option.some.inj step
  have zero : (s.handler.setParam readJson c.nodeId c.paramJson).2.1 = 0 ↔ BeginsUpdate passes c.paramJson :=
    (result_eq_zero_iff client c).trans (accepts.accepts c.paramJson)
  rw [Whole, ← begins_iff_gives accepts.nothing, ← zero]
  constructor
  · intro after
    exact after.answered (answer readJson s.handler c) (List.mem_append_right _ (List.mem_singleton_self _))
  · intro answers
    refine ⟨fun answered mem => ?_, fun answered mem => ?_, fun nodeId key => ?_⟩
    · rcases List.mem_append.mp mem with earlier | now
      · exact before.answered answered earlier
      · cases List.mem_singleton.mp now
        exact answers
    · rcases List.mem_append.mp mem with earlier | now
      · exact before.atomic answered earlier
      · cases List.mem_singleton.mp now
        exact setParam_atomic
    · have all : (s.answers ++ [answer readJson s.handler c]).flatMap ParamAnswer.posted =
          s.posted ++ (s.handler.setParam readJson c.nodeId c.paramJson).2.2 := by
        rw [List.flatMap_append, List.flatMap_singleton]
        rfl
      rw [posted, all, replay_append]
      exact replay_setParam before.replayed nodeId key

end ParamUpdates

theorem readMember_isSome {member : Text × Value} {update : ParamUpdate} :
    (readMember update member).isSome ↔ IsUpdateMember member := by
  obtain ⟨name, v⟩ := member
  cases v with
  | str text =>
    have native : (∃ s : String, text = utf16 s) ↔ utf16 (toNativeUtf8 text) = text := by
      constructor
      · rintro ⟨s, rfl⟩
        rw [toNativeUtf8_utf16]
      · exact fun same => ⟨toNativeUtf8 text, same.symm⟩
    simp only [readMember, IsUpdateMember, Value.str.injEq, native]
    split_ifs <;> simp [*]
  | _ => simp [readMember, IsUpdateMember]

theorem foldlM_readMember_isSome {members : Members} {update : ParamUpdate} :
    (members.foldlM readMember update).isSome ↔ ∀ member ∈ members, IsUpdateMember member := by
  induction members generalizing update with
  | nil => simp
  | cons member members ih =>
    have first : (readMember update member).isSome ↔ IsUpdateMember member := readMember_isSome
    rw [List.foldlM_cons, List.forall_mem_cons, ← first]
    cases readMember update member with
    | none => simp
    | some next => simpa using ih

theorem acceptsUpdates_readUpdateFront : AcceptsUpdates (fun _ => True) readUpdateFront where
  nothing := trivial
  accepts json := by
    have begins : BeginsUpdate (fun _ => True) json ↔ ∃ members : Members,
        Parser.front (utf16 json) {} = some (.obj members) ∧ ∀ member ∈ members, IsUpdateMember member := by
      constructor
      · rintro ⟨before, rest, members, split, _, decoded, strings⟩
        exact ⟨members, Parser.front_iff.mpr ⟨before, rest, split, decoded⟩, strings⟩
      · rintro ⟨members, first, strings⟩
        obtain ⟨before, rest, split, decoded⟩ := Parser.front_iff.mp first
        exact ⟨before, rest, members, split, trivial, decoded, strings⟩
    rw [begins]
    unfold readUpdateFront
    split
    next members first =>
      rw [foldlM_readMember_isSome]
      constructor
      · exact fun strings => ⟨members, first, strings⟩
      · rintro ⟨others, again, strings⟩
        cases Value.obj.inj (Option.some.inj (first.symm.trans again))
        exact strings
    next other =>
      refine iff_of_false nofun ?_
      rintro ⟨members, first, _⟩
      exact other members first

namespace ParamUpdates

/-- In all states of a run calls succeed exactly if their texts give an update, fail without a trace and are
replayed by their events, exactly if no text lacks a field of an update, has another, or goes on behind its object
with something that is let pass. -/
theorem set_param_exact_iff {passes : Text → Prop} {readJson : String → Option ParamUpdate}
    (accepts : AcceptsUpdates passes readJson) {s : ParamUpdates} {cs : List ParamCall}
    (run : Run (Takes (next readJson)) {} cs s) :
    (∀ pre t, pre <+: cs → Run (Takes (next readJson)) {} pre t → t.Exact) ↔
      Run (Guarded (next readJson) (Whole passes)) {} cs s := by
  refine always_iff_guarded (I := fun s => s.handler.client = true) rfl ?_ exact_start ?_ run
  · intro a c b client step
    cases Option.some.inj step
    exact (setParam_client readJson a.handler c).trans client
  · intro a c b client before step
    exact exact_next accepts client before step

def volumeUpdate : List ParamCall :=
  [⟨7, "\x7b\"key\":\"volume\",\"value\":\"0.5\"\x7d"⟩, ⟨7, "\x7b\"key\":\"volume\""⟩]

/-- An update, and a text that ends too early. -/
theorem set_param_exact_iff_volume : ∃ s, Run (Takes (next readUpdateFront)) {} volumeUpdate s ∧ s.Exact ∧
    s.answers.map ParamAnswer.result = [0, -2] := by
  have run : Run (Takes (next readUpdateFront)) {} volumeUpdate _ := run_takes_iff.mpr rfl
  let members : Members := [(utf16 "key", .str (utf16 "volume")), (utf16 "value", .str (utf16 "0.5"))]
  have decoded : decode (utf16 "\x7b\"key\":\"volume\",\"value\":\"0.5\"\x7d") = some (.obj members) := rfl
  have strings : ∀ member ∈ members, IsUpdateMember member := by
    simp [members, IsUpdateMember]
  have gives : GivesUpdate "\x7b\"key\":\"volume\",\"value\":\"0.5\"\x7d" :=
    ⟨members, decoded, ⟨"volume", rfl⟩, "0.5", rfl⟩
  have accepts := acceptsUpdates_readUpdateFront
  have begins : BeginsUpdate (fun _ => True) "\x7b\"key\":\"volume\",\"value\":\"0.5\"\x7d" :=
    beginsUpdate_of_decode trivial decoded strings
  have whole := (begins_iff_gives accepts.nothing).mp (iff_of_true begins gives)
  have refused : ¬BeginsUpdate (fun _ => True) "\x7b\"key\":\"volume\"" := fun begins =>
    absurd ((accepts.accepts _).mpr begins) (by decide +kernel)
  have cut : decode (utf16 "\x7b\"key\":\"volume\"") = none := rfl
  have none : ¬GivesUpdate "\x7b\"key\":\"volume\"" := by
    rintro ⟨others, given, _⟩
    cases cut.symm.trans given
  have early := (begins_iff_gives accepts.nothing).mp (iff_of_false refused none)
  have first : Run (Guarded (next readUpdateFront) (Whole fun _ => True)) {} (volumeUpdate.take 1) _ :=
    Run.single ⟨whole, rfl⟩
  have guarded : Run (Guarded (next readUpdateFront) (Whole fun _ => True)) {} volumeUpdate _ :=
    Run.next first ⟨early, rfl⟩
  exact ⟨_, run, (set_param_exact_iff accepts run).mpr guarded volumeUpdate _ (List.prefix_refl _) run, rfl⟩

/-- An empty object sets the parameter of no name. -/
theorem empty_update_accepted : AcceptsUpdates (fun _ => True) readUpdateFront ∧
    ∃ s, Run (Takes (next readUpdateFront)) {} [⟨7, "\x7b\x7d"⟩] s ∧ ¬s.Exact ∧ s.posted = [.paramChanged 7 "" ""] := by
  refine ⟨acceptsUpdates_readUpdateFront, _, run_takes_iff.mpr rfl, fun exact_ => ?_, rfl⟩
  obtain ⟨members, decoded, ⟨key, given⟩, _⟩ := (exact_.answered _ (List.mem_singleton_self _)).mp rfl
  have empty : decode (utf16 "\x7b\x7d") = some (.obj []) := rfl
  cases Value.obj.inj (Option.some.inj (empty.symm.trans decoded))
  cases given

end ParamUpdates

end PwDart
