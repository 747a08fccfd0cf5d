import PwDart.LockedMonitor
import PwDart.LockedRuns
import PwDart.ParamSetGet

namespace PwDart

open Json LabelledRun Locked LinkedMap

/-- The commands that the loop runs, and what Dart asks for. -/
inductive ParamOp
  | setParam (call : ParamCall)
  | getCachedParamsJson (nodeId : UInt32)

inductive ParamResult
  | stored
  | json (text : String)

/-- Where a thread is in a section of the handler; in the loop, with the text so far and the rounds made. -/
inductive ParamSection
  | write (rest : List (IdMap NodeParams → IdMap NodeParams))
  | find (nodeId : UInt32)
  | round (nodeId : UInt32) (written : String × Bool) (made : Nat)

/-- What `set_param` returned so far, and the events it posted. -/
structure ParamAnswers where
  codes : List Int := []
  posted : List GraphEvent := []

def cacheMap : MapOf (IdMap NodeParams) UInt32 NodeParams :=
  ⟨fun m => m, fun m _ => m, fun _ _ => rfl, fun _ _ _ => rfl, fun _ => rfl⟩

/-- The writes of `update_cache`: `operator[]` makes an entry before it is assigned. -/
def updateEdits (key value type : String) : List (NodeParams → NodeParams) :=
  [fun p => { p with params := p.params.insertIfNew key "" }, fun p => { p with params := p.params.insert key value },
    fun p => { p with types := p.types.insertIfNew key "" }, fun p => { p with types := p.types.insert key type }]

def updateWrites (nodeId : UInt32) (key value type : String) : List (IdMap NodeParams → IdMap NodeParams) :=
  (fun cache => cache.insertIfNew nodeId {}) :: (updateEdits key value type).map (cacheMap.edit nodeId)

def paramSectionStep : ParamSection → IdMap NodeParams → Micro (IdMap NodeParams) ParamSection ParamResult
  | .write [], _ => .done .stored
  | .write (w :: rest), cache => .more (.write rest) (w cache)
  | .find nodeId, cache =>
    match cache[nodeId]? with
    | none => .done (.json "[]")
    | some _ => .more (.round nodeId ("[", true) 0) cache
  | .round nodeId written made, cache =>
    match cache[nodeId]? with
    | none => .done (.json (written.1 ++ "]"))
    | some nodeParams =>
      match nodeParams.params.toList[made]? with
      | none => .done (.json (written.1 ++ "]"))
      | some entry => .more (.round nodeId (ParamHandler.appendParam nodeParams.types written entry) (made + 1)) cache

/-- `set_param` and `get_cached_params_json`, cut where they take and leave the lock: `set_param` parses before, and
posts after. -/
def paramProgram (readJson : String → Option ParamUpdate) :
    Program NativeThread (IdMap NodeParams) ParamAnswers ParamOp ParamSection ParamResult where
  allowed
    | .loop, .setParam _ => true
    | .dart _, .getCachedParamsJson _ => true
    | _, _ => false
  before
    | .setParam call, m =>
      match readJson call.paramJson with
      | none => { m with codes := m.codes ++ [-2] }
      | some _ => m
    | .getCachedParamsJson _, m => m
  locks
    | .setParam call, _ => (readJson call.paramJson).isSome
    | .getCachedParamsJson _, _ => true
  enter
    | .setParam call, _ =>
      match readJson call.paramJson with
      | none => .write []
      | some update => .write (updateWrites call.nodeId update.key update.value "String")
    | .getCachedParamsJson nodeId, _ => .find nodeId
  micro := paramSectionStep
  after
    | .setParam call, _, m =>
      match readJson call.paramJson with
      | none => m
      | some update =>
        ⟨m.codes ++ [0], m.posted ++ [.paramChanged call.nodeId update.key update.value]⟩
    | .getCachedParamsJson _, _, m => m

/-- What a section does, as one. -/
def paramResult (readJson : String → Option ParamUpdate) :
    ParamOp → ParamAnswers → IdMap NodeParams → ParamResult × IdMap NodeParams
  | .setParam call, _, cache =>
    (.stored, (ParamHandler.setParam readJson ⟨true, cache⟩ call.nodeId call.paramJson).1.cache)
  | .getCachedParamsJson nodeId, _, cache => (.json (ParamHandler.getCachedParamsJson ⟨true, cache⟩ nodeId), cache)

theorem runWrites_updateEdits (key value type : String) (p : NodeParams) :
    runWrites (updateEdits key value type) p = ⟨p.params.insert key value, p.types.insert key type⟩ := by
  simp [runWrites, updateEdits, insertIfNew_insert_self]

/-- The writes of `update_cache` come to the update. -/
theorem runWrites_updateWrites (nodeId : UInt32) (key value type : String) (cache : IdMap NodeParams) :
    runWrites (updateWrites nodeId key value type) cache =
      (ParamHandler.updateCache ⟨true, cache⟩ nodeId key value type).cache := by
  have edits := cacheMap.runWrites_edits (getElem?_insertIfNew_self cache nodeId {}) (updateEdits key value type)
  rw [runWrites_updateEdits] at edits
  refine edits.trans ?_
  exact insertIfNew_insert_self cache nodeId {} _

section

variable (readJson : String → Option ParamUpdate)

theorem executes_updates (writes : List (IdMap NodeParams → IdMap NodeParams)) (cache : IdMap NodeParams) :
    (paramProgram readJson).Executes (.write writes) cache .stored (runWrites writes cache) := by
  induction writes generalizing cache with
  | nil => exact .done rfl
  | cons w rest ih => exact .more rfl (ih (w cache))

/-- The loop over the entries from any round on. -/
theorem executes_rounds {cache : IdMap NodeParams} {nodeId : UInt32} {held : NodeParams}
    (found : cache[nodeId]? = some held) (rest before : List (String × String)) (written : String × Bool)
    (whole : held.params.toList = before ++ rest) :
    (paramProgram readJson).Executes (.round nodeId written before.length) cache
      (.json ((rest.foldl (ParamHandler.appendParam held.types) written).1 ++ "]")) cache := by
  induction rest generalizing before written with
  | nil =>
    refine .done ?_
    simp [paramProgram, paramSectionStep, found, whole]
  | cons entry rest ih =>
    have next := ih (before ++ [entry]) (ParamHandler.appendParam held.types written entry) (by simp [whole])
    rw [List.length_append] at next
    refine .more ?_ next
    simp [paramProgram, paramSectionStep, found, whole]

theorem paramProgram_performs : (paramProgram readJson).Performs (paramResult readJson) := by
  intro o m cache
  cases o with
  | setParam call =>
    cases read : readJson call.paramJson with
    | none =>
      have enters : (paramProgram readJson).enter (.setParam call) m = .write [] := by simp only [paramProgram, read]
      have result : paramResult readJson (.setParam call) m cache = (.stored, cache) := by
        simp only [paramResult, ParamHandler.setParam, read, Bool.not_true, Bool.false_eq_true, if_false]
      rw [enters, result]
      exact executes_updates readJson [] cache
    | some update =>
      have enters : (paramProgram readJson).enter (.setParam call) m =
          .write (updateWrites call.nodeId update.key update.value "String") := by simp only [paramProgram, read]
      have result : paramResult readJson (.setParam call) m cache = (.stored,
          runWrites (updateWrites call.nodeId update.key update.value "String") cache) := by
        rw [runWrites_updateWrites]
        simp only [paramResult, ParamHandler.setParam, read, Bool.not_true, Bool.false_eq_true, if_false]
      rw [enters, result]
      exact executes_updates readJson _ cache
  | getCachedParamsJson nodeId =>
    cases found : cache[nodeId]? with
    | none =>
      have empty : ParamHandler.getCachedParamsJson ⟨true, cache⟩ nodeId = "[]" := by
        simp only [ParamHandler.getCachedParamsJson, found]
      rw [paramResult, empty]
      exact .done (by simp only [paramProgram, paramSectionStep, found])
    | some held =>
      have text : ParamHandler.getCachedParamsJson ⟨true, cache⟩ nodeId =
          (held.params.toList.foldl (ParamHandler.appendParam held.types) ("[", true)).1 ++ "]" := by
        simp only [ParamHandler.getCachedParamsJson, found]
      have rounds := executes_rounds readJson found held.params.toList [] ("[", true) rfl
      rw [paramResult, text]
      exact .more (by simp only [paramProgram, paramSectionStep, found, List.length_nil]) rounds

end

def ParamOp.call? : ParamOp → Option ParamCall
  | .setParam call => some call
  | .getCachedParamsJson _ => none

/-- The calls of `set_param` among the operations of a thread. -/
def callsOf (ops : List ParamOp) : List ParamCall := ops.filterMap ParamOp.call?

section

variable (readJson : String → Option ParamUpdate)

/-- A call in one step is the call on the handler. -/
theorem perform_setParam (s : Serial NativeThread (IdMap NodeParams) ParamAnswers) (call : ParamCall) :
    (s.perform (paramProgram readJson) (paramResult readJson) (.loop, .setParam call)).shared =
      (ParamHandler.setParam readJson ⟨true, s.shared⟩ call.nodeId call.paramJson).1.cache := by
  cases read : readJson call.paramJson with
  | none =>
    rw [Serial.perform_free (by simp only [paramProgram, read, Option.isSome_none])]
    simp [ParamHandler.setParam, read]
  | some update =>
    rw [Serial.perform_locks rfl (by simp only [paramProgram, read, Option.isSome_some])]
    rfl

theorem setParam_client (h : ParamHandler) (call : ParamCall) :
    (h.setParam readJson call.nodeId call.paramJson).1.client = h.client := by
  unfold ParamHandler.setParam
  split
  · rfl
  · split <;> rfl

/-- When no operation is cut, the handler has gone through the calls of the log. -/
theorem serial_params {log : List (NativeThread × ParamOp)}
    (allowed : ∀ e ∈ log, (paramProgram readJson).allowed e.1 e.2 = true) :
    (⟨true, (serial (paramProgram readJson) (paramResult readJson) ∅ (fun _ => {}) log).shared⟩ : ParamHandler) =
      setParams readJson (callsOf (logged .loop log)) := by
  induction log using List.reverseRecOn with
  | nil => rfl
  | append_singleton log e ih =>
    have same := ih fun e mem => allowed e (List.mem_append_left _ mem)
    have may := allowed e (List.mem_append_right _ (List.mem_singleton_self e))
    rw [serial_append_singleton]
    obtain ⟨t, o⟩ := e
    rw [logged_append_singleton]
    cases t with
    | dart k =>
      cases o with
      | setParam call => cases may
      | getCachedParamsJson nodeId =>
        rw [if_neg NativeThread.noConfusion]
        exact same
    | loop =>
      cases o with
      | getCachedParamsJson nodeId => cases may
      | setParam call =>
        have list : callsOf (logged .loop log ++ [.setParam call]) = callsOf (logged .loop log) ++ [call] := by
          simp [callsOf, ParamOp.call?]
        rw [if_pos rfl, list, setParams, List.foldl_append, perform_setParam, same]
        rw [← setParams, ← same]
        have client := setParam_client readJson ⟨true, (serial (paramProgram readJson) (paramResult readJson) ∅
          (fun _ => {}) log).shared⟩ call
        exact congrArg (ParamHandler.mk · _) client.symm

end

theorem callsOf_mono {ops more : List ParamOp} (h : ops <+: more) : callsOf ops <+: callsOf more := h.filterMap _

def paramStart : State NativeThread (IdMap NodeParams) ParamAnswers ParamOp ParamSection ParamResult :=
  State.first ∅ fun _ => {}

/-- Every answer that a Dart thread gets is that of a cache in which some of the calls of `set_param` have been made one
after the other: all calls that had returned when it was asked for, and none that had not begun when it was given.
Where these are calls of `setNodeParam` whose keys and values stand for themselves, and whose values are JSON, it lists
exactly the keys that they have set on the node, each with the last value. -/
theorem params_linearize {readJson : String → Option ParamUpdate} {before after : List (Label NativeThread ParamOp)}
    {a b s : State NativeThread (IdMap NodeParams) ParamAnswers ParamOp ParamSection ParamResult} {k : Nat}
    {nodeId : UInt32} {o : ParamOp} {r : ParamResult}
    (earlier : Run (Takes (paramProgram readJson).next) paramStart before a)
    (asks : (paramProgram readJson).next a (.start (.dart k) (.getCachedParamsJson nodeId)) = some b)
    (later : Run (Takes (paramProgram readJson).next) b after s) (once : started (.dart k) after = [])
    (leaves : (s.threads (.dart k)).phase = .leaving o r) :
    ∃ n text, r = .json text ∧ n ≤ (callsOf (started .loop (before ++ after))).length ∧
      (callsOf (started .loop before).dropLast).length ≤ n ∧
      ((a.threads .loop).phase = .idle → (callsOf (started .loop before)).length ≤ n) ∧
      text = (setParams readJson ((callsOf (started .loop (before ++ after))).take n)).getCachedParamsJson nodeId ∧
      ∀ sets : List SetNodeParam, callsOf (started .loop (before ++ after)) = sets.map SetNodeParam.call →
        ReadsUpdates readJson → (∀ c ∈ sets, c.node = nodeId → c.Legible) →
        ∀ key, (deserializeParams (utf16 text)).lookup key =
          (((sets.take n).filter fun c => c.node = nodeId ∧ c.key = key).getLast?).bind SetNodeParam.listed := by
  have whole := Run.trans (Run.next earlier asks) later
  obtain ⟨rfl, log, rest, split, answer, bound, since, all⟩ :=
    answered_between (paramProgram_performs readJson) (v := .dart k) (w := .loop) NativeThread.noConfusion earlier asks
      later once leaves
  have allowed := (Linearized.run (paramProgram_performs readJson) whole).allowed
  rw [split] at allowed
  have gone := serial_params readJson fun e mem => allowed e (List.mem_append_left _ mem)
  have few := callsOf_mono bound
  -- the calls that have taken effect are the first of those that were made
  obtain ⟨n, count, first, calls⟩ : ∃ n, (callsOf (logged .loop log)).length = n ∧
      n ≤ (callsOf (started .loop (before ++ after))).length ∧
      callsOf (logged .loop log) = (callsOf (started .loop (before ++ after))).take n :=
    ⟨_, rfl, few.length_le, List.prefix_iff_eq_take.mp few⟩
  refine ⟨n, _, answer, first, ?_, ?_, ?_, fun sets made reader legible key => ?_⟩
  · exact count ▸ (callsOf_mono since).length_le
  · exact fun idle => count ▸ (callsOf_mono (all idle)).length_le
  · rw [gone, calls]
  · rw [gone, calls, made, ← List.map_take]
    exact lookup_setParams reader (fun c mem => legible c (List.mem_of_mem_take mem)) key

/-- The parameters are asked for while the second of two calls is being stored. -/
theorem params_linearize_muted : ∃ n text, n ≤ 2 ∧ 1 ≤ n ∧
    (deserializeParams (utf16 text)).lookup (utf16 "mute") =
      ((([setMute true, setMute false].take n).filter fun c => c.node = 7 ∧ c.key = utf16 "mute").getLast?).bind
        SetNodeParam.listed := by
  have legible : ∀ c ∈ [setMute true, setMute false], c.node = 7 → c.Legible := by
    intro c mem _
    simp only [List.mem_cons, List.not_mem_nil, or_false] at mem
    rcases mem with rfl | rfl
    · exact ⟨⟨by decide, "mute", rfl⟩, ⟨by decide, "true", rfl⟩, .bool true, rfl⟩
    · exact ⟨⟨by decide, "mute", rfl⟩, ⟨by decide, "false", rfl⟩, .bool false, rfl⟩
  obtain ⟨a, b, s, earlier, asks, later, returned⟩ := @exists_run_of_foldlM _ _
    (paramProgram readParamUpdate).next paramStart
    [.start .loop (.setParam (setMute true).call), .acquire .loop, .micro .loop, .micro .loop, .micro .loop,
      .micro .loop, .micro .loop, .micro .loop, .finish .loop, .start .loop (.setParam (setMute false).call),
      .acquire .loop, .micro .loop]
    [.micro .loop, .micro .loop, .micro .loop, .micro .loop, .micro .loop, .finish .loop, .acquire (.dart 0),
      .micro (.dart 0), .micro (.dart 0), .micro (.dart 0)] (.start (.dart 0) (.getCachedParamsJson 7))
    (fun s => (s.threads (.dart 0)).phase.returned) (by decide +kernel)
  obtain ⟨o, r, leaves⟩ := Phase.eq_leaving_of_returned returned
  obtain ⟨n, text, _, most, least, _, _, listed⟩ :=
    @params_linearize readParamUpdate _ _ _ _ _ 0 7 _ _ earlier asks later rfl leaves
  exact ⟨n, text, most, least, listed [setMute true, setMute false] rfl readsParamUpdate_members.complete legible
    (utf16 "mute")⟩

end PwDart
