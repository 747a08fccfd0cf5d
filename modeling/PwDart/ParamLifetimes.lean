import PwDart.ClientThread
import PwDart.LabelledRun
import PwDart.ParamCache
import PwDart.RegistryWellFormed

namespace PwDart

open Json LabelledRun

/-- `since` are the parameters that have been set on an id since it was last announced. -/
structure ParamLifetimes where
  thread : ClientThread := {}
  since : UInt32 → List String := fun _ => []

namespace ParamLifetimes

def nextSince (readJson : String → Option ParamUpdate) (since : UInt32 → List String) :
    ThreadCall → UInt32 → List String
  | .callback (.global id _ _ _) => Function.update since id []
  | .command (.setParam nodeId paramJson _) =>
    match readJson paramJson with
    | none => since
    | some update => Function.update since nodeId (since nodeId ++ [update.key])
  | _ => since

def next (writeJson : Value → Option String) (readJson : String → Option ParamUpdate) (s : ParamLifetimes)
    (call : ThreadCall) : Option ParamLifetimes :=
  some ⟨(s.thread.handle writeJson readJson call).1, nextSince readJson s.since call⟩

/-- Parameters are cached for live nodes only, and all were set on the node that has the id now. -/
structure Current (s : ParamLifetimes) : Prop where
  live : ∀ id : UInt32, id ∈ s.thread.params.cache → s.thread.monitor.idTypes[id]? = some "node"
  current : ∀ (id : UInt32) (held : NodeParams), s.thread.params.cache[id]? = some held →
    ∀ key, key ∈ held.params → key ∈ s.since id
  emptied : ∀ id, s.since id = [] → s.thread.params.getCachedParamsJson id = "[]"

/-- Parameters are set on a live node, and none are cached when an id is announced or removed. -/
def Keeps (readJson : String → Option ParamUpdate) (s : ParamLifetimes) : ThreadCall → Prop
  | .callback (.global id _ _ _) => id ∉ s.thread.params.cache
  | .callback (.globalRemove id) => id ∉ s.thread.params.cache
  | .command (.setParam nodeId paramJson _) =>
    readJson paramJson = none ∨ s.thread.monitor.idTypes[nodeId]? = some "node"
  | _ => True

/-- The cache has no entry without a parameter. -/
structure Filled (s : ParamLifetimes) : Prop where
  client : s.thread.params.client = true
  filled : ∀ (id : UInt32) (held : NodeParams), s.thread.params.cache[id]? = some held → ∃ key, key ∈ held.params

end ParamLifetimes

theorem getCachedParamsJson_of_params_empty {h : ParamHandler} {nodeId : UInt32}
    (empty : ∀ held, h.cache[nodeId]? = some held → ∀ key, key ∉ held.params) :
    h.getCachedParamsJson nodeId = "[]" := by
  unfold ParamHandler.getCachedParamsJson
  cases held : h.cache[nodeId]? with
  | none => rfl
  | some params =>
    have none : params.params.toList = [] := by
      refine List.eq_nil_iff_forall_not_mem.mpr fun entry among => ?_
      have key := Std.ExtTreeMap.mem_toList_iff_getElem?_eq_some.mp (show (entry.1, entry.2) ∈ _ from among)
      exact empty params held entry.1 (Std.ExtTreeMap.mem_iff_isSome_getElem?.mpr (by simp [key]))
    simp [none]

namespace ParamLifetimes

theorem current_start : Current {} where
  live id h := by simp at h
  current id held h := by simp at h
  emptied id _ := by simp [ParamHandler.getCachedParamsJson]

theorem filled_start : Filled {} where
  client := rfl
  filled id held h := by simp at h

/-- Only an accepted `set_param` changes the cache. -/
theorem params_handle (writeJson : Value → Option String) (readJson : String → Option ParamUpdate)
    {s : ClientThread} (client : s.params.client = true) (call : ThreadCall) :
    (s.handle writeJson readJson call).1.params = s.params ∨
      ∃ nodeId paramJson requestId update, call = .command (.setParam nodeId paramJson requestId) ∧
        readJson paramJson = some update ∧
        (s.handle writeJson readJson call).1.params = s.params.updateCache nodeId update.key update.value "String" := by
  cases call with
  | callback | coreError => exact Or.inl rfl
  | command cmd =>
    cases cmd with
    | createLink | destroyLink | enumParams | getSnapshot | disconnect => exact Or.inl rfl
    | setParam nodeId paramJson requestId =>
      have set : (s.params.setParam readJson nodeId paramJson).1 = _ := setParam_fst client nodeId paramJson
      cases parsed : readJson paramJson with
      | none =>
        rw [parsed] at set
        exact Or.inl set
      | some update =>
        rw [parsed] at set
        exact Or.inr ⟨nodeId, paramJson, requestId, update, rfl, parsed, set⟩

theorem filled_step {writeJson : Value → Option String} {readJson : String → Option ParamUpdate}
    {s t : ParamLifetimes} {call : ThreadCall} (h : Filled s) (step : s.next writeJson readJson call = some t) :
    Filled t := by
  cases Option.some.inj step
  rcases params_handle writeJson readJson h.client call with
    same | ⟨nodeId, _, _, update, _, _, set⟩
  · constructor
    · simpa only [same] using h.client
    · simpa only [same] using h.filled
  · constructor
    · simp only [set]
      exact h.client
    · intro id held found
      simp only [set, cache_updateCache] at found
      split at found
      next =>
        cases Option.some.inj found
        exact ⟨update.key, Std.ExtTreeMap.mem_insert_self⟩
      next => exact h.filled id held found

theorem current_of {s : ParamLifetimes}
    (live : ∀ id : UInt32, id ∈ s.thread.params.cache → s.thread.monitor.idTypes[id]? = some "node")
    (current : ∀ (id : UInt32) (held : NodeParams), s.thread.params.cache[id]? = some held →
      ∀ key, key ∈ held.params → key ∈ s.since id) : Current s where
  live := live
  current := current
  emptied id none := by
    refine getCachedParamsJson_of_params_empty fun held found key present => ?_
    have set := current id held found key present
    rw [none] at set
    cases set

theorem mem_cache_of_eq {h : ParamHandler} {id : UInt32} {held : NodeParams} (found : h.cache[id]? = some held) :
    id ∈ h.cache :=
  Std.ExtTreeMap.mem_iff_isSome_getElem?.mpr (by simp [found])

theorem current_global {s : ParamLifetimes} (h : Current s) (filled : Filled s) {id : UInt32}
    {type : Option String} {props : Option SpaDict} {bound : Option PwProxy} :
    Current ⟨{ s.thread with monitor := (s.thread.monitor.onGlobal id type props bound).1 },
        Function.update s.since id []⟩ ↔ id ∉ s.thread.params.cache := by
  constructor
  · intro after cached
    obtain ⟨held, found⟩ := Option.isSome_iff_exists.mp (Std.ExtTreeMap.mem_iff_isSome_getElem?.mp cached)
    obtain ⟨key, present⟩ := filled.filled id held found
    have set := after.current id held found key present
    simp at set
  · intro uncached
    have apart {other : UInt32} (cached : other ∈ s.thread.params.cache) : ¬id = other := by
      rintro rfl
      exact uncached cached
    refine current_of (fun other cached => ?_) fun other held found key present => ?_
    · have kept := h.live other cached
      rcases RegistryMonitor.idTypes_onGlobal s.thread.monitor id type props bound with same | ⟨kind, inserted⟩
      · simpa only [same] using kept
      · simpa [inserted, Std.ExtTreeMap.getElem?_insert, apart cached] using kept
    · have other_ := apart (mem_cache_of_eq found)
      change key ∈ Function.update s.since id [] other
      rw [Function.update_of_ne (Ne.symm other_)]
      exact h.current other held found key present

theorem current_globalRemove {s : ParamLifetimes} (h : Current s) {id : UInt32} :
    Current ⟨{ s.thread with monitor := (s.thread.monitor.onGlobalRemove id).1 }, s.since⟩ ↔
      id ∉ s.thread.params.cache := by
  constructor
  · intro after cached
    have kept := after.live id cached
    simp [RegistryMonitor.idTypes_onGlobalRemove] at kept
  · intro uncached
    refine current_of (fun other cached => ?_) h.current
    have apart : ¬id = other := by
      rintro rfl
      exact uncached cached
    simpa [RegistryMonitor.idTypes_onGlobalRemove, Std.ExtTreeMap.getElem?_erase, apart] using h.live other cached

theorem current_setParam {s : ParamLifetimes} (h : Current s) {nodeId : UInt32} {update : ParamUpdate} :
    Current ⟨{ s.thread with params := s.thread.params.updateCache nodeId update.key update.value "String" },
        Function.update s.since nodeId (s.since nodeId ++ [update.key])⟩ ↔
      s.thread.monitor.idTypes[nodeId]? = some "node" := by
  constructor
  · intro after
    refine after.live nodeId (Std.ExtTreeMap.mem_iff_isSome_getElem?.mpr ?_)
    rw [cache_updateCache, if_pos rfl]
    rfl
  · intro node
    refine current_of (fun other cached => ?_) fun other held found key present => ?_
    · by_cases here : nodeId = other
      · rw [← here]
        exact node
      · refine h.live other (Std.ExtTreeMap.mem_iff_isSome_getElem?.mpr ?_)
        have still := Std.ExtTreeMap.mem_iff_isSome_getElem?.mp cached
        simpa only [cache_updateCache, here, if_false] using still
    · simp only [cache_updateCache] at found
      split at found
      next here =>
        subst here
        cases Option.some.inj found
        change key ∈ Function.update s.since nodeId (s.since nodeId ++ [update.key]) nodeId
        rw [Function.update_self]
        rcases Std.ExtTreeMap.mem_insert.mp present with same | earlier
        · have eq : update.key = key := by simpa using same
          rw [eq]
          exact List.mem_append_right _ (List.mem_singleton_self _)
        · refine List.mem_append_left _ ?_
          cases before : s.thread.params.cache[nodeId]? with
          | none => simp [before] at earlier
          | some old => exact h.current nodeId old before key (by simpa [before] using earlier)
      next apart =>
        change key ∈ Function.update s.since nodeId (s.since nodeId ++ [update.key]) other
        rw [Function.update_of_ne (Ne.symm apart)]
        exact h.current other held found key present

theorem current_info {s : ParamLifetimes} (h : Current s) {c : Callback}
    (notGlobal : ∀ id type props bound, c ≠ .global id type props bound)
    (notRemove : ∀ id, c ≠ .globalRemove id) :
    Current ⟨{ s.thread with monitor := (s.thread.monitor.call c).1 }, s.since⟩ := by
  refine ⟨fun other cached => ?_, h.current, h.emptied⟩
  simpa only [(RegistryMonitor.keys_info notGlobal notRemove).1] using h.live other cached

theorem current_step {writeJson : Value → Option String} {readJson : String → Option ParamUpdate}
    {s t : ParamLifetimes} {call : ThreadCall} (filled : Filled s) (h : Current s)
    (step : s.next writeJson readJson call = some t) : Current t ↔ Keeps readJson s call := by
  cases Option.some.inj step
  cases call with
  | callback c =>
    cases c with
    | global id type props bound => exact current_global h filled
    | globalRemove id => exact current_globalRemove h
    | nodeInfo | portInfo | linkInfo | deviceInfo =>
      exact iff_of_true (current_info h (by simp) (by simp)) trivial
  | coreError => exact iff_of_true h trivial
  | command cmd =>
    cases cmd with
    | createLink | destroyLink | enumParams | getSnapshot | disconnect => exact iff_of_true h trivial
    | setParam nodeId paramJson requestId =>
      have set : (s.thread.params.setParam readJson nodeId paramJson).1 = _ :=
        setParam_fst filled.client nodeId paramJson
      cases parsed : readJson paramJson with
      | none =>
        rw [parsed] at set
        simp only [ClientThread.handle, ClientThread.processCommand, set, nextSince, parsed]
        exact iff_of_true h (Or.inl parsed)
      | some update =>
        rw [parsed] at set
        simp only [ClientThread.handle, ClientThread.processCommand, set, nextSince, parsed]
        rw [current_setParam h]
        simp [Keeps, parsed]

theorem params_current_iff (writeJson : Value → Option String) (readJson : String → Option ParamUpdate)
    {calls : List ThreadCall} {s : ParamLifetimes} (run : Run (Takes (next writeJson readJson)) {} calls s) :
    (∀ pre t, pre <+: calls → Run (Takes (next writeJson readJson)) {} pre t → t.Current) ↔
      Run (Guarded (next writeJson readJson) (Keeps readJson)) {} calls s :=
  always_iff_guarded filled_start (fun _ _ _ => filled_step) current_start
    (fun _ _ _ filled current => current_step filled current) run

def volumeCall : ThreadCall := .command (.setParam 7 "\x7b\"key\":\"volume\",\"value\":\"0.5\"\x7d" 0)

def sourceCall : ThreadCall := .callback (.global 7 (some interfaceNode) none (some 3))

/-- A parameter is set on a node, which stays. -/
theorem params_current_iff_volume :
    ∃ s, Run (Takes (next (fun _ => none) fun _ => some ⟨"volume", "0.5"⟩)) {} [sourceCall, volumeCall] s ∧
      s.since 7 = ["volume"] ∧ s.Current := by
  have run : Run (Takes (next (fun _ => none) fun _ => some ⟨"volume", "0.5"⟩)) {} [sourceCall, volumeCall] _ :=
    run_takes_iff.mpr rfl
  have announced : Run (Guarded (next (fun _ => none) fun _ => some ⟨"volume", "0.5"⟩)
      (Keeps fun _ => some ⟨"volume", "0.5"⟩)) {} [sourceCall] _ :=
    Run.single ⟨by simp [sourceCall, Keeps], rfl⟩
  have always := (params_current_iff (fun _ => none) (fun _ => some ⟨"volume", "0.5"⟩) run).mpr
    (Run.next announced ⟨Or.inr (by decide), rfl⟩)
  exact ⟨_, run, rfl, always _ _ (List.prefix_refl _) run⟩

/-- The node goes and its id is given to another. -/
theorem params_inherited :
    ∃ s, Run (Takes (next (fun _ => none) fun _ => some ⟨"volume", "0.5"⟩)) {}
        [sourceCall, volumeCall, .callback (.globalRemove 7), sourceCall] s ∧
      s.since 7 = [] ∧ s.thread.params.getCachedParamsJson 7 =
        "[\x7b\"key\":\"volume\",\"value\":0.5,\"type\":\"String\"," ++
          "\"flags\":\x7b\"readable\":true,\"writable\":true\x7d\x7d]" :=
  ⟨_, run_takes_iff.mpr rfl, rfl, by decide +kernel⟩

end ParamLifetimes

end PwDart
