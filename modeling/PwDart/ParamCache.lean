import PwDart.ParamHandler

namespace PwDart

open ParamHandler

structure ParamCall where
  nodeId : UInt32
  paramJson : String

/-- The handler after these calls of `set_param`. -/
def setParams (readJson : String → Option ParamUpdate) (calls : List ParamCall) : ParamHandler :=
  calls.foldl (fun h c => (h.setParam readJson c.nodeId c.paramJson).1) {}

/-- The value of the last call that set this key of this node. -/
def lastSet (readJson : String → Option ParamUpdate) (calls : List ParamCall) (nodeId : UInt32)
    (key : String) : Option String :=
  calls.foldl (fun found c =>
    match readJson c.paramJson with
    | some update => if c.nodeId = nodeId ∧ update.key = key then some update.value else found
    | none => found) none

/-- What the cache holds after the calls. -/
structure Caches (readJson : String → Option ParamUpdate) (calls : List ParamCall)
    (h : ParamHandler) : Prop where
  client : h.client = true
  unset : ∀ nodeId, h.cache[nodeId]? = none ↔
    ∀ c ∈ calls, c.nodeId = nodeId → readJson c.paramJson = none
  last : ∀ nodeId key, (h.cache[nodeId]?.bind fun held => held.params[key]?) =
    lastSet readJson calls nodeId key
  filled : ∀ (nodeId : UInt32) held, h.cache[nodeId]? = some held → held.params ≠ ∅
  strings : ∀ (nodeId : UInt32) held, h.cache[nodeId]? = some held →
    ∀ key type : String, held.types[key]? = some type → type = "String"

theorem cache_updateCache (h : ParamHandler) (nodeId other : UInt32) (key value type : String) :
    (h.updateCache nodeId key value type).cache[other]? =
      if nodeId = other then
        some ⟨(h.cache[other]?.getD {}).params.insert key value,
          (h.cache[other]?.getD {}).types.insert key type⟩
      else h.cache[other]? := by
  by_cases here : nodeId = other
  · subst here
    simp [updateCache]
  · simp [updateCache, Std.ExtTreeMap.getElem?_insert, here]

theorem setParam_fst {readJson : String → Option ParamUpdate} {h : ParamHandler} (client : h.client = true)
    (nodeId : UInt32) (paramJson : String) :
    (h.setParam readJson nodeId paramJson).1 =
      match readJson paramJson with
      | none => h
      | some update => h.updateCache nodeId update.key update.value "String" := by
  unfold setParam
  cases parsed : readJson paramJson <;> simp [client]

theorem lastSet_append_singleton (readJson : String → Option ParamUpdate) (calls : List ParamCall)
    (c : ParamCall) (nodeId : UInt32) (key : String) :
    lastSet readJson (calls ++ [c]) nodeId key =
      match readJson c.paramJson with
      | some update =>
        if c.nodeId = nodeId ∧ update.key = key then some update.value
        else lastSet readJson calls nodeId key
      | none => lastSet readJson calls nodeId key := by
  simp only [lastSet, List.foldl_append, List.foldl_cons, List.foldl_nil]

theorem caches_setParam {readJson : String → Option ParamUpdate} {calls : List ParamCall}
    {h : ParamHandler} (known : Caches readJson calls h) (c : ParamCall) :
    Caches readJson (calls ++ [c]) (h.setParam readJson c.nodeId c.paramJson).1 := by
  rw [setParam_fst known.client]
  cases parsed : readJson c.paramJson with
  | none =>
    exact {
      client := known.client
      unset := fun nodeId => by
        rw [known.unset]
        simp [or_imp, forall_and, parsed]
      last := fun nodeId key => by
        rw [known.last, lastSet_append_singleton, parsed]
      filled := known.filled
      strings := known.strings }
  | some update =>
    simp only
    exact {
      client := known.client
      unset := fun nodeId => by
        rw [cache_updateCache]
        by_cases here : c.nodeId = nodeId
        · simp [here, parsed]
        · simp only [here, if_false, known.unset, List.mem_append, List.mem_singleton]
          grind
      last := fun nodeId key => by
        have before := known.last nodeId key
        rw [cache_updateCache, lastSet_append_singleton, parsed]
        by_cases here : c.nodeId = nodeId
        · have shown : (h.cache[nodeId]?.getD {}).params[key]? = lastSet readJson calls nodeId key := by
            rw [← before]
            cases h.cache[nodeId]? <;> simp
          simp [here, Std.ExtTreeMap.getElem?_insert, shown]
        · simp [here, before]
      filled := fun nodeId held present => by
        rw [cache_updateCache] at present
        split at present
        next =>
          cases Option.some.inj present
          exact Std.ExtTreeMap.insert_ne_empty
        next => exact known.filled nodeId held present
      strings := fun nodeId held present key type found => by
        rw [cache_updateCache] at present
        split at present
        next =>
          cases Option.some.inj present
          simp only [Std.ExtTreeMap.getElem?_insert] at found
          split at found
          next => exact (Option.some.inj found).symm
          next =>
            cases before : h.cache[nodeId]? with
            | none => simp [before] at found
            | some old => exact known.strings nodeId old before key type (by simpa [before] using found)
        next => exact known.strings nodeId held present key type found }

theorem caches_setParams (readJson : String → Option ParamUpdate) (calls : List ParamCall) :
    Caches readJson calls (setParams readJson calls) := by
  induction calls using List.reverseRecOn with
  | nil =>
    exact ⟨rfl, fun nodeId => by simp [setParams], fun nodeId key => by simp [setParams, lastSet],
      fun nodeId held present => by simp [setParams] at present,
      fun nodeId held present => by simp [setParams] at present⟩
  | append_singleton calls c ih =>
    rw [setParams, List.foldl_append]
    exact caches_setParam ih c

end PwDart
