import PwDart.NativeRecords

namespace PwDart

structure ParamUpdate where
  key : String := ""
  value : String := ""
deriving DecidableEq

structure NodeParams where
  params : StringMap := ∅
  types : StringMap := ∅

/-- `client` says whether `client_` is set. -/
structure ParamHandler where
  client : Bool := true
  cache : IdMap NodeParams := ∅

namespace ParamHandler

def updateCache (h : ParamHandler) (nodeId : UInt32) (key value type : String) : ParamHandler :=
  let nodeParams := h.cache[nodeId]?.getD {}
  { h with
    cache := h.cache.insert nodeId
      ⟨nodeParams.params.insert key value, nodeParams.types.insert key type⟩ }

/-- `readJson` is `glz::read_json` into a new `ParamUpdate`. -/
def setParam (readJson : String → Option ParamUpdate) (h : ParamHandler) (nodeId : UInt32)
    (paramJson : String) : ParamHandler × Int × List GraphEvent :=
  if !h.client then (h, -1, [])
  else
    match readJson paramJson with
    | none => (h, -2, [])
    | some update =>
      (h.updateCache nodeId update.key update.value "String", 0,
        [.paramChanged nodeId update.key update.value])

def paramText (key value type : String) : String :=
  "\x7b\"key\":\"" ++ key ++ "\",\"value\":" ++ value ++ ",\"type\":\"" ++ type ++
    "\",\"flags\":\x7b\"readable\":true,\"writable\":true\x7d\x7d"

/-- One round of the loop over `params`, with the text so far and `first`. -/
def appendParam (types : StringMap) (written : String × Bool) (entry : String × String) :
    String × Bool :=
  let json := if written.2 then written.1 else written.1 ++ ","
  (json ++ paramText entry.1 entry.2 (types[entry.1]?.getD "String"), false)

def getCachedParamsJson (h : ParamHandler) (nodeId : UInt32) : String :=
  match h.cache[nodeId]? with
  | none => "[]"
  | some nodeParams => (nodeParams.params.toList.foldl (appendParam nodeParams.types) ("[", true)).1 ++ "]"

/-- `registry` says whether the client has a registry monitor. -/
def enumParams (h : ParamHandler) (registry : Bool) (nodeId : UInt32) : List GraphEvent :=
  if !h.client || !registry then []
  else [.paramChanged nodeId "_enum_complete" (h.getCachedParamsJson nodeId)]

def clearCache (h : ParamHandler) (nodeId : UInt32) : ParamHandler := { h with cache := h.cache.erase nodeId }

end ParamHandler

end PwDart
