import PwDart.RegistryMonitor

namespace PwDart

inductive Kind
  | node | port | link | device
deriving DecidableEq

/-- What `id_types_` and `ProxyData::type` say of an object of this kind. -/
def Kind.text : Kind → String
  | node => "node"
  | port => "port"
  | link => "link"
  | device => "device"

def Kind.ofText (text : String) : Option Kind :=
  if text = "node" then some node
  else if text = "port" then some port
  else if text = "link" then some link
  else if text = "device" then some device
  else none

theorem Kind.ofText_text (kind : Kind) : Kind.ofText kind.text = some kind := by
  cases kind <;> rfl

inductive ObjectInfo
  | node (info : NodeInfo)
  | port (info : PortInfo)
  | link (info : LinkInfo)
  | device (info : DeviceInfo)
deriving DecidableEq

/-- The calls PipeWire makes into the monitor, with what `pw_registry_bind` returns for a global. -/
inductive Callback
  | global (id : UInt32) (type : Option String) (props : Option SpaDict) (bound : Option PwProxy)
  | globalRemove (id : UInt32)
  | nodeInfo (id : UInt32) (info : Option PwNodeInfo)
  | portInfo (id : UInt32) (info : Option PwPortInfo)
  | linkInfo (id : UInt32) (info : Option PwLinkInfo)
  | deviceInfo (id : UInt32) (info : Option PwDeviceInfo)
deriving DecidableEq

namespace RegistryMonitor

def call (m : RegistryMonitor) : Callback → RegistryMonitor × List GraphEvent
  | .global id type props bound => ((m.onGlobal id type props bound).1, [])
  | .globalRemove id => m.onGlobalRemove id
  | .nodeInfo id info => m.onNodeInfo id info
  | .portInfo id info => m.onPortInfo id info
  | .linkInfo id info => m.onLinkInfo id info
  | .deviceInfo id info => (m.onDeviceInfo id info, [])

/-- The exception a callback throws at its caller. -/
def raised (m : RegistryMonitor) : Callback → Option StdException
  | .global id type props bound => (m.onGlobal id type props bound).2
  | _ => none

/-- The four maps as one. -/
def record (m : RegistryMonitor) (kind : Kind) (id : UInt32) : Option ObjectInfo :=
  match kind with
  | .node => m.nodes[id]?.map .node
  | .port => m.ports[id]?.map .port
  | .link => m.links[id]?.map .link
  | .device => m.devices[id]?.map .device

def replay (calls : List Callback) : RegistryMonitor :=
  calls.foldl (fun m c => (m.call c).1) {}

theorem replay_append_singleton (calls : List Callback) (c : Callback) :
    replay (calls ++ [c]) = ((replay calls).call c).1 := by
  simp [replay]

end RegistryMonitor

/-- The object a global announces, if it is of a known type and its id properties parse. -/
def announced (id : UInt32) (type : Option String) (props : Option SpaDict) : Option ObjectInfo :=
  if type = some interfaceNode then some (.node (newNodeInfo id props))
  else if type = some interfacePort then (newPortInfo id props).toOption.map .port
  else if type = some interfaceLink then (newLinkInfo id props).toOption.map .link
  else if type = some interfaceDevice then some (.device (newDeviceInfo id props))
  else none

def ObjectInfo.kind : ObjectInfo → Kind
  | node _ => .node
  | port _ => .port
  | link _ => .link
  | device _ => .device

/-- The record with the update of the info struct merged in; an info of another kind, or a null
one, is no update. -/
def ObjectInfo.update : ObjectInfo → Callback → Option ObjectInfo
  | node old, .nodeInfo _ (some info) => some (node (old.update info))
  | port old, .portInfo _ (some info) => some (port (old.update info))
  | link old, .linkInfo _ (some info) => some (link (old.update info))
  | device old, .deviceInfo _ (some info) => some (device (old.mergeProps info.props))
  | _, _ => none

/-- The kind and id an info callback is about. -/
def Callback.infoTarget : Callback → Option (Kind × UInt32)
  | nodeInfo id (some _) => some (.node, id)
  | portInfo id (some _) => some (.port, id)
  | linkInfo id (some _) => some (.link, id)
  | deviceInfo id (some _) => some (.device, id)
  | _ => none

/-- The id a callback announces or removes. -/
def Callback.lifetimeOf : Callback → Option UInt32
  | global id _ _ _ => some id
  | globalRemove id => some id
  | _ => none

namespace RegistryMonitor

theorem record_onGlobal (m : RegistryMonitor) (id : UInt32) (type : Option String)
    (props : Option SpaDict) (bound : Option PwProxy) (kind : Kind) (i : UInt32) :
    (m.onGlobal id type props bound).1.record kind i =
      match announced id type props with
      | some object => if object.kind = kind ∧ id = i then some object else m.record kind i
      | none => m.record kind i := by
  unfold onGlobal announced
  by_cases hi : id = i
  all_goals
    split
    next => cases kind <;> simp [record, ObjectInfo.kind, Std.ExtTreeMap.getElem?_insert, hi]
    next =>
      split
      next =>
        cases newPortInfo id props <;> cases kind <;>
          simp [record, ObjectInfo.kind, Std.ExtTreeMap.getElem?_insert, Except.toOption, hi]
      next =>
        split
        next =>
          cases newLinkInfo id props <;> cases kind <;>
            simp [record, ObjectInfo.kind, Std.ExtTreeMap.getElem?_insert, Except.toOption, hi]
        next =>
          split
          next => cases kind <;> simp [record, ObjectInfo.kind, Std.ExtTreeMap.getElem?_insert, hi]
          next => rfl

theorem record_eraseRecord (m : RegistryMonitor) (id : UInt32) (type : String) (kind : Kind)
    (i : UInt32) :
    (m.eraseRecord id type).1.record kind i =
      if type = kind.text ∧ id = i then none else m.record kind i := by
  unfold eraseRecord
  by_cases hi : id = i
  all_goals
    split
    next h => cases kind <;> simp [h, record, Kind.text, Std.ExtTreeMap.getElem?_erase, hi]
    next h =>
      split
      next h => cases kind <;> simp [h, record, Kind.text, Std.ExtTreeMap.getElem?_erase, hi]
      next h =>
        split
        next h => cases kind <;> simp [h, record, Kind.text, Std.ExtTreeMap.getElem?_erase, hi]
        next h =>
          split
          next h => cases kind <;> simp [h, record, Kind.text, Std.ExtTreeMap.getElem?_erase, hi]
          next h => cases kind <;> simp_all [record, Kind.text]

theorem record_onGlobalRemove (m : RegistryMonitor) (id : UInt32) (kind : Kind) (i : UInt32) :
    (m.onGlobalRemove id).1.record kind i =
      if m.idTypes[id]? = some kind.text ∧ id = i then none else m.record kind i := by
  unfold onGlobalRemove
  cases m.idTypes[id]? with
  | none => simp
  | some type =>
    simp only [Option.some.injEq]
    exact m.record_eraseRecord id type kind i

theorem call_info_none {m : RegistryMonitor} {c : Callback} {kind : Kind} {id : UInt32}
    (about : c.infoTarget = some (kind, id)) (absent : m.record kind id = none) :
    m.call c = (m, []) := by
  cases c with
  | global | globalRemove => simp [Callback.infoTarget] at about
  | nodeInfo i info =>
    cases info with
    | none => simp [Callback.infoTarget] at about
    | some info =>
      obtain ⟨rfl, rfl⟩ : Kind.node = kind ∧ i = id := by simpa [Callback.infoTarget] using about
      have none : m.nodes[i]? = none := by simpa [record] using absent
      simp [call, onNodeInfo, none]
  | portInfo i info =>
    cases info with
    | none => simp [Callback.infoTarget] at about
    | some info =>
      obtain ⟨rfl, rfl⟩ : Kind.port = kind ∧ i = id := by simpa [Callback.infoTarget] using about
      have none : m.ports[i]? = none := by simpa [record] using absent
      simp [call, onPortInfo, none]
  | linkInfo i info =>
    cases info with
    | none => simp [Callback.infoTarget] at about
    | some info =>
      obtain ⟨rfl, rfl⟩ : Kind.link = kind ∧ i = id := by simpa [Callback.infoTarget] using about
      have none : m.links[i]? = none := by simpa [record] using absent
      simp [call, onLinkInfo, none]
  | deviceInfo i info =>
    cases info with
    | none => simp [Callback.infoTarget] at about
    | some info =>
      obtain ⟨rfl, rfl⟩ : Kind.device = kind ∧ i = id := by simpa [Callback.infoTarget] using about
      have none : m.devices[i]? = none := by simpa [record] using absent
      simp [call, onDeviceInfo, none]

end RegistryMonitor

/-- The event an info callback posts for a record that was `old` and is now `new`. -/
def ObjectInfo.infoEvent : ObjectInfo → ObjectInfo → List GraphEvent
  | node old, node new => [if old.state = "creating" then .nodeAdded new else .nodeInfoChanged new]
  | port _, port new => [.portAdded new]
  | link old, link new => [if old.state = "init" then .linkAdded new else .linkStateChanged new]
  | _, _ => []

namespace RegistryMonitor

/-- What an info callback does to a record it finds. -/
theorem call_info_some {m : RegistryMonitor} {c : Callback} {kind : Kind} {id : UInt32}
    {old : ObjectInfo} (about : c.infoTarget = some (kind, id)) (found : m.record kind id = some old) :
    ∃ new, old.update c = some new ∧ (m.call c).2 = old.infoEvent new ∧
      (m.call c).1.idTypes = m.idTypes ∧ (m.call c).1.proxies = m.proxies ∧
      ∀ k i, (m.call c).1.record k i = if k = kind ∧ i = id then some new else m.record k i := by
  cases c with
  | global | globalRemove => simp [Callback.infoTarget] at about
  | nodeInfo i info =>
    cases info with
    | none => simp [Callback.infoTarget] at about
    | some info =>
      obtain ⟨rfl, rfl⟩ : Kind.node = kind ∧ i = id := by simpa [Callback.infoTarget] using about
      obtain ⟨node, hn, rfl⟩ : ∃ node, m.nodes[i]? = some node ∧ ObjectInfo.node node = old := by
        simpa [record] using found
      refine ⟨.node (node.update info), rfl, by simp [call, onNodeInfo, hn, ObjectInfo.infoEvent],
        by simp [call, onNodeInfo, hn], by simp [call, onNodeInfo, hn], ?_⟩
      intro k j
      by_cases hj : j = i
      · cases k <;> simp [call, onNodeInfo, hn, record, hj]
      · cases k <;> simp [call, onNodeInfo, hn, record, Std.ExtTreeMap.getElem?_insert, hj, Ne.symm hj]
  | portInfo i info =>
    cases info with
    | none => simp [Callback.infoTarget] at about
    | some info =>
      obtain ⟨rfl, rfl⟩ : Kind.port = kind ∧ i = id := by simpa [Callback.infoTarget] using about
      obtain ⟨port, hn, rfl⟩ : ∃ port, m.ports[i]? = some port ∧ ObjectInfo.port port = old := by
        simpa [record] using found
      refine ⟨.port (port.update info), rfl, by simp [call, onPortInfo, hn, ObjectInfo.infoEvent],
        by simp [call, onPortInfo, hn], by simp [call, onPortInfo, hn], ?_⟩
      intro k j
      by_cases hj : j = i
      · cases k <;> simp [call, onPortInfo, hn, record, hj]
      · cases k <;> simp [call, onPortInfo, hn, record, Std.ExtTreeMap.getElem?_insert, hj, Ne.symm hj]
  | linkInfo i info =>
    cases info with
    | none => simp [Callback.infoTarget] at about
    | some info =>
      obtain ⟨rfl, rfl⟩ : Kind.link = kind ∧ i = id := by simpa [Callback.infoTarget] using about
      obtain ⟨link, hn, rfl⟩ : ∃ link, m.links[i]? = some link ∧ ObjectInfo.link link = old := by
        simpa [record] using found
      refine ⟨.link (link.update info), rfl, by simp [call, onLinkInfo, hn, ObjectInfo.infoEvent],
        by simp [call, onLinkInfo, hn], by simp [call, onLinkInfo, hn], ?_⟩
      intro k j
      by_cases hj : j = i
      · cases k <;> simp [call, onLinkInfo, hn, record, hj]
      · cases k <;> simp [call, onLinkInfo, hn, record, Std.ExtTreeMap.getElem?_insert, hj, Ne.symm hj]
  | deviceInfo i info =>
    cases info with
    | none => simp [Callback.infoTarget] at about
    | some info =>
      obtain ⟨rfl, rfl⟩ : Kind.device = kind ∧ i = id := by simpa [Callback.infoTarget] using about
      obtain ⟨device, hn, rfl⟩ : ∃ device, m.devices[i]? = some device ∧
          ObjectInfo.device device = old := by
        simpa [record] using found
      refine ⟨.device (device.mergeProps info.props), rfl, by simp [call, ObjectInfo.infoEvent],
        by simp [call, onDeviceInfo, hn], by simp [call, onDeviceInfo, hn], ?_⟩
      intro k j
      by_cases hj : j = i
      · cases k <;> simp [call, onDeviceInfo, hn, record, hj]
      · cases k <;>
          simp [call, onDeviceInfo, hn, record, Std.ExtTreeMap.getElem?_insert, hj, Ne.symm hj]

/-- An info callback with a null info struct does nothing. -/
theorem call_info_null {m : RegistryMonitor} {c : Callback} (quiet : c.infoTarget = none)
    (notGlobal : ∀ id type props bound, c ≠ .global id type props bound)
    (notRemove : ∀ id, c ≠ .globalRemove id) : m.call c = (m, []) := by
  cases c with
  | global id type props bound => exact absurd rfl (notGlobal id type props bound)
  | globalRemove id => exact absurd rfl (notRemove id)
  | nodeInfo _ info | portInfo _ info | linkInfo _ info | deviceInfo _ info =>
    cases info with
    | none => rfl
    | some _ => simp [Callback.infoTarget] at quiet

end RegistryMonitor

end PwDart
