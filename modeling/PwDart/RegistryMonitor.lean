import PwDart.SpaDict

namespace PwDart

/-- A `pw_proxy*` that is not null. -/
abbrev PwProxy : Type := Nat

/-- `ProxyData` without its back pointer to the client; a hook is allocated exactly when the bind
returned a proxy. -/
structure ProxyData where
  proxy : Option PwProxy
  listener : Bool
  id : UInt32
  type : String
deriving DecidableEq

structure RegistryMonitor where
  proxies : IdMap ProxyData := ∅
  nodes : IdMap NodeInfo := ∅
  ports : IdMap PortInfo := ∅
  links : IdMap LinkInfo := ∅
  devices : IdMap DeviceInfo := ∅
  idTypes : IdMap String := ∅
deriving DecidableEq

/-- The fields of `pw_node_info` that are read here, with the mask that goes with them. -/
structure PwNodeInfo where
  changeMask : UInt64
  state : Int
  props : Option SpaDict
deriving DecidableEq

structure PwPortInfo where
  changeMask : UInt64
  direction : Int
  props : Option SpaDict
deriving DecidableEq

structure PwLinkInfo where
  outputNodeId : UInt32
  outputPortId : UInt32
  inputNodeId : UInt32
  inputPortId : UInt32
  state : Int
  error : Option String
deriving DecidableEq

structure PwDeviceInfo where
  changeMask : UInt64
  props : Option SpaDict
deriving DecidableEq

def interfaceNode : String := "PipeWire:Interface:Node"
def interfacePort : String := "PipeWire:Interface:Port"
def interfaceLink : String := "PipeWire:Interface:Link"
def interfaceDevice : String := "PipeWire:Interface:Device"

def newProxyData (id : UInt32) (type : String) (bound : Option PwProxy) : ProxyData :=
  ⟨bound, bound.isSome, id, type⟩

def newNodeInfo (id : UInt32) (props : Option SpaDict) : NodeInfo :=
  { id := id
    name := if (dictGet props "node.name").isEmpty then dictGet props "node.description"
      else dictGet props "node.name"
    mediaClass := dictGet props "media.class"
    state := "creating"
    properties := dictToMap props }

def newPortInfo (id : UInt32) (props : Option SpaDict) : Except StdException PortInfo := do
  let nodeId ← idOfProp (dictGet props "node.id")
  return { id := id
           nodeId := nodeId
           name := dictGet props "port.name"
           direction := dictGet props "port.direction"
           mediaType := dictGet props "format.dsp"
           aliasName := dictGet props "port.alias"
           properties := dictToMap props }

def newLinkInfo (id : UInt32) (props : Option SpaDict) : Except StdException LinkInfo := do
  let outputNodeId ← idOfProp (dictGet props "link.output.node")
  let outputPortId ← idOfProp (dictGet props "link.output.port")
  let inputNodeId ← idOfProp (dictGet props "link.input.node")
  let inputPortId ← idOfProp (dictGet props "link.input.port")
  return { id := id
           outputNodeId := outputNodeId
           outputPortId := outputPortId
           inputNodeId := inputNodeId
           inputPortId := inputPortId
           state := "init"
           properties := dictToMap props }

def newDeviceInfo (id : UInt32) (props : Option SpaDict) : DeviceInfo :=
  { id := id
    name := dictGet props "device.name"
    description := dictGet props "device.description"
    mediaClass := dictGet props "media.class"
    api := dictGet props "device.api"
    properties := dictToMap props }

/-- A new port is made when its node's id parses. -/
theorem newPortInfo_eq_ok {id : UInt32} {props : Option SpaDict} {info : PortInfo} :
    newPortInfo id props = .ok info ↔ ∃ nodeId, idOfProp (dictGet props "node.id") = .ok nodeId ∧
      { id := id
        nodeId := nodeId
        name := dictGet props "port.name"
        direction := dictGet props "port.direction"
        mediaType := dictGet props "format.dsp"
        aliasName := dictGet props "port.alias"
        properties := dictToMap props } = info := by
  simp only [newPortInfo, bind_eq_ok_iff, pure, Except.pure, Except.ok.injEq]

/-- A new link is made when the four ids of its ends parse. -/
theorem newLinkInfo_eq_ok {id : UInt32} {props : Option SpaDict} {info : LinkInfo} :
    newLinkInfo id props = .ok info ↔
      ∃ outputNodeId, idOfProp (dictGet props "link.output.node") = .ok outputNodeId ∧
      ∃ outputPortId, idOfProp (dictGet props "link.output.port") = .ok outputPortId ∧
      ∃ inputNodeId, idOfProp (dictGet props "link.input.node") = .ok inputNodeId ∧
      ∃ inputPortId, idOfProp (dictGet props "link.input.port") = .ok inputPortId ∧
        { id := id
          outputNodeId := outputNodeId
          outputPortId := outputPortId
          inputNodeId := inputNodeId
          inputPortId := inputPortId
          state := "init"
          properties := dictToMap props } = info := by
  simp only [newLinkInfo, bind_eq_ok_iff, pure, Except.pure, Except.ok.injEq]

namespace RegistryMonitor

/-- `bound` is what `pw_registry_bind` returned. The second component is the exception that leaves
the callback, if any; the monitor beside it is the state it leaves behind: the type is recorded
before the id properties are parsed, the record and its proxy after. -/
def onGlobal (m : RegistryMonitor) (id : UInt32) (type : Option String) (props : Option SpaDict)
    (bound : Option PwProxy) : RegistryMonitor × Option StdException :=
  if type = some interfaceNode then
    ({ m with
        idTypes := m.idTypes.insert id "node"
        nodes := m.nodes.insert id (newNodeInfo id props)
        proxies := m.proxies.insert id (newProxyData id "node" bound) }, none)
  else if type = some interfacePort then
    match newPortInfo id props with
    | .error e => ({ m with idTypes := m.idTypes.insert id "port" }, some e)
    | .ok info =>
      ({ m with
          idTypes := m.idTypes.insert id "port"
          ports := m.ports.insert id info
          proxies := m.proxies.insert id (newProxyData id "port" bound) }, none)
  else if type = some interfaceLink then
    match newLinkInfo id props with
    | .error e => ({ m with idTypes := m.idTypes.insert id "link" }, some e)
    | .ok info =>
      ({ m with
          idTypes := m.idTypes.insert id "link"
          links := m.links.insert id info
          proxies := m.proxies.insert id (newProxyData id "link" bound) }, none)
  else if type = some interfaceDevice then
    ({ m with
        idTypes := m.idTypes.insert id "device"
        devices := m.devices.insert id (newDeviceInfo id props)
        proxies := m.proxies.insert id (newProxyData id "device" bound) }, none)
  else (m, none)

/-- The part of `on_global_remove` under the lock. -/
def eraseRecord (m : RegistryMonitor) (id : UInt32) (type : String) :
    RegistryMonitor × List GraphEvent :=
  if type = "node" then ({ m with nodes := m.nodes.erase id }, [.nodeRemoved id])
  else if type = "port" then ({ m with ports := m.ports.erase id }, [.portRemoved id])
  else if type = "link" then ({ m with links := m.links.erase id }, [.linkRemoved id])
  else if type = "device" then ({ m with devices := m.devices.erase id }, [])
  else (m, [])

def onGlobalRemove (m : RegistryMonitor) (id : UInt32) : RegistryMonitor × List GraphEvent :=
  match m.idTypes[id]? with
  | none => (m, [])
  | some type =>
    ({ (m.eraseRecord id type).1 with
        proxies := m.proxies.erase id
        idTypes := m.idTypes.erase id }, (m.eraseRecord id type).2)

end RegistryMonitor

def PW_NODE_STATE_ERROR : Int := -1
def PW_NODE_STATE_CREATING : Int := 0
def PW_NODE_STATE_SUSPENDED : Int := 1
def PW_NODE_STATE_IDLE : Int := 2
def PW_NODE_STATE_RUNNING : Int := 3

/-- The switch of `on_node_info`: a value outside it leaves the text as it is. -/
def nodeStateText (state : Int) (old : String) : String :=
  if state = PW_NODE_STATE_ERROR then "error"
  else if state = PW_NODE_STATE_CREATING then "creating"
  else if state = PW_NODE_STATE_SUSPENDED then "suspended"
  else if state = PW_NODE_STATE_IDLE then "idle"
  else if state = PW_NODE_STATE_RUNNING then "running"
  else old

def PW_LINK_STATE_ERROR : Int := -2
def PW_LINK_STATE_UNLINKED : Int := -1
def PW_LINK_STATE_INIT : Int := 0
def PW_LINK_STATE_NEGOTIATING : Int := 1
def PW_LINK_STATE_ALLOCATING : Int := 2
def PW_LINK_STATE_PAUSED : Int := 3
def PW_LINK_STATE_ACTIVE : Int := 4

def linkStateText (state : Int) (old : String) : String :=
  if state = PW_LINK_STATE_ERROR then "error"
  else if state = PW_LINK_STATE_UNLINKED then "unlinked"
  else if state = PW_LINK_STATE_INIT then "init"
  else if state = PW_LINK_STATE_NEGOTIATING then "negotiating"
  else if state = PW_LINK_STATE_ALLOCATING then "allocating"
  else if state = PW_LINK_STATE_PAUSED then "paused"
  else if state = PW_LINK_STATE_ACTIVE then "active"
  else old

def PW_DIRECTION_INPUT : Int := 0

/-- `if (!value.empty()) field = value;` -/
def overwriteNonempty (field value : String) : String :=
  if value.isEmpty then field else value

def flagOfProp (value : String) : Bool := value = "true" || value = "1"

def NodeInfo.mergeProps (node : NodeInfo) (props : Option SpaDict) : NodeInfo :=
  match props with
  | none => node
  | some _ =>
    { node with
      properties := dictToMap props
      name := overwriteNonempty node.name (dictGet props "node.name")
      mediaClass := overwriteNonempty node.mediaClass (dictGet props "media.class") }

def PortInfo.mergeProps (port : PortInfo) (props : Option SpaDict) : PortInfo :=
  match props with
  | none => port
  | some _ =>
    { port with
      properties := dictToMap props
      name := overwriteNonempty port.name (dictGet props "port.name")
      aliasName := overwriteNonempty port.aliasName (dictGet props "port.alias")
      isPhysical := flagOfProp (dictGet props "port.physical")
      isTerminal := flagOfProp (dictGet props "port.terminal") }

def DeviceInfo.mergeProps (device : DeviceInfo) (props : Option SpaDict) : DeviceInfo :=
  match props with
  | none => device
  | some _ =>
    { device with
      properties := dictToMap props
      name := overwriteNonempty device.name (dictGet props "device.name")
      description := overwriteNonempty device.description (dictGet props "device.description") }

def NodeInfo.update (node : NodeInfo) (info : PwNodeInfo) : NodeInfo :=
  { node with state := nodeStateText info.state node.state }.mergeProps info.props

def PortInfo.update (port : PortInfo) (info : PwPortInfo) : PortInfo :=
  { port with
    direction := if info.direction = PW_DIRECTION_INPUT then "input" else "output" }.mergeProps
      info.props

def LinkInfo.update (link : LinkInfo) (info : PwLinkInfo) : LinkInfo :=
  { link with
    outputNodeId := info.outputNodeId
    outputPortId := info.outputPortId
    inputNodeId := info.inputNodeId
    inputPortId := info.inputPortId
    state := linkStateText info.state link.state
    error := info.error.getD link.error }

namespace RegistryMonitor

def onNodeInfo (m : RegistryMonitor) (id : UInt32) (info : Option PwNodeInfo) :
    RegistryMonitor × List GraphEvent :=
  match info, m.nodes[id]? with
  | some info, some node =>
    let isNew := node.state = "creating"
    let node := node.update info
    ({ m with nodes := m.nodes.insert id node },
      [if isNew then .nodeAdded node else .nodeInfoChanged node])
  | _, _ => (m, [])

def onPortInfo (m : RegistryMonitor) (id : UInt32) (info : Option PwPortInfo) :
    RegistryMonitor × List GraphEvent :=
  match info, m.ports[id]? with
  | some info, some port =>
    let port := port.update info
    ({ m with ports := m.ports.insert id port }, [.portAdded port])
  | _, _ => (m, [])

def onLinkInfo (m : RegistryMonitor) (id : UInt32) (info : Option PwLinkInfo) :
    RegistryMonitor × List GraphEvent :=
  match info, m.links[id]? with
  | some info, some link =>
    let oldState := link.state
    let link := link.update info
    ({ m with links := m.links.insert id link },
      [if oldState = "init" then .linkAdded link else .linkStateChanged link])
  | _, _ => (m, [])

def onDeviceInfo (m : RegistryMonitor) (id : UInt32) (info : Option PwDeviceInfo) :
    RegistryMonitor :=
  match info, m.devices[id]? with
  | some info, some device =>
    { m with devices := m.devices.insert id (device.mergeProps info.props) }
  | _, _ => m

def getSnapshot (m : RegistryMonitor) : GraphSnapshot :=
  { nodes := m.nodes.toList.map Prod.snd
    ports := m.ports.toList.map Prod.snd
    links := m.links.toList.map Prod.snd
    devices := m.devices.toList.map Prod.snd }

end RegistryMonitor

end PwDart
