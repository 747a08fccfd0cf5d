import PwDart.GuardedMaps
import PwDart.LockedSections
import PwDart.RegistryCalls

namespace PwDart

open LabelledRun Locked

/-- What `mutex_` guards, with the events that are posted while it is held. -/
structure MonitorMaps where
  nodes : IdMap NodeInfo := ∅
  ports : IdMap PortInfo := ∅
  links : IdMap LinkInfo := ∅
  devices : IdMap DeviceInfo := ∅
  posted : List GraphEvent := []

/-- What the PipeWire thread uses without the lock. -/
structure LoopMaps where
  proxies : IdMap ProxyData := ∅
  idTypes : IdMap String := ∅

/-- The thread of the PipeWire loop, and the threads that run Dart. -/
inductive NativeThread
  | loop
  | dart (k : Nat)
deriving DecidableEq

inductive MonitorOp
  | callback (c : Callback)
  | getSnapshot

/-- What a section returns: the exception that leaves it, if any, or the copy, with the events posted before. -/
inductive MonitorResult
  | left (raised : Option StdException)
  | copied (snapshot : GraphSnapshot) (posted : List GraphEvent)

/-- Where a thread is in its section: before the lookup, at its writes, or in one of the loops that copy. -/
inductive MonitorSection
  | find (c : Callback)
  | write (rest : List (MonitorMaps → MonitorMaps))
  | copy (kind : Kind) (snapshot : GraphSnapshot)

def nodeMap : MapOf MonitorMaps UInt32 NodeInfo :=
  ⟨MonitorMaps.nodes, fun m x => { x with nodes := m }, fun _ _ => rfl, fun _ _ _ => rfl, fun _ => rfl⟩

def portMap : MapOf MonitorMaps UInt32 PortInfo :=
  ⟨MonitorMaps.ports, fun m x => { x with ports := m }, fun _ _ => rfl, fun _ _ _ => rfl, fun _ => rfl⟩

def linkMap : MapOf MonitorMaps UInt32 LinkInfo :=
  ⟨MonitorMaps.links, fun m x => { x with links := m }, fun _ _ => rfl, fun _ _ _ => rfl, fun _ => rfl⟩

def deviceMap : MapOf MonitorMaps UInt32 DeviceInfo :=
  ⟨MonitorMaps.devices, fun m x => { x with devices := m }, fun _ _ => rfl, fun _ _ _ => rfl, fun _ => rfl⟩

def MonitorMaps.post (event : GraphEvent) (x : MonitorMaps) : MonitorMaps := { x with posted := x.posted ++ [event] }

/-- `post_event` of the record that `find` gave. -/
def postOf {ρ : Type} (map : MapOf MonitorMaps UInt32 ρ) (id : UInt32) (event : ρ → GraphEvent) (x : MonitorMaps) :
    MonitorMaps :=
  match (map.get x)[id]? with
  | none => x
  | some record => x.post (event record)

/-- The writes of the section of `on_global`, or the exception of the ids it parses first. -/
def globalWrites (id : UInt32) (type : Option String) (props : Option SpaDict) :
    Except StdException (List (MonitorMaps → MonitorMaps)) :=
  if type = some interfaceNode then return nodeMap.assign {} id (newNodeInfo id props)
  else if type = some interfacePort then return portMap.assign {} id (← newPortInfo id props)
  else if type = some interfaceLink then return linkMap.assign {} id (← newLinkInfo id props)
  else if type = some interfaceDevice then return deviceMap.assign {} id (newDeviceInfo id props)
  else return []

def removeWrites (id : UInt32) (type : String) : List (MonitorMaps → MonitorMaps) :=
  if type = "node" then [nodeMap.erase id, MonitorMaps.post (.nodeRemoved id)]
  else if type = "port" then [portMap.erase id, MonitorMaps.post (.portRemoved id)]
  else if type = "link" then [linkMap.erase id, MonitorMaps.post (.linkRemoved id)]
  else if type = "device" then [deviceMap.erase id]
  else []

/-- The assignments to the fields of a node, in the order of the source. -/
def nodeEdits (info : PwNodeInfo) : List (NodeInfo → NodeInfo) :=
  (fun node => { node with state := nodeStateText info.state node.state }) ::
    match info.props with
    | none => []
    | some _ =>
      [fun node => { node with properties := dictToMap info.props },
        fun node => { node with name := overwriteNonempty node.name (dictGet info.props "node.name") },
        fun node => { node with mediaClass := overwriteNonempty node.mediaClass (dictGet info.props "media.class") }]

def portEdits (info : PwPortInfo) : List (PortInfo → PortInfo) :=
  (fun port => { port with direction := if info.direction = PW_DIRECTION_INPUT then "input" else "output" }) ::
    match info.props with
    | none => []
    | some _ =>
      [fun port => { port with properties := dictToMap info.props },
        fun port => { port with name := overwriteNonempty port.name (dictGet info.props "port.name") },
        fun port => { port with aliasName := overwriteNonempty port.aliasName (dictGet info.props "port.alias") },
        fun port => { port with isPhysical := flagOfProp (dictGet info.props "port.physical") },
        fun port => { port with isTerminal := flagOfProp (dictGet info.props "port.terminal") }]

def linkEdits (info : PwLinkInfo) : List (LinkInfo → LinkInfo) :=
  [fun link => { link with outputNodeId := info.outputNodeId },
    fun link => { link with outputPortId := info.outputPortId },
    fun link => { link with inputNodeId := info.inputNodeId },
    fun link => { link with inputPortId := info.inputPortId },
    fun link => { link with state := linkStateText info.state link.state },
    fun link => { link with error := info.error.getD link.error }]

def deviceEdits (info : PwDeviceInfo) : List (DeviceInfo → DeviceInfo) :=
  match info.props with
  | none => []
  | some _ =>
    [fun device => { device with properties := dictToMap info.props },
      fun device => { device with name := overwriteNonempty device.name (dictGet info.props "device.name") },
      fun device => { device with
        description := overwriteNonempty device.description (dictGet info.props "device.description") }]

/-- The writes of an info callback, from what the lookup found. -/
def infoWrites (x : MonitorMaps) : Callback → List (MonitorMaps → MonitorMaps)
  | .nodeInfo id (some info) =>
    match x.nodes[id]? with
    | none => []
    | some node =>
      (nodeEdits info).map (nodeMap.edit id) ++
        [postOf nodeMap id (if node.state = "creating" then .nodeAdded else .nodeInfoChanged)]
  | .portInfo id (some info) =>
    match x.ports[id]? with
    | none => []
    | some _ =>
      (portEdits info).map (portMap.edit id) ++ [postOf portMap id .portAdded]
  | .linkInfo id (some info) =>
    match x.links[id]? with
    | none => []
    | some link =>
      (linkEdits info).map (linkMap.edit id) ++
        [postOf linkMap id (if link.state = "init" then .linkAdded else .linkStateChanged)]
  | .deviceInfo id (some info) =>
    match x.devices[id]? with
    | none => []
    | some _ => (deviceEdits info).map (deviceMap.edit id)
  | _ => []

/-- One round of a loop of `get_snapshot_json`: the next record is copied, or the loop ends. -/
def copyStep (kind : Kind) (snapshot : GraphSnapshot) (x : MonitorMaps) : MonitorSection ⊕ MonitorResult :=
  match kind with
  | .node =>
    match x.nodes.toList[snapshot.nodes.length]? with
    | some (_, n) => .inl (.copy .node { snapshot with nodes := snapshot.nodes ++ [n] })
    | none => .inl (.copy .port snapshot)
  | .port =>
    match x.ports.toList[snapshot.ports.length]? with
    | some (_, p) => .inl (.copy .port { snapshot with ports := snapshot.ports ++ [p] })
    | none => .inl (.copy .link snapshot)
  | .link =>
    match x.links.toList[snapshot.links.length]? with
    | some (_, l) => .inl (.copy .link { snapshot with links := snapshot.links ++ [l] })
    | none => .inl (.copy .device snapshot)
  | .device =>
    match x.devices.toList[snapshot.devices.length]? with
    | some (_, d) => .inl (.copy .device { snapshot with devices := snapshot.devices ++ [d] })
    | none => .inr (.copied snapshot x.posted)

def sectionStep : MonitorSection → MonitorMaps → Micro MonitorMaps MonitorSection MonitorResult
  | .find (.global id type props _), x =>
    match globalWrites id type props with
    | .error e => .done (.left (some e))
    | .ok writes => .more (.write writes) x
  | .find c, x => .more (.write (infoWrites x c)) x
  | .write [], _ => .done (.left none)
  | .write (w :: rest), x => .more (.write rest) (w x)
  | .copy kind snapshot, x =>
    match copyStep kind snapshot x with
    | .inl next => .more next x
    | .inr r => .done r

/-- What `id_types_` gets for a type of PipeWire. -/
def kindText (type : Option String) : Option String :=
  if type = some interfaceNode then some "node"
  else if type = some interfacePort then some "port"
  else if type = some interfaceLink then some "link"
  else if type = some interfaceDevice then some "device"
  else none

/-- The callbacks of the monitor and `get_snapshot_json`, cut where they take and leave the lock. -/
def monitorProgram : Program NativeThread MonitorMaps LoopMaps MonitorOp MonitorSection MonitorResult where
  allowed
    | .loop, .callback _ => true
    | .dart _, .getSnapshot => true
    | _, _ => false
  before
    | .callback (.global id type _ _), m =>
      match kindText type with
      | none => m
      | some text => { m with idTypes := m.idTypes.insert id text }
    | _, m => m
  locks
    | .callback (.global _ type _ _), _ => (kindText type).isSome
    | .callback (.globalRemove id), m => m.idTypes[id]?.isSome
    | .callback (.nodeInfo _ info), _ => info.isSome
    | .callback (.portInfo _ info), _ => info.isSome
    | .callback (.linkInfo _ info), _ => info.isSome
    | .callback (.deviceInfo _ info), _ => info.isSome
    | .getSnapshot, _ => true
  enter
    | .callback (.globalRemove id), m => .write (removeWrites id (m.idTypes[id]?.getD ""))
    | .callback c, _ => .find c
    | .getSnapshot, _ => .copy .node {}
  micro := sectionStep
  after
    | .callback (.global id type _ bound), .left none, m =>
      { m with proxies := m.proxies.insert id (newProxyData id ((kindText type).getD "") bound) }
    | .callback (.globalRemove id), _, m => ⟨m.proxies.erase id, m.idTypes.erase id⟩
    | _, _, m => m

namespace MonitorMaps

/-- The monitor as one. -/
def join (x : MonitorMaps) (m : LoopMaps) : RegistryMonitor :=
  ⟨m.proxies, x.nodes, x.ports, x.links, x.devices, m.idTypes⟩

def take (x : MonitorMaps) (r : RegistryMonitor × List GraphEvent) : MonitorMaps :=
  ⟨r.1.nodes, r.1.ports, r.1.links, r.1.devices, x.posted ++ r.2⟩

end MonitorMaps

/-- What a section does, as one. -/
def monitorResult : MonitorOp → LoopMaps → MonitorMaps → MonitorResult × MonitorMaps
  | .callback c, m, x => (.left ((x.join m).raised c), x.take ((x.join m).call c))
  | .getSnapshot, m, x => (.copied (x.join m).getSnapshot x.posted, x)

/-- After the edits of a record it is posted. -/
theorem runWrites_edits_post {ρ : Type} (map : MapOf MonitorMaps UInt32 ρ) {x : MonitorMaps} {id : UInt32} {record : ρ}
    (found : (map.get x)[id]? = some record) (edits : List (ρ → ρ)) (event : ρ → GraphEvent) :
    runWrites (edits.map (map.edit id) ++ [postOf map id event]) x =
      (map.set ((map.get x).insert id (runWrites edits record)) x).post (event (runWrites edits record)) := by
  rw [runWrites_append, map.runWrites_edits found]
  simp only [runWrites, List.foldl_cons, List.foldl_nil, postOf, map.get_set, Std.ExtTreeMap.getElem?_insert_self]

theorem runWrites_nodeEdits (info : PwNodeInfo) (node : NodeInfo) :
    runWrites (nodeEdits info) node = node.update info := by
  cases props : info.props <;> simp [runWrites, nodeEdits, NodeInfo.update, NodeInfo.mergeProps, props]

theorem runWrites_portEdits (info : PwPortInfo) (port : PortInfo) :
    runWrites (portEdits info) port = port.update info := by
  cases props : info.props <;> simp [runWrites, portEdits, PortInfo.update, PortInfo.mergeProps, props]

theorem runWrites_linkEdits (info : PwLinkInfo) (link : LinkInfo) :
    runWrites (linkEdits info) link = link.update info := rfl

theorem runWrites_deviceEdits (info : PwDeviceInfo) (device : DeviceInfo) :
    runWrites (deviceEdits info) device = device.mergeProps info.props := by
  cases props : info.props <;> simp [runWrites, deviceEdits, DeviceInfo.mergeProps, props]

theorem executes_write (writes : List (MonitorMaps → MonitorMaps)) (x : MonitorMaps) :
    monitorProgram.Executes (.write writes) x (.left none) (runWrites writes x) := by
  induction writes generalizing x with
  | nil => exact .done rfl
  | cons w rest ih => exact .more rfl (ih (w x))

section

variable (x : MonitorMaps) (m : LoopMaps)

theorem MonitorMaps.take_nil : x.take (x.join m, []) = x := by
  simp [MonitorMaps.join, MonitorMaps.take]

/-- The writes of `on_global` make the record, unless the ids do not parse. -/
theorem globalWrites_eq (id : UInt32) (type : Option String) (props : Option SpaDict) (bound : Option PwProxy) :
    (∃ e, globalWrites id type props = .error e ∧ ((x.join m).onGlobal id type props bound).2 = some e ∧
        x.take (((x.join m).onGlobal id type props bound).1, []) = x) ∨
      ∃ ws, globalWrites id type props = .ok ws ∧ ((x.join m).onGlobal id type props bound).2 = none ∧
        runWrites ws x = x.take (((x.join m).onGlobal id type props bound).1, []) := by
  unfold globalWrites RegistryMonitor.onGlobal
  split
  · refine .inr ⟨_, rfl, rfl, ?_⟩
    simp [MapOf.runWrites_assign, nodeMap, MonitorMaps.join, MonitorMaps.take]
  · split
    · cases newPortInfo id props with
      | error e => exact .inl ⟨e, rfl, rfl, by simp [MonitorMaps.join, MonitorMaps.take]⟩
      | ok info =>
        refine .inr ⟨_, rfl, rfl, ?_⟩
        simp [MapOf.runWrites_assign, portMap, MonitorMaps.join, MonitorMaps.take]
    · split
      · cases newLinkInfo id props with
        | error e => exact .inl ⟨e, rfl, rfl, by simp [MonitorMaps.join, MonitorMaps.take]⟩
        | ok info =>
          refine .inr ⟨_, rfl, rfl, ?_⟩
          simp [MapOf.runWrites_assign, linkMap, MonitorMaps.join, MonitorMaps.take]
      · split
        · refine .inr ⟨_, rfl, rfl, ?_⟩
          simp [MapOf.runWrites_assign, deviceMap, MonitorMaps.join, MonitorMaps.take]
        · exact .inr ⟨[], rfl, rfl, (x.take_nil m).symm⟩

theorem runWrites_removeWrites (id : UInt32) (type : String) :
    runWrites (removeWrites id type) x = x.take ((x.join m).eraseRecord id type) := by
  unfold removeWrites RegistryMonitor.eraseRecord
  split_ifs <;>
    simp [runWrites, MapOf.erase, nodeMap, portMap, linkMap, deviceMap, MonitorMaps.post, MonitorMaps.join,
      MonitorMaps.take]

theorem runWrites_nodeInfo (id : UInt32) (info : Option PwNodeInfo) :
    runWrites (infoWrites x (.nodeInfo id info)) x = x.take ((x.join m).call (.nodeInfo id info)) := by
  cases info with
  | none => exact (x.take_nil m).symm
  | some info =>
    cases found : x.nodes[id]? with
    | none =>
      simp [infoWrites, found, RegistryMonitor.call, RegistryMonitor.onNodeInfo, MonitorMaps.join,
        MonitorMaps.take, runWrites]
    | some node =>
      have written := runWrites_edits_post nodeMap found (nodeEdits info)
      simp only [nodeMap] at written
      rw [runWrites_nodeEdits] at written
      by_cases fresh : node.state = "creating" <;>
        simp [infoWrites, nodeMap, found, written, fresh, RegistryMonitor.call, RegistryMonitor.onNodeInfo,
          MonitorMaps.join, MonitorMaps.take, MonitorMaps.post]

theorem runWrites_portInfo (id : UInt32) (info : Option PwPortInfo) :
    runWrites (infoWrites x (.portInfo id info)) x = x.take ((x.join m).call (.portInfo id info)) := by
  cases info with
  | none => exact (x.take_nil m).symm
  | some info =>
    cases found : x.ports[id]? with
    | none =>
      simp [infoWrites, found, RegistryMonitor.call, RegistryMonitor.onPortInfo, MonitorMaps.join,
        MonitorMaps.take, runWrites]
    | some port =>
      have written := runWrites_edits_post portMap found (portEdits info) .portAdded
      simp only [portMap] at written
      simp only [infoWrites, portMap, found, written, runWrites_portEdits, RegistryMonitor.call,
        RegistryMonitor.onPortInfo, MonitorMaps.join, MonitorMaps.take, MonitorMaps.post]

theorem runWrites_linkInfo (id : UInt32) (info : Option PwLinkInfo) :
    runWrites (infoWrites x (.linkInfo id info)) x = x.take ((x.join m).call (.linkInfo id info)) := by
  cases info with
  | none => exact (x.take_nil m).symm
  | some info =>
    cases found : x.links[id]? with
    | none =>
      simp [infoWrites, found, RegistryMonitor.call, RegistryMonitor.onLinkInfo, MonitorMaps.join,
        MonitorMaps.take, runWrites]
    | some link =>
      have written := runWrites_edits_post linkMap found (linkEdits info)
      simp only [linkMap] at written
      rw [runWrites_linkEdits] at written
      by_cases fresh : link.state = "init" <;>
        simp [infoWrites, linkMap, found, written, fresh, RegistryMonitor.call, RegistryMonitor.onLinkInfo,
          MonitorMaps.join, MonitorMaps.take, MonitorMaps.post]

theorem runWrites_deviceInfo (id : UInt32) (info : Option PwDeviceInfo) :
    runWrites (infoWrites x (.deviceInfo id info)) x = x.take ((x.join m).call (.deviceInfo id info)) := by
  cases info with
  | none => exact (x.take_nil m).symm
  | some info =>
    cases found : x.devices[id]? with
    | none =>
      simp [infoWrites, found, RegistryMonitor.call, RegistryMonitor.onDeviceInfo, MonitorMaps.join,
        MonitorMaps.take, runWrites]
    | some device =>
      have written := deviceMap.runWrites_edits found (deviceEdits info)
      simp only [deviceMap] at written
      simp only [infoWrites, deviceMap, found, written, runWrites_deviceEdits, RegistryMonitor.call,
        RegistryMonitor.onDeviceInfo, MonitorMaps.join, MonitorMaps.take, List.append_nil]

/-- The writes of an info callback update the record and post it. -/
theorem runWrites_infoWrites (c : Callback) (about : c.lifetimeOf = none) :
    runWrites (infoWrites x c) x = x.take ((x.join m).call c) := by
  cases c with
  | global id type props bound => cases about
  | globalRemove id => cases about
  | nodeInfo id info => exact runWrites_nodeInfo x m id info
  | portInfo id info => exact runWrites_portInfo x m id info
  | linkInfo id info => exact runWrites_linkInfo x m id info
  | deviceInfo id info => exact runWrites_deviceInfo x m id info

/-- The section of an info callback, after its lookup. -/
theorem executes_info (c : Callback) (about : c.lifetimeOf = none) :
    monitorProgram.Executes (.write (infoWrites x c)) x (.left none) (x.take ((x.join m).call c)) := by
  have written := executes_write (infoWrites x c) x
  rwa [runWrites_infoWrites x m c about] at written

/-- A loop that copies: each round takes the next record, and after the last the section goes on. -/
theorem executes_copyLoop {ρ : Type} (entries : List (UInt32 × ρ)) (place : List ρ → MonitorSection)
    {r : MonitorResult}
    (round : ∀ copied e rest, entries = copied ++ e :: rest →
      sectionStep (place (copied.map Prod.snd)) x = .more (place ((copied ++ [e]).map Prod.snd)) x)
    (last : monitorProgram.Executes (place (entries.map Prod.snd)) x r x) :
    monitorProgram.Executes (place []) x r x := by
  have onward : ∀ rest copied, entries = copied ++ rest →
      monitorProgram.Executes (place (copied.map Prod.snd)) x r x := by
    intro rest
    induction rest with
    | nil =>
      intro copied whole
      rw [List.append_nil] at whole
      rwa [← whole]
    | cons e rest ih =>
      intro copied whole
      exact .more (round copied e rest whole) (ih (copied ++ [e]) (by simp [whole]))
  exact onward entries [] rfl

/-- The entry that comes after those of the list. -/
theorem getElem?_copied {ρ : Type} {entries copied rest : List (UInt32 × ρ)} {e : UInt32 × ρ}
    (whole : entries = copied ++ e :: rest) : entries[copied.length]? = some e := by
  simp [whole]

/-- The four loops of `get_snapshot_json` copy the four maps. -/
theorem executes_copy : monitorProgram.Executes (.copy .node {}) x (.copied (x.join m).getSnapshot x.posted) x := by
  refine executes_copyLoop x x.nodes.toList (fun nodes => .copy .node { nodes := nodes }) ?_ (.more ?_
    (executes_copyLoop x x.ports.toList (fun ports => .copy .port { (x.join m).getSnapshot with
      ports := ports, links := [], devices := [] }) ?_ (.more ?_
    (executes_copyLoop x x.links.toList (fun links => .copy .link { (x.join m).getSnapshot with
      links := links, devices := [] }) ?_ (.more ?_
    (executes_copyLoop x x.devices.toList (fun devices => .copy .device { (x.join m).getSnapshot with
      devices := devices }) ?_ (.done ?_)))))))
  · intro copied e rest whole
    simp [sectionStep, copyStep, getElem?_copied whole]
  · simp [monitorProgram, sectionStep, copyStep, MonitorMaps.join, RegistryMonitor.getSnapshot]
  · intro copied e rest whole
    simp [sectionStep, copyStep, getElem?_copied whole]
  · simp [monitorProgram, sectionStep, copyStep, MonitorMaps.join, RegistryMonitor.getSnapshot]
  · intro copied e rest whole
    simp [sectionStep, copyStep, getElem?_copied whole]
  · simp [monitorProgram, sectionStep, copyStep, MonitorMaps.join, RegistryMonitor.getSnapshot]
  · intro copied e rest whole
    simp [sectionStep, copyStep, getElem?_copied whole]
  · simp [monitorProgram, sectionStep, copyStep, MonitorMaps.join, RegistryMonitor.getSnapshot]

end

theorem monitorProgram_performs : monitorProgram.Performs monitorResult := by
  intro o m x
  cases o with
  | getSnapshot => exact executes_copy x m
  | callback c =>
    cases c with
    | global id type props bound =>
      rcases globalWrites_eq x m id type props bound with ⟨e, parsed, raised, same⟩ | ⟨ws, parsed, raised, written⟩
      · simp only [monitorResult, RegistryMonitor.raised, RegistryMonitor.call, raised, same]
        exact .done (by simp only [monitorProgram, sectionStep, parsed])
      · simp only [monitorResult, RegistryMonitor.raised, RegistryMonitor.call, raised, ← written]
        exact .more (by simp only [monitorProgram, sectionStep, parsed]) (executes_write ws x)
    | globalRemove id =>
      have written := executes_write (removeWrites id (m.idTypes[id]?.getD "")) x
      rw [runWrites_removeWrites x m] at written
      cases typed : m.idTypes[id]? with
      | none =>
        simpa [monitorProgram, monitorResult, RegistryMonitor.raised, RegistryMonitor.call,
          RegistryMonitor.onGlobalRemove, MonitorMaps.join, typed, RegistryMonitor.eraseRecord] using written
      | some type =>
        simpa [monitorProgram, monitorResult, RegistryMonitor.raised, RegistryMonitor.call,
          RegistryMonitor.onGlobalRemove, MonitorMaps.join, typed, MonitorMaps.take] using written
    | nodeInfo id info => exact .more rfl (executes_info x m _ rfl)
    | portInfo id info => exact .more rfl (executes_info x m _ rfl)
    | linkInfo id info => exact .more rfl (executes_info x m _ rfl)
    | deviceInfo id info => exact .more rfl (executes_info x m _ rfl)

end PwDart
