import PwDart.GraphJson

namespace PwDart

open Json

namespace PwGraph

/-- Each key of a map is the id of the object it maps to. -/
structure Keyed (g : PwGraph) : Prop where
  nodes : LinkedMap.KeyedBy PwNode.id g.nodes
  ports : LinkedMap.KeyedBy PwPort.id g.ports
  links : LinkedMap.KeyedBy PwLink.id g.links
  devices : LinkedMap.KeyedBy PwDevice.id g.devices

/-- What the empty graph or a decoded one becomes by events. -/
inductive Reachable : PwGraph → Prop
  | empty : Reachable {}
  | fromJson {json : Members} {g : PwGraph} : PwGraph.fromJson json = .ok g → Reachable g
  | applyEvent {g : PwGraph} (event : PwGraphEvent) : Reachable g → Reachable (g.applyEvent event)

theorem keyed_empty : Keyed {} where
  nodes := LinkedMap.keyedBy_empty _
  ports := LinkedMap.keyedBy_empty _
  links := LinkedMap.keyedBy_empty _
  devices := LinkedMap.keyedBy_empty _

theorem keyed_withNode {g : PwGraph} (keyed : g.Keyed) (node : PwNode) : (g.withNode node).Keyed :=
  { keyed with nodes := keyed.nodes.put node }

theorem keyed_withoutNode {g : PwGraph} (keyed : g.Keyed) (nodeId : Int) : (g.withoutNode nodeId).Keyed :=
  { keyed with nodes := keyed.nodes.erase nodeId }

theorem keyed_withPort {g : PwGraph} (keyed : g.Keyed) (port : PwPort) : (g.withPort port).Keyed :=
  { keyed with ports := keyed.ports.put port }

theorem keyed_withoutPort {g : PwGraph} (keyed : g.Keyed) (portId : Int) : (g.withoutPort portId).Keyed :=
  { keyed with ports := keyed.ports.erase portId }

theorem keyed_withLink {g : PwGraph} (keyed : g.Keyed) (link : PwLink) : (g.withLink link).Keyed :=
  { keyed with links := keyed.links.put link }

theorem keyed_withoutLink {g : PwGraph} (keyed : g.Keyed) (linkId : Int) : (g.withoutLink linkId).Keyed :=
  { keyed with links := keyed.links.erase linkId }

theorem keyed_applyEvent {g : PwGraph} (keyed : g.Keyed) (event : PwGraphEvent) : (g.applyEvent event).Keyed := by
  cases event with
  | nodeAdded node => exact keyed_withNode keyed node
  | nodeRemoved nodeId => exact keyed_withoutNode keyed nodeId
  | nodeInfoChanged node => exact keyed_withNode keyed node
  | portAdded port => exact keyed_withPort keyed port
  | portRemoved portId => exact keyed_withoutPort keyed portId
  | linkAdded link => exact keyed_withLink keyed link
  | linkRemoved linkId => exact keyed_withoutLink keyed linkId
  | linkStateChanged link => exact keyed_withLink keyed link
  | paramChanged nodeId key value => exact keyed

theorem keyed_foldlM {α : Type} {decode : Members → DartResult α} {idOf : α → Int} {items : List Value}
    {start found : LinkedMap Int α} (keyed : LinkedMap.KeyedBy idOf start)
    (folded : items.foldlM (collectStep decode idOf) start = .ok found) : LinkedMap.KeyedBy idOf found := by
  induction items generalizing start with
  | nil =>
    cases folded
    exact keyed
  | cons item items ih =>
    rw [List.foldlM_cons] at folded
    obtain ⟨next, step, rest⟩ := bind_eq_ok folded
    obtain ⟨members, _, step⟩ := bind_eq_ok step
    obtain ⟨x, _, step⟩ := bind_eq_ok step
    cases step
    exact ih (keyed.put x) rest

theorem keyed_collect {α : Type} {decode : Members → DartResult α} {idOf : α → Int} {json : Members} {name : String}
    {found : LinkedMap Int α} (collected : collect decode idOf json name = .ok found) :
    LinkedMap.KeyedBy idOf found := by
  unfold collect at collected
  split at collected
  next => exact keyed_foldlM (LinkedMap.keyedBy_empty idOf) collected
  next =>
    cases collected
    exact LinkedMap.keyedBy_empty idOf

theorem keyed_fromJson {json : Members} {g : PwGraph} (read : fromJson json = .ok g) : g.Keyed := by
  obtain ⟨nodes, hnodes, read⟩ := bind_eq_ok read
  obtain ⟨ports, hports, read⟩ := bind_eq_ok read
  obtain ⟨links, hlinks, read⟩ := bind_eq_ok read
  obtain ⟨devices, hdevices, read⟩ := bind_eq_ok read
  cases read
  exact ⟨keyed_collect hnodes, keyed_collect hports, keyed_collect hlinks, keyed_collect hdevices⟩

theorem keyed_of_reachable {g : PwGraph} (reached : g.Reachable) : g.Keyed := by
  induction reached with
  | empty => exact keyed_empty
  | fromJson read => exact keyed_fromJson read
  | applyEvent event _ keyed => exact keyed_applyEvent keyed event

/-- The list of a keyed map's values decodes to the map, in its order. -/
theorem collect_values {α : Type} {decode : Members → DartResult α} {encode : α → Members} {idOf : α → Int}
    {m : LinkedMap Int α} {json : Members} {name : String} (keyed : LinkedMap.KeyedBy idOf m)
    (reads : ∀ x, decode (encode x) = .ok x) (field : json.get name = .arr (m.values.map fun x => .obj (encode x))) :
    collect decode idOf json name = .ok m := by
  have collected : collect decode idOf json name = .ok (LinkedMap.ofEntries (m.values.map fun x => (idOf x, x))) :=
    collect_arr idOf json name m.values field reads
  rw [collected]
  exact congrArg Except.ok keyed.ofEntries_values

theorem fromJson_toJson {g : PwGraph} (keyed : g.Keyed) : fromJson g.toJson = .ok g := by
  have nodes : collect PwNode.fromJson PwNode.id g.toJson "nodes" = .ok g.nodes :=
    collect_values keyed.nodes PwNode.reads_toJson (by simp [toJson, Members.get, memberOf])
  have ports : collect PwPort.fromJson PwPort.id g.toJson "ports" = .ok g.ports :=
    collect_values keyed.ports PwPort.reads_toJson (by simp [toJson, Members.get, memberOf])
  have links : collect PwLink.fromJson PwLink.id g.toJson "links" = .ok g.links :=
    collect_values keyed.links PwLink.reads_toJson (by simp [toJson, Members.get, memberOf])
  have devices : collect PwDevice.fromJson PwDevice.id g.toJson "devices" = .ok g.devices :=
    collect_values keyed.devices PwDevice.reads_toJson (by simp [toJson, Members.get, memberOf])
  simp only [fromJson, nodes, ports, links, devices, bind, Except.bind, pure, Except.pure]

end PwGraph

/-- Reachable graphs, events and parameters read back from their JSON field by field. -/
theorem dart_json_round_trip :
    (∀ g : PwGraph, g.Reachable → g.Keyed ∧ PwGraph.fromJson g.toJson = .ok g) ∧
      (∀ event : PwGraphEvent, PwGraphEvent.fromJson event.toJson = .ok (some event)) ∧
      ∀ param : PwParam, PwParam.fromJson param.toJson = .ok param := by
  refine ⟨fun g reached => ?_, PwGraphEvent.reads_toJson, PwParam.reads_toJson⟩
  have keyed := PwGraph.keyed_of_reachable reached
  exact ⟨keyed, PwGraph.fromJson_toJson keyed⟩

def pausedNode : PwNode := ⟨7, utf16 "mic", [], .suspended, ∅⟩

theorem dart_json_round_trip_oneNode :
    PwGraph.fromJson (({} : PwGraph).applyEvent (.nodeAdded pausedNode)).toJson =
      .ok (({} : PwGraph).applyEvent (.nodeAdded pausedNode)) :=
  (dart_json_round_trip.1 _ (.applyEvent _ .empty)).2

end PwDart
