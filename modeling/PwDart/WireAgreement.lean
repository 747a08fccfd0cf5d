import PwDart.EventSerializer
import PwDart.GraphJson

namespace PwDart

open Json

def PwDirection.names : PwDirection → List String
  | input => ["input", "in"]
  | output => ["output", "out"]

/-- The state texts that `RegistryMonitor` stores. -/
def nodeStates : List String := ["error", "creating", "suspended", "idle", "running"]

def linkStates : List String := ["error", "unlinked", "init", "negotiating", "allocating", "paused", "active"]

theorem name_nodeState {s : String} (h : s ∈ nodeStates) : (PwNodeState.fromString (utf16 s)).name = s := by
  simp only [nodeStates, List.mem_cons, List.not_mem_nil, or_false] at h
  rcases h with rfl | rfl | rfl | rfl | rfl <;> rfl

theorem name_linkState {s : String} (h : s ∈ linkStates) : (PwLinkState.fromString (utf16 s)).name = s := by
  simp only [linkStates, List.mem_cons, List.not_mem_nil, or_false] at h
  rcases h with rfl | rfl | rfl | rfl | rfl | rfl | rfl <;> rfl

theorem fromString_direction (s : String) :
    PwDirection.fromString (utf16 s) = if s = "output" ∨ s = "out" then .output else .input := by
  simp only [PwDirection.fromString, utf16_inj]
  by_cases output : s = "output" ∨ s = "out"
  · rcases output with rfl | rfl <;> rfl
  · simp [output]

/-- The ids in each list of the snapshot differ. -/
structure GraphSnapshot.Distinct (s : GraphSnapshot) : Prop where
  nodes : (s.nodes.map NodeInfo.id).Nodup
  ports : (s.ports.map PortInfo.id).Nodup
  links : (s.links.map LinkInfo.id).Nodup
  devices : (s.devices.map DeviceInfo.id).Nodup

/-- The map has the images of the records under their ids, and nothing else. -/
def ShowsRecords {ρ α : Type} (idOf : ρ → UInt32) (image : ρ → α) (records : List ρ) (shown : LinkedMap Int α) : Prop :=
  ∀ key value, shown.lookup key = some value ↔ ∃ r ∈ records, dartId (idOf r) = key ∧ image r = value

theorem showsRecords_ofEntries {ρ α : Type} (idOf : ρ → UInt32) (image : ρ → α) {records : List ρ}
    (distinct : (records.map idOf).Nodup) :
    ShowsRecords idOf image records (LinkedMap.ofEntries (records.map fun r => (dartId (idOf r), image r))) := by
  have keys : ((records.map fun r => (dartId (idOf r), image r)).map Prod.fst).Nodup := by
    have injective : Function.Injective dartId := fun _ _ => dartId_inj.mp
    have mapped := distinct.map injective
    rw [List.map_map] at mapped ⊢
    exact mapped
  intro key value
  constructor
  · intro found
    by_cases known : key ∈ (records.map fun r => (dartId (idOf r), image r)).map Prod.fst
    · rw [List.map_map, List.mem_map] at known
      obtain ⟨r, hr, rfl⟩ := known
      have here := LinkedMap.lookup_ofEntries_of_mem keys (List.mem_map_of_mem (f := fun r => (dartId (idOf r), image r)) hr)
      exact ⟨r, hr, rfl, Option.some.inj (here.symm.trans found)⟩
    · rw [LinkedMap.lookup_ofEntries_of_notMem known] at found
      cases found
  · rintro ⟨r, hr, rfl, rfl⟩
    exact LinkedMap.lookup_ofEntries_of_mem keys (List.mem_map_of_mem (f := fun r => (dartId (idOf r), image r)) hr)

/-- The Dart graph of a snapshot. -/
structure GraphSnapshot.ShownBy (s : GraphSnapshot) (graph : PwGraph) : Prop where
  nodes : ShowsRecords NodeInfo.id NodeInfo.image s.nodes graph.nodes
  ports : ShowsRecords PortInfo.id PortInfo.image s.ports graph.ports
  links : ShowsRecords LinkInfo.id LinkInfo.image s.links graph.links
  devices : ShowsRecords DeviceInfo.id DeviceInfo.image s.devices graph.devices

theorem shownBy_fromJsonString {writeJson : Value → Option String} (writes : WritesJson writeJson)
    {s : GraphSnapshot} (distinct : s.Distinct) :
    ∃ graph, PwGraph.fromJsonString (utf16 (serializeSnapshot writeJson s)) = .ok graph ∧ s.ShownBy graph := by
  have native := GraphSnapshot.meta.codec.native s
  rw [write_meta] at native
  refine ⟨⟨_, _, _, _⟩, ?_, ⟨showsRecords_ofEntries _ NodeInfo.image distinct.nodes,
    showsRecords_ofEntries _ PortInfo.image distinct.ports, showsRecords_ofEntries _ LinkInfo.image distinct.links,
    showsRecords_ofEntries _ DeviceInfo.image distinct.devices⟩⟩
  rw [PwGraph.fromJsonString, serializeSnapshot, jsonDecode_write writes native]
  exact PwGraph.fromJsonValue_toJson s

/-- Every event and every snapshot arrives in Dart as it is, and every snapshot reads back. States go by
name, and so do directions; a text that names no direction is taken for an input. -/
theorem wire_agreement {writeJson : Value → Option String} {readJson : String → Option GraphSnapshot}
    (writes : WritesJson writeJson) (reads : ReadsSnapshots readJson) :
    (∀ event, deserializeEvent (utf16 (serializeEvent writeJson event)) = some event.image) ∧
      (∀ s : GraphSnapshot, s.Distinct → ∃ graph,
        PwGraph.fromJsonString (utf16 (serializeSnapshot writeJson s)) = .ok graph ∧ s.ShownBy graph) ∧
      (∀ s, deserializeSnapshot readJson (serializeSnapshot writeJson s) = s) ∧
      (∀ node : NodeInfo, node.state ∈ nodeStates → node.image.state.name = node.state) ∧
      (∀ link : LinkInfo, link.state ∈ linkStates → link.image.state.name = link.state) ∧
      ∀ port : PortInfo, port.image.direction =
        if port.direction = "output" ∨ port.direction = "out" then .output else .input :=
  ⟨deserializeEvent_serializeEvent writes, fun _ distinct => shownBy_fromJsonString writes distinct,
    deserializeSnapshot_serializeSnapshot writes reads, fun _ known => name_nodeState known,
    fun _ known => name_linkState known, fun port => fromString_direction port.direction⟩

/-- A writer and a reader as they are relied on. -/
def rfcWriter (v : Value) : Option String := some (String.ofList (write v))

def rfcReader (json : String) : Option GraphSnapshot :=
  (decode (utf16 json)).bind GraphSnapshot.meta.codec.read

theorem writesJson_rfcWriter : WritesJson rfcWriter := by
  intro v native
  refine ⟨_, rfl, ?_⟩
  rw [utf16, String.toList_ofList]
  exact decode_write native

theorem readsSnapshots_rfcReader : ReadsSnapshots rfcReader := by
  intro json v snapshot decoded read
  rw [rfcReader, decoded]
  exact read

def micInfo : NodeInfo := ⟨7, "mic \"1\"", "Audio/Source", "running", (∅ : StringMap).insert "node.name" "mic \"1\""⟩

def speakerInfo : NodeInfo := ⟨8, "speaker", "Audio/Sink", "suspended", (∅ : StringMap).insert "media.class" "Audio/Sink"⟩

theorem wire_agreement_twoNodes :
    deserializeEvent (utf16 (serializeEvent rfcWriter (.nodeAdded micInfo))) = some (.nodeAdded micInfo.image) ∧
      ∃ graph, PwGraph.fromJsonString (utf16 (serializeSnapshot rfcWriter ⟨[micInfo, speakerInfo], [], [], []⟩)) =
          .ok graph ∧
        graph.nodes.lookup 7 = some micInfo.image ∧ graph.nodes.lookup 8 = some speakerInfo.image := by
  obtain ⟨events, snapshots, _⟩ := wire_agreement writesJson_rfcWriter readsSnapshots_rfcReader
  obtain ⟨graph, decoded, shown⟩ :=
    snapshots ⟨[micInfo, speakerInfo], [], [], []⟩ ⟨by decide, by decide, by decide, by decide⟩
  refine ⟨events (.nodeAdded micInfo), graph, decoded, ?_, ?_⟩
  · exact (shown.nodes 7 _).mpr ⟨micInfo, by simp, rfl, rfl⟩
  · exact (shown.nodes 8 _).mpr ⟨speakerInfo, by simp, rfl, rfl⟩

/-- The snapshot after a control port has been announced and before its info arrives. -/
def notifySnapshot : GraphSnapshot :=
  (({} : RegistryMonitor).onGlobal 3 (some interfacePort)
    (some [⟨some "node.id", some "1"⟩, ⟨some "port.direction", some "notify"⟩]) (some 1)).1.getSnapshot

/-- A direction that Dart has no name for is shown as an input. -/
theorem notify_port_shown_as_input : notifySnapshot.Distinct ∧ ∃ graph,
    PwGraph.fromJsonString (utf16 (serializeSnapshot rfcWriter notifySnapshot)) = .ok graph ∧
      ∃ port ∈ notifySnapshot.ports, ∃ shown, graph.ports.lookup (dartId port.id) = some shown ∧
        port.direction ∉ shown.direction.names := by
  have distinct : notifySnapshot.Distinct := ⟨by decide, by decide, by decide, by decide⟩
  obtain ⟨graph, decoded, shown⟩ := shownBy_fromJsonString writesJson_rfcWriter distinct
  obtain ⟨port, listed, direction⟩ : ∃ port ∈ notifySnapshot.ports, port.direction = "notify" := by
    decide
  refine ⟨distinct, graph, decoded, port, listed, port.image, (shown.ports _ _).mpr ⟨port, listed, rfl, rfl⟩, ?_⟩
  rw [direction]
  cases port.image.direction <;> decide

end PwDart
