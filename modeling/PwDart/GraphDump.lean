import PwDart.EventGrammar
import PwDart.GraphRoundTrip
import PwDart.JsonEncode
import PwDart.JsonInts

namespace PwDart

open Json

/-- What `pw_dump` prints, and `pw_cli` for `dump`. -/
def PwGraph.dump (layout : Layout) (g : PwGraph) : Text := encode layout 0 (.obj g.toJson)

/-- `JsonEncoder.withIndent('  ')`. -/
def pretty : Layout := withIndent (utf16 "  ") (by decide)

theorem encodable_properties (m : TextMap) : (TextMap.toJson m).Encodable := by
  change MembersEncodable _
  induction m.entries with
  | nil => trivial
  | cons entry entries ih => exact ⟨trivial, ih⟩

theorem int_of_fits {members : Members} (fits : MembersFit members) {name : String} {i : Int}
    (given : members.get name = .int i) : (Value.int i).Encodable := by
  have small := fits_get fits name
  rw [given] at small
  exact small

/-- An object that was decoded can be encoded. -/
theorem PwNode.encodable {json : Members} {node : PwNode} (fits : MembersFit json)
    (read : PwNode.fromJson json = .ok node) : MembersEncodable node.toJson := by
  have shown := PwNode.fromJson_iff.mp read
  exact ⟨int_of_fits fits shown.id, trivial, trivial, trivial, encodable_properties node.properties, trivial⟩

theorem PwPort.encodable {json : Members} {port : PwPort} (fits : MembersFit json)
    (read : PwPort.fromJson json = .ok port) : MembersEncodable port.toJson := by
  have shown := PwPort.fromJson_iff.mp read
  exact ⟨int_of_fits fits shown.id, int_of_fits fits shown.nodeId, trivial, trivial, trivial, trivial, trivial, trivial,
    encodable_properties port.properties, trivial⟩

theorem PwLink.encodable {json : Members} {link : PwLink} (fits : MembersFit json)
    (read : PwLink.fromJson json = .ok link) : MembersEncodable link.toJson := by
  have shown := PwLink.fromJson_iff.mp read
  exact ⟨int_of_fits fits shown.id, int_of_fits fits shown.outputNodeId, int_of_fits fits shown.outputPortId,
    int_of_fits fits shown.inputNodeId, int_of_fits fits shown.inputPortId, trivial, trivial,
    encodable_properties link.properties, trivial⟩

theorem PwDevice.encodable {json : Members} {device : PwDevice} (fits : MembersFit json)
    (read : PwDevice.fromJson json = .ok device) : MembersEncodable device.toJson := by
  obtain ⟨id, isId, read⟩ := bind_eq_ok read
  obtain ⟨name, _, read⟩ := bind_eq_ok read
  obtain ⟨description, _, read⟩ := bind_eq_ok read
  obtain ⟨mediaClass, _, read⟩ := bind_eq_ok read
  obtain ⟨api, _, read⟩ := bind_eq_ok read
  obtain ⟨properties, _, read⟩ := bind_eq_ok read
  cases read
  exact ⟨int_of_fits fits (asInt_iff.mp isId), trivial, trivial, trivial, trivial, encodable_properties properties, trivial⟩

/-- Every value of the map can be encoded. -/
def MapEncodable {α : Type} (toJson : α → Members) (m : LinkedMap Int α) : Prop :=
  ∀ id x, m.lookup id = some x → MembersEncodable (toJson x)

namespace MapEncodable

variable {α : Type} {toJson : α → Members} {m : LinkedMap Int α}

theorem empty : MapEncodable toJson (∅ : LinkedMap Int α) := by
  intro id x found
  simp at found

theorem put (h : MapEncodable toJson m) (k : Int) {x : α} (encodable : MembersEncodable (toJson x)) :
    MapEncodable toJson (m.put k x) := by
  intro id y found
  rw [LinkedMap.lookup_put] at found
  split at found
  next =>
    cases found
    exact encodable
  next => exact h id y found

theorem erase (h : MapEncodable toJson m) (k : Int) : MapEncodable toJson (m.erase k) := by
  intro id y found
  rw [LinkedMap.lookup_erase] at found
  split at found
  next => cases found
  next => exact h id y found

theorem values {idOf : α → Int} (h : MapEncodable toJson m) (keyed : LinkedMap.KeyedBy idOf m) :
    AllEncodable (m.values.map fun x => .obj (toJson x)) := by
  have each : ∀ x ∈ m.values, MembersEncodable (toJson x) := fun x mem => h (idOf x) x (keyed.mem_values.mp mem)
  generalize m.values = xs at each
  induction xs with
  | nil => trivial
  | cons x xs ih => exact ⟨each x List.mem_cons_self, ih fun y mem => each y (List.mem_cons_of_mem _ mem)⟩

theorem foldlM {decode : Members → DartResult α} {idOf : α → Int} {items : List Value} {found : LinkedMap Int α}
    (h : MapEncodable toJson m) (fits : AllFit items)
    (reads : ∀ json x, MembersFit json → decode json = .ok x → MembersEncodable (toJson x))
    (folded : items.foldlM (collectStep decode idOf) m = .ok found) : MapEncodable toJson found := by
  induction items generalizing m with
  | nil =>
    cases folded
    exact h
  | cons item items ih =>
    rw [List.foldlM_cons] at folded
    obtain ⟨next, step, rest⟩ := bind_eq_ok folded
    obtain ⟨json, object, step⟩ := bind_eq_ok step
    obtain ⟨x, read, step⟩ := bind_eq_ok step
    cases step
    cases asMembers_ok object
    exact ih (h.put (idOf x) (reads json x fits.1 read)) fits.2 rest

theorem collect {decode : Members → DartResult α} {idOf : α → Int} {json : Members} {name : String}
    {found : LinkedMap Int α} (fits : MembersFit json)
    (reads : ∀ json x, MembersFit json → decode json = .ok x → MembersEncodable (toJson x))
    (collected : PwDart.collect decode idOf json name = .ok found) : MapEncodable toJson found := by
  have field := fits_get fits name
  unfold PwDart.collect at collected
  split at collected
  next items same =>
    rw [same] at field
    exact foldlM empty field reads collected
  next =>
    cases collected
    exact empty

end MapEncodable

/-- What `jsonEncode` can take of a graph: all of it. -/
structure PwGraph.Encodable (g : PwGraph) : Prop where
  nodes : MapEncodable PwNode.toJson g.nodes
  ports : MapEncodable PwPort.toJson g.ports
  links : MapEncodable PwLink.toJson g.links
  devices : MapEncodable PwDevice.toJson g.devices

namespace PwGraph

theorem encodable_fromJson {json : Members} {g : PwGraph} (fits : MembersFit json) (read : fromJson json = .ok g) :
    g.Encodable := by
  obtain ⟨nodes, hnodes, read⟩ := bind_eq_ok read
  obtain ⟨ports, hports, read⟩ := bind_eq_ok read
  obtain ⟨links, hlinks, read⟩ := bind_eq_ok read
  obtain ⟨devices, hdevices, read⟩ := bind_eq_ok read
  cases read
  exact ⟨.collect fits (fun _ _ => PwNode.encodable) hnodes, .collect fits (fun _ _ => PwPort.encodable) hports,
    .collect fits (fun _ _ => PwLink.encodable) hlinks, .collect fits (fun _ _ => PwDevice.encodable) hdevices⟩

/-- A text that is read as a graph was that of an object. -/
theorem of_fromJsonString {json : Text} {g : PwGraph} (read : fromJsonString json = .ok g) :
    ∃ members, decode json = some (.obj members) ∧ fromJson members = .ok g := by
  obtain ⟨value, decoded, read⟩ := bind_eq_ok read
  obtain ⟨members, object, read⟩ := bind_eq_ok read
  cases asMembers_ok object
  refine ⟨members, ?_, read⟩
  unfold jsonDecode at decoded
  split at decoded
  next same => exact (Except.ok.inj decoded) ▸ same
  next => cases decoded

theorem keyed_fromJsonString {json : Text} {g : PwGraph} (read : fromJsonString json = .ok g) : g.Keyed := by
  obtain ⟨members, _, read⟩ := of_fromJsonString read
  exact keyed_fromJson read

theorem encodable_fromJsonString {json : Text} {g : PwGraph} (read : fromJsonString json = .ok g) : g.Encodable := by
  obtain ⟨members, decoded, read⟩ := of_fromJsonString read
  exact encodable_fromJson (fits_decode decoded) read

/-- An event that was decoded brings nothing that could not be encoded. -/
theorem encodable_applyEvent {g : PwGraph} (h : g.Encodable) {json : Text} {event : PwGraphEvent}
    (decoded : deserializeEvent json = some event) : (g.applyEvent event).Encodable := by
  obtain ⟨members, text, shown⟩ := deserializeEvent_iff.mp decoded
  have fits : MembersFit members := fits_decode text
  have object {name : String} {json : Members} (field : Members.get members name = .obj json) : MembersFit json := by
    have small := fits_get fits name
    rw [field] at small
    exact small
  cases shown with
  | nodeAdded _ field shown | nodeInfoChanged _ field shown =>
    exact { h with nodes := h.nodes.put _ (PwNode.encodable (object field) (PwNode.fromJson_iff.mpr shown)) }
  | portAdded _ field shown =>
    exact { h with ports := h.ports.put _ (PwPort.encodable (object field) (PwPort.fromJson_iff.mpr shown)) }
  | linkAdded _ field shown | linkStateChanged _ field shown =>
    exact { h with links := h.links.put _ (PwLink.encodable (object field) (PwLink.fromJson_iff.mpr shown)) }
  | nodeRemoved => exact { h with nodes := h.nodes.erase _ }
  | portRemoved => exact { h with ports := h.ports.erase _ }
  | linkRemoved => exact { h with links := h.links.erase _ }
  | paramChanged => exact h

theorem fromJsonString_dump (layout : Layout) {g : PwGraph} (keyed : g.Keyed) (h : g.Encodable) :
    fromJsonString (g.dump layout) = .ok g := by
  have encodable : (Value.obj g.toJson).Encodable :=
    ⟨h.nodes.values keyed.nodes, h.ports.values keyed.ports, h.links.values keyed.links, h.devices.values keyed.devices,
      trivial⟩
  have decoded : jsonDecode (g.dump layout) = .ok (.obj g.toJson) := by
    rw [jsonDecode, dump, decode_encode layout encodable]
  rw [fromJsonString, decoded]
  exact fromJson_toJson keyed

/-- A graph that a client can have is read back from its dump as it was, in its order, whether the dump is
indented or not. -/
theorem dump_reads_back {snapshot : Text} {g : PwGraph} (read : fromJsonString snapshot = .ok g)
    (messages : List Text) (layout : Layout) :
    fromJsonString (((messages.filterMap deserializeEvent).foldl applyEvent g).dump layout) =
      .ok ((messages.filterMap deserializeEvent).foldl applyEvent g) := by
  have start : g.Keyed ∧ g.Encodable := ⟨keyed_fromJsonString read, encodable_fromJsonString read⟩
  have shown : ((messages.filterMap deserializeEvent).foldl applyEvent g).Keyed ∧
      ((messages.filterMap deserializeEvent).foldl applyEvent g).Encodable := by
    clear read
    induction messages generalizing g with
    | nil => exact start
    | cons message messages ih =>
      cases decoded : deserializeEvent message with
      | none =>
        rw [List.filterMap_cons_none decoded]
        exact ih start
      | some event =>
        rw [List.filterMap_cons_some decoded]
        exact ih ⟨keyed_applyEvent start.1 event, encodable_applyEvent start.2 decoded⟩
  exact fromJsonString_dump layout shown.1 shown.2

/-- A node that is added and one that is removed, over the graph of an empty snapshot. -/
theorem dump_reads_back_nodes :
    let messages := [utf16 "\x7b\"type\":\"node_added\",\"node\":\x7b\"id\":7,\"name\":\"a\\\"b\"\x7d\x7d",
      utf16 "\x7b\"type\":\"node_removed\",\"node_id\":8\x7d"]
    fromJsonString (((messages.filterMap deserializeEvent).foldl applyEvent {}).dump pretty) =
      .ok ((messages.filterMap deserializeEvent).foldl applyEvent {}) :=
  dump_reads_back (rfl : fromJsonString (utf16 "\x7b\"nodes\":[]\x7d") = .ok {}) _ pretty

end PwGraph

end PwDart
