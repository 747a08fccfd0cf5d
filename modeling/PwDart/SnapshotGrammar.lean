import PwDart.EventGrammar
import PwDart.GraphReplay
import PwDart.KeyedCollect

namespace PwDart

open Json LinkedMap

/-- `PwEventDeserializer.deserializeSnapshot`. -/
def PwEventDeserializer.deserializeSnapshot (json : Text) : PwGraph :=
  match PwGraph.fromJsonString json with
  | .ok graph => graph
  | .error _ => {}

/-- The items of a member that is a list; any other member is passed over. -/
def listed (json : Members) (name : String) : List Value :=
  match json.get name with
  | .arr items => items
  | _ => []

structure DeviceShape (json : Members) : Prop where
  id : IsInt (json.get "id")
  name : IsOptionalText (json.get "name")
  description : IsOptionalText (json.get "description")
  mediaClass : IsOptionalText (json.get "media_class")
  api : IsOptionalText (json.get "api")
  properties : IsOptionalObject (json.get "properties")

structure ShowsDevice (json : Members) (device : PwDevice) : Prop where
  id : json.get "id" = .int device.id
  name : ShowsText "" (json.get "name") device.name
  description : ShowsText "" (json.get "description") device.description
  mediaClass : ShowsText "" (json.get "media_class") device.mediaClass
  api : ShowsText "" (json.get "api") device.api
  properties : ShowsProperties (json.get "properties") device.properties

structure FlagsShape (json : Members) : Prop where
  readable : IsOptionalBool (json.get "readable")
  writable : IsOptionalBool (json.get "writable")

structure ParamShape (json : Members) : Prop where
  key : IsText (json.get "key")
  type : IsOptionalText (json.get "type")
  flags : json.get "flags" = .null ∨ InObject FlagsShape (json.get "flags")

structure ShowsFlags (json : Members) (flags : PwParamFlags) : Prop where
  readable : ShowsBool true (json.get "readable") flags.readable
  writable : ShowsBool false (json.get "writable") flags.writable

/-- The other fields are taken as they are. -/
structure ShowsParam (json : Members) (param : PwParam) : Prop where
  key : json.get "key" = .str param.key
  value : param.value = json.get "value"
  type : ∃ s, ShowsText "unknown" (json.get "type") s ∧ param.type = PwParamType.fromString s
  flags : json.get "flags" = .null ∧ param.flags = {} ∨
    InObject (fun object => ShowsFlags object param.flags) (json.get "flags")
  defaultValue : param.defaultValue = json.get "default"
  min : param.min = json.get "min"
  max : param.max = json.get "max"

/-- The items show the values, one by one. -/
def ItemsShow {α : Type} (shows_ : Members → α → Prop) : List Value → List α → Prop :=
  List.Forall₂ fun item x => InObject (fun object => shows_ object x) item

/-- The last value of each key, in the order in which the keys first came. -/
structure KeepsLast {κ α : Type} [DecidableEq κ] (keyOf : α → κ) (xs : List α) (m : LinkedMap κ α) : Prop where
  order : m.keys = (xs.map keyOf).eraseDups
  last : ∀ k, m.lookup k = (xs.filter fun x => keyOf x = k).getLast?

/-- What is shown of one list of a snapshot. -/
def ShowsList {κ α : Type} [DecidableEq κ] (shows_ : Members → α → Prop) (keyOf : α → κ) (items : List Value)
    (m : LinkedMap κ α) : Prop :=
  ∃ xs, ItemsShow shows_ items xs ∧ KeepsLast keyOf xs m

/-- The objects that are snapshots: what is no list may be anything. -/
structure SnapshotShape (json : Members) : Prop where
  nodes : ∀ item ∈ listed json "nodes", InObject NodeShape item
  ports : ∀ item ∈ listed json "ports", InObject PortShape item
  links : ∀ item ∈ listed json "links", InObject LinkShape item
  devices : ∀ item ∈ listed json "devices", InObject DeviceShape item

structure ShowsSnapshot (json : Members) (g : PwGraph) : Prop where
  nodes : ShowsList ShowsNode PwNode.id (listed json "nodes") g.nodes
  ports : ShowsList ShowsPort PwPort.id (listed json "ports") g.ports
  links : ShowsList ShowsLink PwLink.id (listed json "links") g.links
  devices : ShowsList ShowsDevice PwDevice.id (listed json "devices") g.devices

theorem PwDevice.fromJson_iff {json : Members} {device : PwDevice} :
    PwDevice.fromJson json = .ok device ↔ ShowsDevice json device := by
  simp only [PwDevice.fromJson, bind_eq_ok_iff, asInt_iff, asStringOr_iff, asProperties_iff]
  constructor
  · rintro ⟨id, hid, name, hname, description, hdescription, mediaClass, hmediaClass, api, hapi, properties,
      hproperties, same⟩
    cases same
    exact ⟨hid, hname, hdescription, hmediaClass, hapi, hproperties⟩
  · rintro ⟨id, name, description, mediaClass, api, properties⟩
    exact ⟨_, id, _, name, _, description, _, mediaClass, _, api, _, properties, rfl⟩

theorem deviceShape_iff {json : Members} : DeviceShape json ↔ ∃ device, ShowsDevice json device := by
  constructor
  · rintro ⟨⟨id, isId⟩, name, description, mediaClass, api, properties⟩
    obtain ⟨name, showsName⟩ := (isOptionalText_iff "").mp name
    obtain ⟨description, showsDescription⟩ := (isOptionalText_iff "").mp description
    obtain ⟨mediaClass, showsMediaClass⟩ := (isOptionalText_iff "").mp mediaClass
    obtain ⟨api, showsApi⟩ := (isOptionalText_iff "").mp api
    obtain ⟨properties, showsProperties⟩ := isOptionalObject_iff.mp properties
    exact ⟨⟨id, name, description, mediaClass, api, properties⟩, isId, showsName, showsDescription, showsMediaClass,
      showsApi, showsProperties⟩
  · rintro ⟨device, id, name, description, mediaClass, api, properties⟩
    exact ⟨⟨_, id⟩, (isOptionalText_iff "").mpr ⟨_, name⟩, (isOptionalText_iff "").mpr ⟨_, description⟩,
      (isOptionalText_iff "").mpr ⟨_, mediaClass⟩, (isOptionalText_iff "").mpr ⟨_, api⟩,
      isOptionalObject_iff.mpr ⟨_, properties⟩⟩

theorem PwParamFlags.fromJson_iff {json : Members} {flags : PwParamFlags} :
    PwParamFlags.fromJson json = .ok flags ↔ ShowsFlags json flags := by
  simp only [PwParamFlags.fromJson, bind_eq_ok_iff, asBoolOr_iff]
  constructor
  · rintro ⟨readable, hreadable, writable, hwritable, same⟩
    cases same
    exact ⟨hreadable, hwritable⟩
  · rintro ⟨readable, writable⟩
    exact ⟨_, readable, _, writable, rfl⟩

theorem paramFlags_iff {v : Value} {flags : PwParamFlags} :
    paramFlags v = .ok flags ↔ v = .null ∧ flags = {} ∨ InObject (fun object => ShowsFlags object flags) v := by
  cases v with
  | obj members => simp [paramFlags, InObject, asMembers, bind, Except.bind, PwParamFlags.fromJson_iff]
  | null => simp [paramFlags, InObject, eq_comm]
  | _ => simp [paramFlags, InObject, asMembers, bind, Except.bind]

theorem PwParam.fromJson_iff {json : Members} {param : PwParam} :
    PwParam.fromJson json = .ok param ↔ ShowsParam json param := by
  simp only [PwParam.fromJson, bind_eq_ok_iff, asString_iff, asStringOr_iff, paramFlags_iff]
  constructor
  · rintro ⟨key, hkey, type, htype, flags, hflags, same⟩
    cases same
    exact ⟨hkey, rfl, ⟨type, htype, rfl⟩, hflags, rfl, rfl, rfl⟩
  · rintro ⟨key, value, ⟨type, shown, same⟩, flags, defaultValue, min, max⟩
    refine ⟨_, key, type, shown, _, flags, ?_⟩
    rw [← same, ← value, ← defaultValue, ← min, ← max]
    rfl

theorem paramShape_iff {json : Members} : ParamShape json ↔ ∃ param, ShowsParam json param := by
  constructor
  · rintro ⟨⟨key, isKey⟩, type, flags⟩
    obtain ⟨type, showsType⟩ := (isOptionalText_iff "unknown").mp type
    have shown : ∃ flags : PwParamFlags, json.get "flags" = .null ∧ flags = {} ∨
        InObject (fun object => ShowsFlags object flags) (json.get "flags") := by
      rcases flags with absent | ⟨object, given, readable, writable⟩
      · exact ⟨{}, .inl ⟨absent, rfl⟩⟩
      · obtain ⟨readable, showsReadable⟩ := (isOptionalBool_iff true).mp readable
        obtain ⟨writable, showsWritable⟩ := (isOptionalBool_iff false).mp writable
        exact ⟨⟨readable, writable⟩, .inr ⟨object, given, showsReadable, showsWritable⟩⟩
    obtain ⟨flags, showsFlags⟩ := shown
    exact ⟨⟨key, json.get "value", PwParamType.fromString type, flags, json.get "default", json.get "min",
      json.get "max"⟩, isKey, rfl, ⟨type, showsType, rfl⟩, showsFlags, rfl, rfl, rfl⟩
  · rintro ⟨param, key, _, ⟨type, shown, _⟩, flags, _, _, _⟩
    refine ⟨⟨_, key⟩, (isOptionalText_iff "unknown").mpr ⟨_, shown⟩, ?_⟩
    rcases flags with ⟨absent, _⟩ | ⟨object, given, readable, writable⟩
    · exact .inl absent
    · exact .inr ⟨object, given, (isOptionalBool_iff true).mpr ⟨_, readable⟩, (isOptionalBool_iff false).mpr ⟨_, writable⟩⟩

theorem KeepsLast.eq_foldl {κ α : Type} [DecidableEq κ] {keyOf : α → κ} {xs : List α} {m : LinkedMap κ α}
    (kept : KeepsLast keyOf xs m) : m = xs.foldl (fun m x => m.put (keyOf x) x) ∅ := by
  rw [eq_collected_iff.mpr ⟨kept.order, kept.last⟩, collected, ofEntries, List.foldl_map]

section Lists

variable {κ α : Type} [DecidableEq κ] {decode : Members → DartResult α} {shows_ : Members → α → Prop}
  {keyOf : α → κ} {items : List Value}

theorem item_iff (decode_iff : ∀ {object x}, decode object = .ok x ↔ shows_ object x) {item : Value} {x : α} :
    (asMembers item >>= decode) = .ok x ↔ InObject (fun object => shows_ object x) item := by
  simp only [bind_eq_ok_iff, asMembers_iff, decode_iff, InObject]

/-- A loop that decodes the items and writes them shows the list. -/
theorem showsList_iff (decode_iff : ∀ {object x}, decode object = .ok x ↔ shows_ object x)
    {step : LinkedMap κ α → Value → DartResult (LinkedMap κ α)}
    (spec : ∀ m item found, step m item = .ok found ↔
      ∃ x, (asMembers item >>= decode) = .ok x ∧ found = m.put (keyOf x) x) {m : LinkedMap κ α} :
    items.foldlM step ∅ = .ok m ↔ ShowsList shows_ keyOf items m := by
  have same (xs : List α) : Decodes (fun item => asMembers item >>= decode) items xs ↔ ItemsShow shows_ items xs := by
    simp only [Decodes, ItemsShow, item_iff decode_iff]
  rw [foldlM_put_iff spec]
  refine exists_congr fun xs => and_congr (same xs) ?_
  rw [eq_collected_iff]
  exact ⟨fun h => ⟨h.1, h.2⟩, fun h => ⟨h.order, h.last⟩⟩

theorem inObject_iff {shape : Members → Prop} (shape_iff : ∀ {object}, shape object ↔ ∃ x, shows_ object x)
    {item : Value} : InObject shape item ↔ ∃ x, InObject (fun object => shows_ object x) item := by
  simp only [InObject, shape_iff]
  constructor
  · rintro ⟨object, given, x, shown⟩
    exact ⟨x, object, given, shown⟩
  · rintro ⟨x, object, given, shown⟩
    exact ⟨object, given, x, shown⟩

theorem itemsShow_of_shape {shape : Members → Prop} (shape_iff : ∀ {object}, shape object ↔ ∃ x, shows_ object x) :
    (∀ item ∈ items, InObject shape item) ↔ ∃ xs, ItemsShow shows_ items xs := by
  induction items with
  | nil => exact ⟨fun _ => ⟨[], .nil⟩, fun _ _ mem => absurd mem List.not_mem_nil⟩
  | cons item items ih =>
    rw [List.forall_mem_cons, ih, inObject_iff shape_iff]
    constructor
    · rintro ⟨⟨x, first⟩, xs, rest⟩
      exact ⟨x :: xs, .cons first rest⟩
    · rintro ⟨_, _ | ⟨first, rest⟩⟩
      exact ⟨⟨_, first⟩, _, rest⟩

/-- Whatever the items show, a map keeps the last of it. -/
theorem exists_showsList {shape : Members → Prop} (shape_iff : ∀ {object}, shape object ↔ ∃ x, shows_ object x)
    (keyOf : α → κ) :
    (∀ item ∈ items, InObject shape item) ↔ ∃ m : LinkedMap κ α, ShowsList shows_ keyOf items m := by
  rw [itemsShow_of_shape shape_iff]
  constructor
  · rintro ⟨xs, shown⟩
    exact ⟨collected keyOf xs, xs, shown, keys_collected keyOf xs, lookup_collected keyOf xs⟩
  · rintro ⟨m, xs, shown, _⟩
    exact ⟨xs, shown⟩

end Lists

theorem collect_eq_foldlM {α : Type} (decode : Members → DartResult α) (idOf : α → Int) (json : Members)
    (name : String) : collect decode idOf json name = (listed json name).foldlM (collectStep decode idOf) ∅ := by
  unfold collect listed
  cases json.get name <;> rfl

theorem collectStep_iff {α : Type} {decode : Members → DartResult α} {idOf : α → Int} (m : LinkedMap Int α)
    (item : Value) (found : LinkedMap Int α) : collectStep decode idOf m item = .ok found ↔
      ∃ x, (asMembers item >>= decode) = .ok x ∧ found = m.put (idOf x) x := by
  simp only [collectStep, bind_eq_ok_iff]
  constructor
  · rintro ⟨object, given, x, read, written⟩
    cases written
    exact ⟨x, ⟨object, given, read⟩, rfl⟩
  · rintro ⟨x, ⟨object, given, read⟩, rfl⟩
    exact ⟨object, given, x, read, rfl⟩

theorem collect_iff {α : Type} {decode : Members → DartResult α} {shows_ : Members → α → Prop} {idOf : α → Int}
    (decode_iff : ∀ {object x}, decode object = .ok x ↔ shows_ object x) {json : Members} {name : String}
    {m : LinkedMap Int α} :
    collect decode idOf json name = .ok m ↔ ShowsList shows_ idOf (listed json name) m := by
  rw [collect_eq_foldlM]
  exact showsList_iff decode_iff collectStep_iff

namespace PwGraph

theorem fromJson_iff {json : Members} {g : PwGraph} : fromJson json = .ok g ↔ ShowsSnapshot json g := by
  simp only [fromJson, bind_eq_ok_iff, collect_iff PwNode.fromJson_iff, collect_iff PwPort.fromJson_iff,
    collect_iff PwLink.fromJson_iff, collect_iff PwDevice.fromJson_iff]
  constructor
  · rintro ⟨nodes, hnodes, ports, hports, links, hlinks, devices, hdevices, same⟩
    cases same
    exact ⟨hnodes, hports, hlinks, hdevices⟩
  · rintro ⟨nodes, ports, links, devices⟩
    exact ⟨_, nodes, _, ports, _, links, _, devices, rfl⟩

theorem snapshotShape_iff {json : Members} : SnapshotShape json ↔ ∃ g, ShowsSnapshot json g := by
  constructor
  · rintro ⟨nodes, ports, links, devices⟩
    obtain ⟨nodes, showsNodes⟩ := (exists_showsList nodeShape_iff PwNode.id).mp nodes
    obtain ⟨ports, showsPorts⟩ := (exists_showsList portShape_iff PwPort.id).mp ports
    obtain ⟨links, showsLinks⟩ := (exists_showsList linkShape_iff PwLink.id).mp links
    obtain ⟨devices, showsDevices⟩ := (exists_showsList deviceShape_iff PwDevice.id).mp devices
    exact ⟨⟨nodes, ports, links, devices⟩, showsNodes, showsPorts, showsLinks, showsDevices⟩
  · rintro ⟨g, nodes, ports, links, devices⟩
    exact ⟨(exists_showsList nodeShape_iff PwNode.id).mpr ⟨_, nodes⟩,
      (exists_showsList portShape_iff PwPort.id).mpr ⟨_, ports⟩,
      (exists_showsList linkShape_iff PwLink.id).mpr ⟨_, links⟩,
      (exists_showsList deviceShape_iff PwDevice.id).mpr ⟨_, devices⟩⟩

end PwGraph

theorem jsonDecode_iff {json : Text} {value : Value} : jsonDecode json = .ok value ↔ decode json = some value := by
  unfold jsonDecode
  split <;> simp [*]

theorem fromJsonString_iff {json : Text} {g : PwGraph} :
    PwGraph.fromJsonString json = .ok g ↔ ∃ members, decode json = some (.obj members) ∧ ShowsSnapshot members g := by
  simp only [PwGraph.fromJsonString, PwGraph.fromJsonValue, bind_eq_ok_iff, jsonDecode_iff, asMembers_iff,
    PwGraph.fromJson_iff]
  constructor
  · rintro ⟨value, decoded, members, rfl, shown⟩
    exact ⟨members, decoded, shown⟩
  · rintro ⟨members, decoded, shown⟩
    exact ⟨_, decoded, members, rfl, shown⟩

theorem paramStep_iff (params : ParamMap) (item : Value) (found : ParamMap) : paramStep params item = .ok found ↔
    ∃ param, (asMembers item >>= PwParam.fromJson) = .ok param ∧ found = params.put param.key param := by
  simp only [paramStep, bind_eq_ok_iff]
  constructor
  · rintro ⟨object, given, param, read, written⟩
    cases written
    exact ⟨param, ⟨object, given, read⟩, rfl⟩
  · rintro ⟨param, ⟨object, given, read⟩, rfl⟩
    exact ⟨object, given, param, read, rfl⟩

theorem readParams_iff {json : Text} {params : ParamMap} : readParams json = .ok params ↔
    ∃ items, decode json = some (.arr items) ∧ ShowsList ShowsParam PwParam.key items params := by
  have asItems_iff {v : Value} {items : List Value} : asItems v = .ok items ↔ v = .arr items := by
    cases v <;> simp [asItems]
  simp only [readParams, bind_eq_ok_iff, jsonDecode_iff, asItems_iff]
  constructor
  · rintro ⟨value, decoded, items, rfl, folded⟩
    exact ⟨items, decoded, (showsList_iff PwParam.fromJson_iff paramStep_iff).mp folded⟩
  · rintro ⟨items, decoded, shown⟩
    exact ⟨_, decoded, items, rfl, (showsList_iff PwParam.fromJson_iff paramStep_iff).mpr shown⟩

/-- The texts that are snapshots are exactly those of the grammar, and what is read has the last object of each id,
in the order in which the ids first came. Any other text is an empty graph. -/
theorem deserializeSnapshot_exact (json : Text) :
    (∀ g, PwGraph.fromJsonString json = .ok g ↔
      ∃ members, decode json = some (.obj members) ∧ ShowsSnapshot members g) ∧
    (∀ members, decode json = some (.obj members) → SnapshotShape members →
      ShowsSnapshot members (PwEventDeserializer.deserializeSnapshot json)) ∧
    ((∀ members, decode json = some (.obj members) → ¬SnapshotShape members) →
      PwEventDeserializer.deserializeSnapshot json = {}) := by
  refine ⟨fun g => fromJsonString_iff, fun members decoded shape => ?_, fun other => ?_⟩
  · obtain ⟨g, shown⟩ := PwGraph.snapshotShape_iff.mp shape
    have read := fromJsonString_iff.mpr ⟨members, decoded, shown⟩
    rw [PwEventDeserializer.deserializeSnapshot, read]
    exact shown
  · cases read : PwGraph.fromJsonString json with
    | error e => rw [PwEventDeserializer.deserializeSnapshot, read]
    | ok g =>
      obtain ⟨members, decoded, shown⟩ := fromJsonString_iff.mp read
      exact absurd (PwGraph.snapshotShape_iff.mpr ⟨g, shown⟩) (other members decoded)

/-- A text of parameters is read as a whole, the last parameter of each key, or not at all. -/
theorem deserializeParams_exact (json : Text) :
    (∀ items, decode json = some (.arr items) → (∀ item ∈ items, InObject ParamShape item) →
      ShowsList ShowsParam PwParam.key items (deserializeParams json)) ∧
    ((∀ items, decode json = some (.arr items) → ∃ item ∈ items, ¬InObject ParamShape item) →
      deserializeParams json = ∅) := by
  refine ⟨fun items decoded shape => ?_, fun other => ?_⟩
  · obtain ⟨params, shown⟩ := (exists_showsList paramShape_iff PwParam.key).mp shape
    have read := readParams_iff.mpr ⟨items, decoded, shown⟩
    rw [deserializeParams, read]
    exact shown
  · cases read : readParams json with
    | error e => rw [deserializeParams, read]
    | ok params =>
      obtain ⟨items, decoded, shown⟩ := readParams_iff.mp read
      obtain ⟨item, mem, misshapen⟩ := other items decoded
      exact absurd ((exists_showsList paramShape_iff PwParam.key).mpr ⟨params, shown⟩ item mem) misshapen

/-- `\x7b"type": type, name: item\x7d`. -/
def announce (type name : String) (item : Value) : Value := .obj [(utf16 "type", textValue type), (utf16 name, item)]

/-- The events that bring the objects of a snapshot one after another. No event brings a device. -/
def announcements (json : Members) : List Value :=
  (listed json "nodes").map (announce "node_added" "node") ++
    (listed json "ports").map (announce "port_added" "port") ++
    (listed json "links").map (announce "link_added" "link")

section Announcements

variable {α : Type} {decode : Members → DartResult α} {shows_ : Members → α → Prop} {type name : String}
  {make : α → PwGraphEvent}

/-- An announcement is decoded as its object is. -/
def AnnouncedAs (decode : Members → DartResult α) (type name : String) (make : α → PwGraphEvent) : Prop :=
  ∀ item, deserializeEventValue (announce type name item) = (asMembers item >>= decode).toOption.map make

theorem deserializeEventValue_eq (json : Value) :
    deserializeEventValue json = (asMembers json >>= PwGraphEvent.fromJson).toOption.join := by
  unfold deserializeEventValue
  cases asMembers json >>= PwGraphEvent.fromJson <;> rfl

theorem announcedAs_of_fromJson (distinct : utf16 name ≠ utf16 "type")
    (branch : ∀ json : Members, json.get "type" = textValue type →
      PwGraphEvent.fromJson json = decodeField decode json name >>= fun x => .ok (some (make x))) :
    AnnouncedAs decode type name make := by
  intro item
  have given : Members.get [(utf16 "type", textValue type), (utf16 name, item)] "type" = textValue type := by
    simp [Members.get, distinct]
  have field : Members.get [(utf16 "type", textValue type), (utf16 name, item)] name = item := by
    simp [Members.get]
  have read : (asMembers (announce type name item) >>= PwGraphEvent.fromJson) =
      (asMembers item >>= decode) >>= fun x => .ok (some (make x)) := by
    have object : (asMembers (announce type name item) >>= PwGraphEvent.fromJson) =
        PwGraphEvent.fromJson [(utf16 "type", textValue type), (utf16 name, item)] := rfl
    rw [object, branch _ given, decodeField, field]
  rw [deserializeEventValue_eq, read]
  cases asMembers item >>= decode <;> rfl

theorem announcedAs_nodes : AnnouncedAs PwNode.fromJson "node_added" "node" .nodeAdded := by
  refine announcedAs_of_fromJson (by decide) fun json type => ?_
  simp [PwGraphEvent.fromJson, type, textValue, asStringOr, bind, Except.bind, pure, Except.pure]

theorem announcedAs_ports : AnnouncedAs PwPort.fromJson "port_added" "port" .portAdded := by
  refine announcedAs_of_fromJson (by decide) fun json type => ?_
  simp [PwGraphEvent.fromJson, type, textValue, asStringOr, bind, Except.bind, pure, Except.pure]

theorem announcedAs_links : AnnouncedAs PwLink.fromJson "link_added" "link" .linkAdded := by
  refine announcedAs_of_fromJson (by decide) fun json type => ?_
  simp [PwGraphEvent.fromJson, type, textValue, asStringOr, bind, Except.bind, pure, Except.pure]

theorem filterMap_announcements (announced : AnnouncedAs decode type name make)
    (decode_iff : ∀ {object x}, decode object = .ok x ↔ shows_ object x) {items : List Value} {xs : List α}
    (shown : ItemsShow shows_ items xs) :
    (items.map (announce type name)).filterMap deserializeEventValue = xs.map make := by
  induction shown with
  | nil => rfl
  | cons first _ ih =>
    have read := (announced _).trans (congrArg (fun r => r.toOption.map make) ((item_iff decode_iff).mpr first))
    rw [List.map_cons, List.filterMap_cons_some read, ih, List.map_cons]

theorem isSome_announce (announced : AnnouncedAs decode type name make)
    (decode_iff : ∀ {object x}, decode object = .ok x ↔ shows_ object x) {shape : Members → Prop}
    (shape_iff : ∀ {object}, shape object ↔ ∃ x, shows_ object x) (items : List Value) :
    (∀ event ∈ items.map (announce type name), (deserializeEventValue event).isSome) ↔
      ∀ item ∈ items, InObject shape item := by
  have one (item : Value) : (deserializeEventValue (announce type name item)).isSome ↔ InObject shape item := by
    rw [announced item, inObject_iff shape_iff]
    simp only [← item_iff decode_iff]
    cases asMembers item >>= decode <;> simp [Except.toOption]
  simp only [List.forall_mem_map, one]

end Announcements

namespace PwGraph

theorem applyEvents_nodes (g : PwGraph) (xs : List PwNode) : g.applyEvents (xs.map .nodeAdded) =
    { g with nodes := xs.foldl (fun m x => m.put x.id x) g.nodes } := by
  induction xs generalizing g with
  | nil => rfl
  | cons x xs ih => exact ih (g.withNode x)

theorem applyEvents_ports (g : PwGraph) (xs : List PwPort) : g.applyEvents (xs.map .portAdded) =
    { g with ports := xs.foldl (fun m x => m.put x.id x) g.ports } := by
  induction xs generalizing g with
  | nil => rfl
  | cons x xs ih => exact ih (g.withPort x)

theorem applyEvents_links (g : PwGraph) (xs : List PwLink) : g.applyEvents (xs.map .linkAdded) =
    { g with links := xs.foldl (fun m x => m.put x.id x) g.links } := by
  induction xs generalizing g with
  | nil => rfl
  | cons x xs ih => exact ih (g.withLink x)

theorem applyEvents_append (g : PwGraph) (events events' : List PwGraphEvent) :
    g.applyEvents (events ++ events') = (g.applyEvents events).applyEvents events' := List.foldl_append

/-- A snapshot is read where each of its objects would be as an event, and the graph is what those events make, in
its order too. Only the devices have no events. -/
theorem snapshot_agrees_with_events (json : Members) :
    ((∃ g, fromJson json = .ok g) ↔ (∀ event ∈ announcements json, (deserializeEventValue event).isSome) ∧
      ∀ item ∈ listed json "devices", InObject DeviceShape item) ∧
    ∀ g, fromJson json = .ok g →
      applyEvents { devices := g.devices } ((announcements json).filterMap deserializeEventValue) = g := by
  constructor
  · simp only [fromJson_iff, ← snapshotShape_iff, announcements, List.forall_mem_append,
      isSome_announce announcedAs_nodes PwNode.fromJson_iff nodeShape_iff,
      isSome_announce announcedAs_ports PwPort.fromJson_iff portShape_iff,
      isSome_announce announcedAs_links PwLink.fromJson_iff linkShape_iff]
    exact ⟨fun h => ⟨⟨⟨h.nodes, h.ports⟩, h.links⟩, h.devices⟩, fun h => ⟨h.1.1.1, h.1.1.2, h.1.2, h.2⟩⟩
  · intro g read
    obtain ⟨⟨nodes, showNodes, keepNodes⟩, ⟨ports, showPorts, keepPorts⟩, ⟨links, showLinks, keepLinks⟩, _⟩ :=
      fromJson_iff.mp read
    rw [announcements, List.filterMap_append, List.filterMap_append,
      filterMap_announcements announcedAs_nodes PwNode.fromJson_iff showNodes,
      filterMap_announcements announcedAs_ports PwPort.fromJson_iff showPorts,
      filterMap_announcements announcedAs_links PwLink.fromJson_iff showLinks, applyEvents_append, applyEvents_append,
      applyEvents_nodes, applyEvents_ports, applyEvents_links, ← keepNodes.eq_foldl, ← keepPorts.eq_foldl,
      ← keepLinks.eq_foldl]

end PwGraph

end PwDart
