import PwDart.EventSerializer

namespace PwDart

open Json

def IsInt (v : Value) : Prop := ∃ i, v = .int i

def IsText (v : Value) : Prop := ∃ s, v = .str s

/-- Absent, null or of the type. -/
def IsOptionalText (v : Value) : Prop := v = .null ∨ IsText v

def IsOptionalBool (v : Value) : Prop := v = .null ∨ ∃ b, v = .bool b

def IsOptionalObject (v : Value) : Prop := v = .null ∨ ∃ members : Members, v = .obj members

/-- An object of the shape. -/
def InObject (shape : Members → Prop) (v : Value) : Prop := ∃ members : Members, v = .obj members ∧ shape members

structure NodeShape (json : Members) : Prop where
  id : IsInt (json.get "id")
  name : IsOptionalText (json.get "name")
  mediaClass : IsOptionalText (json.get "media_class")
  state : IsOptionalText (json.get "state")
  properties : IsOptionalObject (json.get "properties")

structure PortShape (json : Members) : Prop where
  id : IsInt (json.get "id")
  nodeId : IsInt (json.get "node_id")
  name : IsOptionalText (json.get "name")
  direction : IsOptionalText (json.get "direction")
  mediaType : IsOptionalText (json.get "media_type")
  isPhysical : IsOptionalBool (json.get "is_physical")
  isTerminal : IsOptionalBool (json.get "is_terminal")
  aliasName : IsOptionalText (json.get "alias")
  properties : IsOptionalObject (json.get "properties")

structure LinkShape (json : Members) : Prop where
  id : IsInt (json.get "id")
  outputNodeId : IsInt (json.get "output_node_id")
  outputPortId : IsInt (json.get "output_port_id")
  inputNodeId : IsInt (json.get "input_node_id")
  inputPortId : IsInt (json.get "input_port_id")
  state : IsOptionalText (json.get "state")
  error : IsOptionalText (json.get "error")
  properties : IsOptionalObject (json.get "properties")

/-- The objects that are events. -/
inductive EventShape (json : Members) : Prop
  | nodeAdded (type : json.get "type" = textValue "node_added") (node : InObject NodeShape (json.get "node"))
  | nodeRemoved (type : json.get "type" = textValue "node_removed") (nodeId : IsInt (json.get "node_id"))
  | nodeInfoChanged (type : json.get "type" = textValue "node_info_changed")
      (node : InObject NodeShape (json.get "node"))
  | portAdded (type : json.get "type" = textValue "port_added") (port : InObject PortShape (json.get "port"))
  | portRemoved (type : json.get "type" = textValue "port_removed") (portId : IsInt (json.get "port_id"))
  | linkAdded (type : json.get "type" = textValue "link_added") (link : InObject LinkShape (json.get "link"))
  | linkRemoved (type : json.get "type" = textValue "link_removed") (linkId : IsInt (json.get "link_id"))
  | linkStateChanged (type : json.get "type" = textValue "link_state_changed")
      (link : InObject LinkShape (json.get "link"))
  | paramChanged (type : json.get "type" = textValue "param_changed") (nodeId : IsInt (json.get "node_id"))
      (key : IsText (json.get "key"))

/-- The field has the value, or the default where it is absent or null. -/
def ShowsText (orElse : String) (v : Value) (s : Text) : Prop := v = .str s ∨ v = .null ∧ s = utf16 orElse

def ShowsBool (orElse : Bool) (v : Value) (b : Bool) : Prop := v = .bool b ∨ v = .null ∧ b = orElse

def ShowsProperties (v : Value) (properties : TextMap) : Prop :=
  (∃ members : Members, v = .obj members ∧
    properties = LinkedMap.ofEntries (members.map fun m => (m.1, toDartText m.2))) ∨ v = .null ∧ properties = ∅

structure ShowsNode (json : Members) (node : PwNode) : Prop where
  id : json.get "id" = .int node.id
  name : ShowsText "" (json.get "name") node.name
  mediaClass : ShowsText "" (json.get "media_class") node.mediaClass
  state : ∃ s, ShowsText "error" (json.get "state") s ∧ node.state = PwNodeState.fromString s
  properties : ShowsProperties (json.get "properties") node.properties

structure ShowsPort (json : Members) (port : PwPort) : Prop where
  id : json.get "id" = .int port.id
  nodeId : json.get "node_id" = .int port.nodeId
  name : ShowsText "" (json.get "name") port.name
  direction : ∃ s, ShowsText "input" (json.get "direction") s ∧ port.direction = PwDirection.fromString s
  mediaType : ShowsText "" (json.get "media_type") port.mediaType
  isPhysical : ShowsBool false (json.get "is_physical") port.isPhysical
  isTerminal : ShowsBool false (json.get "is_terminal") port.isTerminal
  aliasName : ShowsText "" (json.get "alias") port.aliasName
  properties : ShowsProperties (json.get "properties") port.properties

structure ShowsLink (json : Members) (link : PwLink) : Prop where
  id : json.get "id" = .int link.id
  outputNodeId : json.get "output_node_id" = .int link.outputNodeId
  outputPortId : json.get "output_port_id" = .int link.outputPortId
  inputNodeId : json.get "input_node_id" = .int link.inputNodeId
  inputPortId : json.get "input_port_id" = .int link.inputPortId
  state : ∃ s, ShowsText "error" (json.get "state") s ∧ link.state = PwLinkState.fromString s
  error : ShowsText "" (json.get "error") link.error
  properties : ShowsProperties (json.get "properties") link.properties

/-- The event has the class that the type names and the fields of the object. -/
inductive ShowsEvent (json : Members) : PwGraphEvent → Prop
  | nodeAdded {object : Members} {node : PwNode} (type : json.get "type" = textValue "node_added")
      (field : json.get "node" = .obj object) (shows_ : ShowsNode object node) : ShowsEvent json (.nodeAdded node)
  | nodeRemoved {nodeId : Int} (type : json.get "type" = textValue "node_removed")
      (field : json.get "node_id" = .int nodeId) : ShowsEvent json (.nodeRemoved nodeId)
  | nodeInfoChanged {object : Members} {node : PwNode} (type : json.get "type" = textValue "node_info_changed")
      (field : json.get "node" = .obj object) (shows_ : ShowsNode object node) : ShowsEvent json (.nodeInfoChanged node)
  | portAdded {object : Members} {port : PwPort} (type : json.get "type" = textValue "port_added")
      (field : json.get "port" = .obj object) (shows_ : ShowsPort object port) : ShowsEvent json (.portAdded port)
  | portRemoved {portId : Int} (type : json.get "type" = textValue "port_removed")
      (field : json.get "port_id" = .int portId) : ShowsEvent json (.portRemoved portId)
  | linkAdded {object : Members} {link : PwLink} (type : json.get "type" = textValue "link_added")
      (field : json.get "link" = .obj object) (shows_ : ShowsLink object link) : ShowsEvent json (.linkAdded link)
  | linkRemoved {linkId : Int} (type : json.get "type" = textValue "link_removed")
      (field : json.get "link_id" = .int linkId) : ShowsEvent json (.linkRemoved linkId)
  | linkStateChanged {object : Members} {link : PwLink} (type : json.get "type" = textValue "link_state_changed")
      (field : json.get "link" = .obj object) (shows_ : ShowsLink object link) : ShowsEvent json (.linkStateChanged link)
  | paramChanged {nodeId : Int} {key : Text} (type : json.get "type" = textValue "param_changed")
      (node : json.get "node_id" = .int nodeId) (name : json.get "key" = .str key) :
      ShowsEvent json (.paramChanged nodeId key (json.get "value"))

theorem asInt_iff {v : Value} {i : Int} : asInt v = .ok i ↔ v = .int i := by
  cases v <;> simp [asInt]

theorem asString_iff {v : Value} {s : Text} : asString v = .ok s ↔ v = .str s := by
  cases v <;> simp [asString]

theorem asMembers_iff {v : Value} {members : Members} : asMembers v = .ok members ↔ v = .obj members := by
  cases v <;> simp [asMembers]

theorem asStringOr_iff {orElse : String} {v : Value} {s : Text} :
    asStringOr orElse v = .ok s ↔ ShowsText orElse v s := by
  cases v <;> simp [asStringOr, ShowsText, eq_comm]

theorem asBoolOr_iff {orElse : Bool} {v : Value} {b : Bool} : asBoolOr orElse v = .ok b ↔ ShowsBool orElse v b := by
  cases v <;> simp [asBoolOr, ShowsBool, eq_comm]

theorem asProperties_iff {v : Value} {properties : TextMap} :
    asProperties v = .ok properties ↔ ShowsProperties v properties := by
  cases v <;> simp [asProperties, ShowsProperties, eq_comm]

theorem isOptionalText_iff {v : Value} (orElse : String) : IsOptionalText v ↔ ∃ s, ShowsText orElse v s := by
  cases v <;> simp [IsOptionalText, IsText, ShowsText]

theorem isOptionalBool_iff {v : Value} (orElse : Bool) : IsOptionalBool v ↔ ∃ b, ShowsBool orElse v b := by
  cases v <;> simp [IsOptionalBool, ShowsBool]

theorem isOptionalObject_iff {v : Value} : IsOptionalObject v ↔ ∃ properties, ShowsProperties v properties := by
  cases v <;> simp [IsOptionalObject, ShowsProperties]

theorem PwNode.fromJson_iff {json : Members} {node : PwNode} :
    PwNode.fromJson json = .ok node ↔ ShowsNode json node := by
  simp only [PwNode.fromJson, bind_eq_ok_iff, asInt_iff, asStringOr_iff, asProperties_iff]
  constructor
  · rintro ⟨id, hid, name, hname, mediaClass, hmediaClass, state, hstate, properties, hproperties, same⟩
    cases same
    exact ⟨hid, hname, hmediaClass, ⟨state, hstate, rfl⟩, hproperties⟩
  · rintro ⟨id, name, mediaClass, ⟨state, shown, same⟩, properties⟩
    refine ⟨_, id, _, name, _, mediaClass, state, shown, _, properties, ?_⟩
    rw [← same]
    rfl

theorem PwPort.fromJson_iff {json : Members} {port : PwPort} :
    PwPort.fromJson json = .ok port ↔ ShowsPort json port := by
  simp only [PwPort.fromJson, bind_eq_ok_iff, asInt_iff, asStringOr_iff, asBoolOr_iff, asProperties_iff]
  constructor
  · rintro ⟨id, hid, nodeId, hnodeId, name, hname, direction, hdirection, mediaType, hmediaType, isPhysical, hphysical,
      isTerminal, hterminal, aliasName, halias, properties, hproperties, same⟩
    cases same
    exact ⟨hid, hnodeId, hname, ⟨direction, hdirection, rfl⟩, hmediaType, hphysical, hterminal, halias, hproperties⟩
  · rintro ⟨id, nodeId, name, ⟨direction, shown, same⟩, mediaType, isPhysical, isTerminal, aliasName, properties⟩
    refine ⟨_, id, _, nodeId, _, name, direction, shown, _, mediaType, _, isPhysical, _, isTerminal, _, aliasName, _,
      properties, ?_⟩
    rw [← same]
    rfl

theorem PwLink.fromJson_iff {json : Members} {link : PwLink} :
    PwLink.fromJson json = .ok link ↔ ShowsLink json link := by
  simp only [PwLink.fromJson, bind_eq_ok_iff, asInt_iff, asStringOr_iff, asProperties_iff]
  constructor
  · rintro ⟨id, hid, outputNode, houtputNode, outputPort, houtputPort, inputNode, hinputNode, inputPort, hinputPort,
      state, hstate, error, herror, properties, hproperties, same⟩
    cases same
    exact ⟨hid, houtputNode, houtputPort, hinputNode, hinputPort, ⟨state, hstate, rfl⟩, herror, hproperties⟩
  · rintro ⟨id, outputNode, outputPort, inputNode, inputPort, ⟨state, shown, same⟩, error, properties⟩
    refine ⟨_, id, _, outputNode, _, outputPort, _, inputNode, _, inputPort, state, shown, _, error, _, properties, ?_⟩
    rw [← same]
    rfl

/-- An object of the right shape shows a node, and no other does. -/
theorem nodeShape_iff {json : Members} : NodeShape json ↔ ∃ node, ShowsNode json node := by
  constructor
  · rintro ⟨⟨id, isId⟩, name, mediaClass, state, properties⟩
    obtain ⟨name, showsName⟩ := (isOptionalText_iff "").mp name
    obtain ⟨mediaClass, showsMediaClass⟩ := (isOptionalText_iff "").mp mediaClass
    obtain ⟨state, showsState⟩ := (isOptionalText_iff "error").mp state
    obtain ⟨properties, showsProperties⟩ := isOptionalObject_iff.mp properties
    exact ⟨⟨id, name, mediaClass, PwNodeState.fromString state, properties⟩, isId, showsName, showsMediaClass,
      ⟨state, showsState, rfl⟩, showsProperties⟩
  · rintro ⟨node, id, name, mediaClass, ⟨state, shown, _⟩, properties⟩
    exact ⟨⟨_, id⟩, (isOptionalText_iff "").mpr ⟨_, name⟩, (isOptionalText_iff "").mpr ⟨_, mediaClass⟩,
      (isOptionalText_iff "error").mpr ⟨_, shown⟩, isOptionalObject_iff.mpr ⟨_, properties⟩⟩

theorem portShape_iff {json : Members} : PortShape json ↔ ∃ port, ShowsPort json port := by
  constructor
  · rintro ⟨⟨id, isId⟩, ⟨nodeId, isNodeId⟩, name, direction, mediaType, isPhysical, isTerminal, aliasName, properties⟩
    obtain ⟨name, showsName⟩ := (isOptionalText_iff "").mp name
    obtain ⟨direction, showsDirection⟩ := (isOptionalText_iff "input").mp direction
    obtain ⟨mediaType, showsMediaType⟩ := (isOptionalText_iff "").mp mediaType
    obtain ⟨isPhysical, showsPhysical⟩ := (isOptionalBool_iff false).mp isPhysical
    obtain ⟨isTerminal, showsTerminal⟩ := (isOptionalBool_iff false).mp isTerminal
    obtain ⟨aliasName, showsAlias⟩ := (isOptionalText_iff "").mp aliasName
    obtain ⟨properties, showsProperties⟩ := isOptionalObject_iff.mp properties
    exact ⟨⟨id, nodeId, name, PwDirection.fromString direction, mediaType, isPhysical, isTerminal, aliasName,
      properties⟩, isId, isNodeId, showsName, ⟨direction, showsDirection, rfl⟩, showsMediaType, showsPhysical,
      showsTerminal, showsAlias, showsProperties⟩
  · rintro ⟨port, id, nodeId, name, ⟨direction, shown, _⟩, mediaType, isPhysical, isTerminal, aliasName, properties⟩
    exact ⟨⟨_, id⟩, ⟨_, nodeId⟩, (isOptionalText_iff "").mpr ⟨_, name⟩, (isOptionalText_iff "input").mpr ⟨_, shown⟩,
      (isOptionalText_iff "").mpr ⟨_, mediaType⟩, (isOptionalBool_iff false).mpr ⟨_, isPhysical⟩,
      (isOptionalBool_iff false).mpr ⟨_, isTerminal⟩, (isOptionalText_iff "").mpr ⟨_, aliasName⟩,
      isOptionalObject_iff.mpr ⟨_, properties⟩⟩

theorem linkShape_iff {json : Members} : LinkShape json ↔ ∃ link, ShowsLink json link := by
  constructor
  · rintro ⟨⟨id, isId⟩, ⟨outputNodeId, isOutputNode⟩, ⟨outputPortId, isOutputPort⟩, ⟨inputNodeId, isInputNode⟩,
      ⟨inputPortId, isInputPort⟩, state, error, properties⟩
    obtain ⟨state, showsState⟩ := (isOptionalText_iff "error").mp state
    obtain ⟨error, showsError⟩ := (isOptionalText_iff "").mp error
    obtain ⟨properties, showsProperties⟩ := isOptionalObject_iff.mp properties
    exact ⟨⟨id, outputNodeId, outputPortId, inputNodeId, inputPortId, PwLinkState.fromString state, error, properties⟩,
      isId, isOutputNode, isOutputPort, isInputNode, isInputPort, ⟨state, showsState, rfl⟩, showsError,
      showsProperties⟩
  · rintro ⟨link, id, outputNode, outputPort, inputNode, inputPort, ⟨state, shown, _⟩, error, properties⟩
    exact ⟨⟨_, id⟩, ⟨_, outputNode⟩, ⟨_, outputPort⟩, ⟨_, inputNode⟩, ⟨_, inputPort⟩,
      (isOptionalText_iff "error").mpr ⟨_, shown⟩, (isOptionalText_iff "").mpr ⟨_, error⟩,
      isOptionalObject_iff.mpr ⟨_, properties⟩⟩

theorem eventShape_iff {json : Members} : EventShape json ↔ ∃ event, ShowsEvent json event := by
  constructor
  · intro shape
    cases shape with
    | nodeAdded type node =>
      obtain ⟨object, field, shape⟩ := node
      obtain ⟨node, shows_⟩ := nodeShape_iff.mp shape
      exact ⟨_, .nodeAdded type field shows_⟩
    | nodeRemoved type nodeId => exact ⟨_, .nodeRemoved type nodeId.choose_spec⟩
    | nodeInfoChanged type node =>
      obtain ⟨object, field, shape⟩ := node
      obtain ⟨node, shows_⟩ := nodeShape_iff.mp shape
      exact ⟨_, .nodeInfoChanged type field shows_⟩
    | portAdded type port =>
      obtain ⟨object, field, shape⟩ := port
      obtain ⟨port, shows_⟩ := portShape_iff.mp shape
      exact ⟨_, .portAdded type field shows_⟩
    | portRemoved type portId => exact ⟨_, .portRemoved type portId.choose_spec⟩
    | linkAdded type link =>
      obtain ⟨object, field, shape⟩ := link
      obtain ⟨link, shows_⟩ := linkShape_iff.mp shape
      exact ⟨_, .linkAdded type field shows_⟩
    | linkRemoved type linkId => exact ⟨_, .linkRemoved type linkId.choose_spec⟩
    | linkStateChanged type link =>
      obtain ⟨object, field, shape⟩ := link
      obtain ⟨link, shows_⟩ := linkShape_iff.mp shape
      exact ⟨_, .linkStateChanged type field shows_⟩
    | paramChanged type nodeId key => exact ⟨_, .paramChanged type nodeId.choose_spec key.choose_spec⟩
  · rintro ⟨event, shows_⟩
    cases shows_ with
    | nodeAdded type field shows_ => exact .nodeAdded type ⟨_, field, nodeShape_iff.mpr ⟨_, shows_⟩⟩
    | nodeRemoved type field => exact .nodeRemoved type ⟨_, field⟩
    | nodeInfoChanged type field shows_ => exact .nodeInfoChanged type ⟨_, field, nodeShape_iff.mpr ⟨_, shows_⟩⟩
    | portAdded type field shows_ => exact .portAdded type ⟨_, field, portShape_iff.mpr ⟨_, shows_⟩⟩
    | portRemoved type field => exact .portRemoved type ⟨_, field⟩
    | linkAdded type field shows_ => exact .linkAdded type ⟨_, field, linkShape_iff.mpr ⟨_, shows_⟩⟩
    | linkRemoved type field => exact .linkRemoved type ⟨_, field⟩
    | linkStateChanged type field shows_ => exact .linkStateChanged type ⟨_, field, linkShape_iff.mpr ⟨_, shows_⟩⟩
    | paramChanged type node name => exact .paramChanged type ⟨_, node⟩ ⟨_, name⟩

theorem decodeField_iff {α : Type} {decode : Members → DartResult α} {json : Members} {name : String} {x : α} :
    decodeField decode json name = .ok x ↔ ∃ object : Members, json.get name = .obj object ∧ decode object = .ok x := by
  simp only [decodeField, bind_eq_ok_iff, asMembers_iff]

/-- A type that is not empty has been given as a string. -/
theorem type_of_shows {v : Value} {s : String} (shown : ShowsText "" v (utf16 s)) (filled : s ≠ "") :
    v = textValue s := by
  rcases shown with given | ⟨_, empty⟩
  · exact given
  · exact absurd (utf16_inj.mp empty) filled

theorem object_of_read {α : Type} {decode : Members → DartResult α} {json : Members} {name : String}
    {make : α → PwGraphEvent} {event : PwGraphEvent}
    (read : (decodeField decode json name >>= fun x => pure (some (make x))) = .ok (some event)) :
    ∃ x object, event = make x ∧ json.get name = .obj object ∧ decode object = .ok x := by
  obtain ⟨x, field, made⟩ := bind_eq_ok_iff.mp read
  obtain ⟨object, isObject, decoded⟩ := decodeField_iff.mp field
  cases made
  exact ⟨x, object, rfl, isObject, decoded⟩

theorem id_of_read {json : Members} {name : String} {make : Int → PwGraphEvent} {event : PwGraphEvent}
    (read : (asInt (json.get name) >>= fun i => pure (some (make i))) = .ok (some event)) :
    ∃ i, event = make i ∧ json.get name = .int i := by
  obtain ⟨i, field, made⟩ := bind_eq_ok_iff.mp read
  cases made
  exact ⟨i, rfl, asInt_iff.mp field⟩

theorem showsEvent_of_fromJson {json : Members} {event : PwGraphEvent}
    (read : PwGraphEvent.fromJson json = .ok (some event)) : ShowsEvent json event := by
  obtain ⟨type, given, read⟩ := bind_eq_ok_iff.mp read
  have shown := asStringOr_iff.mp given
  split_ifs at read with same same same same same same same same same
  · subst same
    obtain ⟨node, object, rfl, field, decoded⟩ := object_of_read read
    exact .nodeAdded (type_of_shows shown (by decide)) field (PwNode.fromJson_iff.mp decoded)
  · subst same
    obtain ⟨nodeId, rfl, field⟩ := id_of_read read
    exact .nodeRemoved (type_of_shows shown (by decide)) field
  · subst same
    obtain ⟨node, object, rfl, field, decoded⟩ := object_of_read read
    exact .nodeInfoChanged (type_of_shows shown (by decide)) field (PwNode.fromJson_iff.mp decoded)
  · subst same
    obtain ⟨port, object, rfl, field, decoded⟩ := object_of_read read
    exact .portAdded (type_of_shows shown (by decide)) field (PwPort.fromJson_iff.mp decoded)
  · subst same
    obtain ⟨portId, rfl, field⟩ := id_of_read read
    exact .portRemoved (type_of_shows shown (by decide)) field
  · subst same
    obtain ⟨link, object, rfl, field, decoded⟩ := object_of_read read
    exact .linkAdded (type_of_shows shown (by decide)) field (PwLink.fromJson_iff.mp decoded)
  · subst same
    obtain ⟨linkId, rfl, field⟩ := id_of_read read
    exact .linkRemoved (type_of_shows shown (by decide)) field
  · subst same
    obtain ⟨link, object, rfl, field, decoded⟩ := object_of_read read
    exact .linkStateChanged (type_of_shows shown (by decide)) field (PwLink.fromJson_iff.mp decoded)
  · subst same
    obtain ⟨changed, param, made⟩ := bind_eq_ok_iff.mp read
    cases made
    obtain ⟨nodeId, node, param⟩ := bind_eq_ok_iff.mp param
    obtain ⟨key, name, made⟩ := bind_eq_ok_iff.mp param
    cases made
    exact .paramChanged (type_of_shows shown (by decide)) (asInt_iff.mp node) (asString_iff.mp name)
  · cases read

theorem fromJson_of_showsEvent {json : Members} {event : PwGraphEvent} (shows_ : ShowsEvent json event) :
    PwGraphEvent.fromJson json = .ok (some event) := by
  have object {α : Type} {decode : Members → DartResult α} {members : Members} {x : α} (name : String)
      (field : json.get name = .obj members) (decoded : decode members = .ok x) :
      decodeField decode json name = .ok x :=
    decodeField_iff.mpr ⟨members, field, decoded⟩
  cases shows_ with
  | nodeAdded type field shows_ =>
    have node := object "node" field (PwNode.fromJson_iff.mpr shows_)
    simp [PwGraphEvent.fromJson, type, textValue, asStringOr, node, bind, Except.bind, pure, Except.pure]
  | nodeInfoChanged type field shows_ =>
    have node := object "node" field (PwNode.fromJson_iff.mpr shows_)
    simp [PwGraphEvent.fromJson, type, textValue, asStringOr, node, bind, Except.bind, pure, Except.pure]
  | portAdded type field shows_ =>
    have port := object "port" field (PwPort.fromJson_iff.mpr shows_)
    simp [PwGraphEvent.fromJson, type, textValue, asStringOr, port, bind, Except.bind, pure, Except.pure]
  | linkAdded type field shows_ =>
    have link := object "link" field (PwLink.fromJson_iff.mpr shows_)
    simp [PwGraphEvent.fromJson, type, textValue, asStringOr, link, bind, Except.bind, pure, Except.pure]
  | linkStateChanged type field shows_ =>
    have link := object "link" field (PwLink.fromJson_iff.mpr shows_)
    simp [PwGraphEvent.fromJson, type, textValue, asStringOr, link, bind, Except.bind, pure, Except.pure]
  | nodeRemoved type field | portRemoved type field | linkRemoved type field =>
    simp [PwGraphEvent.fromJson, type, textValue, asStringOr, field, asInt, bind, Except.bind, pure, Except.pure]
  | paramChanged type node name =>
    simp [PwGraphEvent.fromJson, ParamChanged.fromJson, type, textValue, asStringOr, node, name, asInt, asString, bind,
      Except.bind, pure, Except.pure]

theorem deserializeEvent_iff {json : Text} {event : PwGraphEvent} :
    deserializeEvent json = some event ↔ ∃ members, decode json = some (.obj members) ∧ ShowsEvent members event := by
  unfold deserializeEvent jsonDecode
  cases decoded : decode json with
  | none => simp
  | some value =>
    have read : deserializeEventValue value = some event ↔
        ∃ members, value = .obj members ∧ PwGraphEvent.fromJson members = .ok (some event) := by
      simp only [← asMembers_iff, ← bind_eq_ok_iff, deserializeEventValue]
      cases asMembers value >>= PwGraphEvent.fromJson <;> simp
    simp only [Option.some.injEq, read]
    refine exists_congr fun members => and_congr_right fun _ => ?_
    exact ⟨showsEvent_of_fromJson, fromJson_of_showsEvent⟩

/-- What is decoded is exactly the grammar of events, with the fields of the object. -/
theorem deserializeEvent_exact (json : Text) :
    ((deserializeEvent json).isSome ↔ ∃ members, decode json = some (.obj members) ∧ EventShape members) ∧
      ∀ event, deserializeEvent json = some event →
        ∃ members, decode json = some (.obj members) ∧ ShowsEvent members event := by
  refine ⟨?_, fun event => deserializeEvent_iff.mp⟩
  simp only [Option.isSome_iff_exists, deserializeEvent_iff, eventShape_iff]
  constructor
  · rintro ⟨event, members, decoded, shows_⟩
    exact ⟨members, decoded, event, shows_⟩
  · rintro ⟨members, decoded, event, shows_⟩
    exact ⟨event, members, decoded, shows_⟩

end PwDart
