import PwDart.IdProperties
import PwDart.KeyedWrites
import PwDart.PropsMask

namespace PwDart

/-- What the items of a dict with the key hold, in order. -/
def valuesOf (dict : Option SpaDict) (key : String) : List (Option String) :=
  ((dict.getD []).filter fun item => item.key = some key).map SpaDictItem.value

/-- The last text is that of the first item, where a null value stands for no text. -/
def LastRestatesFirst (values : List (Option String)) : Prop :=
  ∀ first rest last, values = first :: rest → values.reduceOption.getLast? = some last → last = first.getD ""

/-- A field of a record, the key it is read under, and what it makes of a text. -/
structure Reading where
  key : String
  made : String → Prop

def Reading.text (key field : String) : Reading := ⟨key, fun text => field = text⟩

def Reading.id (key : String) (field : UInt32) : Reading := ⟨key, fun text => idOfProp text = .ok field⟩

def Reading.flag (key : String) (field : Bool) : Reading := ⟨key, fun text => flagOfProp text = field⟩

/-- The field is made of what the properties hold under its key. -/
def Reading.Shown (r : Reading) (properties : StringMap) : Prop :=
  ∃ text, properties[r.key]? = some text ∧ r.made text

/-- What `on_global` reads into a record. A node without a name takes its description. -/
def ObjectInfo.globalReadings (props : Option SpaDict) : ObjectInfo → List Reading
  | node info =>
    [.text (if (dictGet props "node.name").isEmpty then "node.description" else "node.name") info.name,
      .text "media.class" info.mediaClass]
  | port info =>
    [.text "port.name" info.name, .text "port.direction" info.direction, .id "node.id" info.nodeId,
      .text "format.dsp" info.mediaType, .text "port.alias" info.aliasName]
  | link info =>
    [.id "link.output.node" info.outputNodeId, .id "link.output.port" info.outputPortId,
      .id "link.input.node" info.inputNodeId, .id "link.input.port" info.inputPortId]
  | device info =>
    [.text "device.name" info.name, .text "device.description" info.description,
      .text "media.class" info.mediaClass, .text "device.api" info.api]

/-- What the info callbacks read into a record. -/
def ObjectInfo.infoReadings : ObjectInfo → List Reading
  | node info => [.text "node.name" info.name, .text "media.class" info.mediaClass]
  | port info =>
    [.text "port.name" info.name, .text "port.alias" info.aliasName, .flag "port.physical" info.isPhysical,
      .flag "port.terminal" info.isTerminal]
  | link _ => []
  | device info => [.text "device.name" info.name, .text "device.description" info.description]

def ObjectInfo.properties (object : ObjectInfo) : StringMap := object.propFields.properties

/-- Both readers give the text of the key, and what a callback finds under it for a field of a record is what
the properties of the record hold. -/
structure ReadersAgree (dict : Option SpaDict) (key : String) : Prop where
  texts : dictGet dict key = (dictToMap dict)[key]?.getD ""
  globals : ∀ (m : RegistryMonitor) kind id bound object,
    (m.onGlobal id (some kind.interface) dict bound).2 = none →
    (m.onGlobal id (some kind.interface) dict bound).1.record kind id = some object →
    ∀ r ∈ object.globalReadings dict, r.key = key → dictGet dict key ≠ "" → r.Shown object.properties
  infos : ∀ (m : RegistryMonitor) c kind id object, c.infoTarget = some (kind, id) → c.props = dict →
    (m.call c).1.record kind id = some object →
    ∀ r ∈ object.infoReadings, r.key = key → dictGet dict key ≠ "" → r.Shown object.properties

/-- `dict_get` stops at the first item with the key. -/
theorem dictGet_eq_head (dict : Option SpaDict) (key : String) :
    dictGet dict key = ((valuesOf dict key).head?.bind id).getD "" := by
  cases dict with
  | none => rfl
  | some d =>
    have same (item : SpaDictItem) : (item.key == some key) = decide (item.key = some key) := beq_eq_decide _ _
    simp only [dictGet, spaDictLookup, valuesOf, Option.getD_some, List.head?_map, List.head?_filter, same]
    cases d.find? fun item => decide (item.key = some key) with
    | none => rfl
    | some item => rfl

/-- `dict_to_map` as events that overwrite a key each. -/
def dictWrites : KeyedWrites StringMap SpaDictItem String (Option String) where
  apply := dictToMapStep
  read m key := m[key]?
  write item key := if item.key = some key then item.value.map some else none
  read_apply m item key := by
    obtain ⟨k, v⟩ := item
    cases k with
    | none => simp [dictToMapStep]
    | some k =>
      cases v with
      | none => simp [dictToMapStep]
      | some v =>
        by_cases same : k = key
        · simp [dictToMapStep, same]
        · simp [dictToMapStep, same, Std.ExtTreeMap.getElem?_insert]

theorem filterMap_write (d : SpaDict) (key : String) :
    (d.filterMap fun item => dictWrites.write item key) = (valuesOf (some d) key).reduceOption.map some := by
  induction d with
  | nil => rfl
  | cons item d ih =>
    obtain ⟨k, v⟩ := item
    rw [List.filterMap_cons, ih]
    by_cases same : k = some key
    · cases v with
      | none => simp [dictWrites, valuesOf, same]
      | some v => simp [dictWrites, valuesOf, same]
    · simp [dictWrites, valuesOf, same]

/-- `dict_to_map` keeps the last text under the key. -/
theorem getElem?_dictToMap (dict : Option SpaDict) (key : String) :
    (dictToMap dict)[key]? = (valuesOf dict key).reduceOption.getLast? := by
  have empty : (∅ : StringMap)[key]? = none := Std.ExtTreeMap.getElem?_empty
  cases dict with
  | none => exact empty
  | some d =>
    have last := dictWrites.read_run ∅ d key
    rw [dictWrites.lastWrite_eq_getLast?, filterMap_write, List.getLast?_map] at last
    change (dictToMap (some d))[key]? = Option.getD _ (∅ : StringMap)[key]? at last
    rw [last, empty]
    cases (valuesOf (some d) key).reduceOption.getLast? with
    | none => rfl
    | some v => rfl

theorem texts_iff (dict : Option SpaDict) (key : String) :
    dictGet dict key = (dictToMap dict)[key]?.getD "" ↔ LastRestatesFirst (valuesOf dict key) := by
  rw [dictGet_eq_head, getElem?_dictToMap]
  constructor
  · rintro same first rest last split final
    rw [final, split] at same
    exact same.symm
  · intro restates
    cases split : valuesOf dict key with
    | nil => rfl
    | cons first rest =>
      cases final : (first :: rest).reduceOption.getLast? with
      | none =>
        cases first with
        | none => rfl
        | some v => simp [List.getLast?_cons] at final
      | some last => exact (restates first rest last split (by rw [split]; exact final)).symm

/-- What `dict_get` finds is what the map holds. -/
theorem getElem?_of_texts {dict : Option SpaDict} {key : String}
    (texts : dictGet dict key = (dictToMap dict)[key]?.getD "") (found : dictGet dict key ≠ "") :
    (dictToMap dict)[key]? = some (dictGet dict key) := by
  cases held : (dictToMap dict)[key]? with
  | none =>
    rw [held] at texts
    exact absurd texts found
  | some v =>
    rw [held] at texts
    rw [texts]
    rfl

/-- A new record: its fields are made of what `dict_get` found. -/
theorem made_of_announced {kind : Kind} {id : UInt32} {props : Option SpaDict} {made : ObjectInfo}
    (announces : announced id (some kind.interface) props = some made) :
    made.properties = dictToMap props ∧
      ∀ r ∈ made.globalReadings props, dictGet props r.key ≠ "" → r.made (dictGet props r.key) := by
  cases kind with
  | node =>
    cases Option.some.inj announces
    refine ⟨rfl, ?_⟩
    simp [ObjectInfo.globalReadings, newNodeInfo, Reading.text, apply_ite (dictGet props)]
  | port =>
    obtain ⟨info, parsed, rfl⟩ := Option.map_eq_some_iff.mp announces
    obtain ⟨_, read, rfl⟩ := newPortInfo_eq_ok.mp (toOption_eq_some.mp parsed)
    refine ⟨rfl, ?_⟩
    simp [ObjectInfo.globalReadings, Reading.text, Reading.id, read]
  | link =>
    obtain ⟨info, parsed, rfl⟩ := Option.map_eq_some_iff.mp announces
    obtain ⟨_, outputNode, _, outputPort, _, inputNode, _, inputPort, rfl⟩ :=
      newLinkInfo_eq_ok.mp (toOption_eq_some.mp parsed)
    refine ⟨rfl, ?_⟩
    simp [ObjectInfo.globalReadings, Reading.id, outputNode, outputPort, inputNode, inputPort]
  | device =>
    cases Option.some.inj announces
    refine ⟨rfl, ?_⟩
    simp [ObjectInfo.globalReadings, newDeviceInfo, Reading.text]

/-- An updated record likewise. -/
theorem made_of_update {old new : ObjectInfo} {c : Callback} {d : SpaDict} (updated : old.update c = some new)
    (props : c.props = some d) :
    new.properties = dictToMap (some d) ∧
      ∀ r ∈ new.infoReadings, dictGet (some d) r.key ≠ "" → r.made (dictGet (some d) r.key) := by
  unfold ObjectInfo.update at updated
  split at updated
  next old id info =>
    cases Option.some.inj updated
    change info.props = some d at props
    refine ⟨by simp [ObjectInfo.properties, ObjectInfo.propFields, NodeInfo.update, NodeInfo.mergeProps, props], ?_⟩
    simp +contextual [ObjectInfo.infoReadings, NodeInfo.update, NodeInfo.mergeProps, props, Reading.text,
      overwriteNonempty]
  next old id info =>
    cases Option.some.inj updated
    change info.props = some d at props
    refine ⟨by simp [ObjectInfo.properties, ObjectInfo.propFields, PortInfo.update, PortInfo.mergeProps, props], ?_⟩
    simp +contextual [ObjectInfo.infoReadings, PortInfo.update, PortInfo.mergeProps, props, Reading.text, Reading.flag,
      overwriteNonempty]
  next => cases props
  next old id info =>
    cases Option.some.inj updated
    change info.props = some d at props
    refine ⟨by simp [ObjectInfo.properties, ObjectInfo.propFields, DeviceInfo.mergeProps, props], ?_⟩
    simp +contextual [ObjectInfo.infoReadings, DeviceInfo.mergeProps, props, Reading.text, overwriteNonempty]
  next => cases updated

/-- The callbacks take no other texts than the two readers give. -/
theorem readersAgree_of_texts {dict : Option SpaDict} {key : String}
    (texts : dictGet dict key = (dictToMap dict)[key]?.getD "") : ReadersAgree dict key := by
  refine ⟨texts, ?_, ?_⟩
  · rintro m kind id bound object unraised recorded r mem rfl found
    obtain ⟨made, announces⟩ := RegistryMonitor.unraised_iff.mp unraised
    have registered : (m.onGlobal id (some kind.interface) dict bound).1.Registered kind id bound made :=
      RegistryMonitor.registered_of_announced announces
    cases Option.some.inj (registered.recorded.symm.trans recorded)
    obtain ⟨properties, fields⟩ := made_of_announced announces
    refine ⟨dictGet dict r.key, ?_, fields r mem found⟩
    rw [properties]
    exact getElem?_of_texts texts found
  · rintro m c kind id object about props recorded r mem rfl found
    cases dict with
    | none => exact absurd rfl found
    | some d =>
      cases before : m.record kind id with
      | none =>
        rw [RegistryMonitor.call_info_none about before, before] at recorded
        cases recorded
      | some old =>
        obtain ⟨new, updated, _, _, _, records⟩ := RegistryMonitor.call_info_some about before
        rw [records, if_pos ⟨rfl, rfl⟩] at recorded
        cases Option.some.inj recorded
        obtain ⟨properties, fields⟩ := made_of_update updated props
        refine ⟨dictGet (some d) r.key, ?_, fields r mem found⟩
        rw [properties]
        exact getElem?_of_texts texts found

theorem length_valuesOf (d : SpaDict) (key : String) :
    (valuesOf (some d) key).length = (d.filterMap SpaDictItem.key).count key := by
  simp [valuesOf, List.count_filterMap, List.countP_eq_length_filter, beq_eq_decide]

/-- In a dict that repeats no key the readers agree on all of them. -/
theorem readersAgree_of_distinct {d : SpaDict} (distinct : (d.filterMap SpaDictItem.key).Nodup) (key : String) :
    ReadersAgree (some d) key := by
  refine readersAgree_of_texts ((texts_iff (some d) key).mpr fun first rest last split final => ?_)
  have once : (valuesOf (some d) key).length ≤ 1 := by
    rw [length_valuesOf]
    exact List.nodup_iff_count_le_one.mp distinct key
  rw [split, List.length_cons] at once
  have alone : rest = [] := List.eq_nil_of_length_eq_zero (by omega)
  rw [split, alone] at final
  cases first with
  | none => cases final
  | some v => exact (Option.some.inj final).symm

/-- The readers agree on a key exactly if the last text under it is that of the first item. -/
theorem dict_readers_agree_iff (dict : Option SpaDict) (key : String) :
    ReadersAgree dict key ↔ LastRestatesFirst (valuesOf dict key) := by
  constructor
  · intro agree
    exact (texts_iff dict key).mp agree.texts
  · intro restates
    exact readersAgree_of_texts ((texts_iff dict key).mpr restates)

/-- A later item of a key hides the first one from the properties, but not from the name. -/
theorem readers_part :
    ¬ReadersAgree (some [⟨some "node.name", some "mic"⟩, ⟨some "node.name", some "speaker"⟩]) "node.name" ∧
      ∃ node, (RegistryMonitor.onGlobal {} 40 (some interfaceNode)
          (some [⟨some "node.name", some "mic"⟩, ⟨some "node.name", some "speaker"⟩])
          (some 3)).1.nodes[(40 : UInt32)]? = some node ∧
        node.name = "mic" ∧ node.properties["node.name"]? = some "speaker" := by
  refine ⟨fun agree => ?_, _, rfl, rfl, rfl⟩
  have texts := agree.texts
  revert texts
  decide

end PwDart
