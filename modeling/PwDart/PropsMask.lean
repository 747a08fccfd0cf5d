import PwDart.RegistryEffects

namespace PwDart

def PW_NODE_CHANGE_MASK_STATE : UInt64 := (1 : UInt64) <<< 2
def PW_NODE_CHANGE_MASK_PROPS : UInt64 := (1 : UInt64) <<< 3
def PW_PORT_CHANGE_MASK_PROPS : UInt64 := (1 : UInt64) <<< 0
def PW_DEVICE_CHANGE_MASK_PROPS : UInt64 := (1 : UInt64) <<< 0

/-- Whether an info says that its props are meaningful. -/
def Callback.propsChanged : Callback → Bool
  | nodeInfo _ (some info) => info.changeMask &&& PW_NODE_CHANGE_MASK_PROPS != 0
  | portInfo _ (some info) => info.changeMask &&& PW_PORT_CHANGE_MASK_PROPS != 0
  | deviceInfo _ (some info) => info.changeMask &&& PW_DEVICE_CHANGE_MASK_PROPS != 0
  | _ => false

def Callback.props : Callback → Option SpaDict
  | nodeInfo _ (some info) => info.props
  | portInfo _ (some info) => info.props
  | deviceInfo _ (some info) => info.props
  | _ => none

/-- The fields of a record that come from a props dict. -/
structure PropFields where
  properties : StringMap
  name : String := ""
  mediaClass : String := ""
  aliasName : String := ""
  description : String := ""
  isPhysical : Bool := false
  isTerminal : Bool := false
deriving DecidableEq

def ObjectInfo.propFields : ObjectInfo → PropFields
  | node info => { properties := info.properties, name := info.name, mediaClass := info.mediaClass }
  | port info =>
    { properties := info.properties
      name := info.name
      aliasName := info.aliasName
      isPhysical := info.isPhysical
      isTerminal := info.isTerminal }
  | link info => { properties := info.properties }
  | device info =>
    { properties := info.properties
      name := info.name
      mediaClass := info.mediaClass
      description := info.description }

/-- A field a merge only overwrites with a nonempty value, and the value says nothing new. -/
def SameText (value field : String) : Prop := value = "" ∨ value = field

/-- The props say what the record already holds. -/
def Restates (props : Option SpaDict) : ObjectInfo → Prop
  | .node info => dictToMap props = info.properties ∧ SameText (dictGet props "node.name") info.name ∧
      SameText (dictGet props "media.class") info.mediaClass
  | .port info => dictToMap props = info.properties ∧ SameText (dictGet props "port.name") info.name ∧
      SameText (dictGet props "port.alias") info.aliasName ∧
      flagOfProp (dictGet props "port.physical") = info.isPhysical ∧
      flagOfProp (dictGet props "port.terminal") = info.isTerminal
  | .link _ => True
  | .device info => dictToMap props = info.properties ∧
      SameText (dictGet props "device.name") info.name ∧
      SameText (dictGet props "device.description") info.description

theorem overwriteNonempty_eq_iff {field value : String} :
    overwriteNonempty field value = field ↔ SameText value field := by
  unfold overwriteNonempty SameText
  by_cases empty : value = ""
  · simp [empty]
  · simp [String.isEmpty_iff, empty]

/-- An update leaves the props fields alone exactly when its props are null or say nothing new. -/
theorem propFields_update_iff {old new : ObjectInfo} {c : Callback} (updated : old.update c = some new) :
    new.propFields = old.propFields ↔ c.props = none ∨ Restates c.props old := by
  unfold ObjectInfo.update at updated
  split at updated
  next old id info =>
    cases Option.some.inj updated
    cases props : info.props with
    | none => simp [Callback.props, props, ObjectInfo.propFields, NodeInfo.update, NodeInfo.mergeProps]
    | some d =>
      simp [Callback.props, props, ObjectInfo.propFields, NodeInfo.update, NodeInfo.mergeProps,
        Restates, overwriteNonempty_eq_iff]
  next old id info =>
    cases Option.some.inj updated
    cases props : info.props with
    | none => simp [Callback.props, props, ObjectInfo.propFields, PortInfo.update, PortInfo.mergeProps]
    | some d =>
      simp [Callback.props, props, ObjectInfo.propFields, PortInfo.update, PortInfo.mergeProps,
        Restates, overwriteNonempty_eq_iff]
  next old id info =>
    cases Option.some.inj updated
    simp [Callback.props, ObjectInfo.propFields, LinkInfo.update]
  next old id info =>
    cases Option.some.inj updated
    cases props : info.props with
    | none => simp [Callback.props, props, ObjectInfo.propFields, DeviceInfo.mergeProps]
    | some d =>
      simp [Callback.props, props, ObjectInfo.propFields, DeviceInfo.mergeProps, Restates,
        overwriteNonempty_eq_iff]
  next => simp at updated

/-- The fields an update leaves behind depend on the fields it finds. -/
theorem propFields_update_congr {a b a' : ObjectInfo} {c : Callback} (kind : a.kind = b.kind)
    (fields : a.propFields = b.propFields) (updated : a.update c = some a') :
    ∃ b', b.update c = some b' ∧ a'.kind = b'.kind ∧ a'.propFields = b'.propFields := by
  cases a with
  | node a =>
    cases b <;> simp only [ObjectInfo.kind, reduceCtorEq] at kind
    next b =>
      cases c with
      | nodeInfo id info =>
        cases info with
        | none => simp [ObjectInfo.update] at updated
        | some info =>
          cases Option.some.inj updated
          refine ⟨_, rfl, rfl, ?_⟩
          cases props : info.props <;>
            simp_all [ObjectInfo.propFields, NodeInfo.update, NodeInfo.mergeProps]
      | global | globalRemove | portInfo | linkInfo | deviceInfo => simp [ObjectInfo.update] at updated
  | port a =>
    cases b <;> simp only [ObjectInfo.kind, reduceCtorEq] at kind
    next b =>
      cases c with
      | portInfo id info =>
        cases info with
        | none => simp [ObjectInfo.update] at updated
        | some info =>
          cases Option.some.inj updated
          refine ⟨_, rfl, rfl, ?_⟩
          cases props : info.props <;>
            simp_all [ObjectInfo.propFields, PortInfo.update, PortInfo.mergeProps]
      | global | globalRemove | nodeInfo | linkInfo | deviceInfo => simp [ObjectInfo.update] at updated
  | link a =>
    cases b <;> simp only [ObjectInfo.kind, reduceCtorEq] at kind
    next b =>
      cases c with
      | linkInfo id info =>
        cases info with
        | none => simp [ObjectInfo.update] at updated
        | some info =>
          cases Option.some.inj updated
          exact ⟨_, rfl, rfl, by simpa [ObjectInfo.propFields, LinkInfo.update] using fields⟩
      | global | globalRemove | nodeInfo | portInfo | deviceInfo => simp [ObjectInfo.update] at updated
  | device a =>
    cases b <;> simp only [ObjectInfo.kind, reduceCtorEq] at kind
    next b =>
      cases c with
      | deviceInfo id info =>
        cases info with
        | none => simp [ObjectInfo.update] at updated
        | some info =>
          cases Option.some.inj updated
          refine ⟨_, rfl, rfl, ?_⟩
          cases props : info.props <;>
            simp_all [ObjectInfo.propFields, DeviceInfo.mergeProps]
      | global | globalRemove | nodeInfo | portInfo | linkInfo => simp [ObjectInfo.update] at updated

open RegistryMonitor

/-- The record `on_global` made, changed only by the updates that say their props changed. -/
def maskedRecord (kind : Kind) (id : UInt32) (made : ObjectInfo) (infos : List Callback) : ObjectInfo :=
  infos.foldl (fun object c =>
    if c.infoTarget = some (kind, id) ∧ c.propsChanged then (object.update c).getD object
    else object) made

theorem maskedRecord_append_singleton (kind : Kind) (id : UInt32) (made : ObjectInfo)
    (infos : List Callback) (c : Callback) :
    maskedRecord kind id made (infos ++ [c]) =
      if c.infoTarget = some (kind, id) ∧ c.propsChanged then
        ((maskedRecord kind id made infos).update c).getD (maskedRecord kind id made infos)
      else maskedRecord kind id made infos := by
  simp [maskedRecord]

/-- After each of the callbacks that follow `before`, the stored record and every event posted for
it have the props fields that the masks call for. -/
structure RespectsMasks (before : List Callback) (kind : Kind) (id : UInt32) (made : ObjectInfo)
    (infos : List Callback) : Prop where
  stored : ∀ x y, infos = x ++ y → ∃ object, (replay (before ++ x)).record kind id = some object ∧
    object.propFields = (maskedRecord kind id made x).propFields
  posted : ∀ x c y, infos = x ++ c :: y → c.infoTarget = some (kind, id) →
    ∀ event ∈ ((replay (before ++ x)).call c).2, ∃ object, event.news = some ((kind, id), some object) ∧
      object.propFields = (maskedRecord kind id made (x ++ [c])).propFields

/-- The infos that do not say their props changed carry none, or what the record has already. -/
def MaskedInfosRestate (before : List Callback) (kind : Kind) (id : UInt32) (infos : List Callback) :
    Prop :=
  ∀ x c y, infos = x ++ c :: y → c.infoTarget = some (kind, id) → c.propsChanged = false →
    c.props = none ∨ ∀ object, (replay (before ++ x)).record kind id = some object →
      Restates c.props object

/-- The stored record agrees with the masked one on the props fields, and is of the same kind. -/
def Agrees (before : List Callback) (kind : Kind) (id : UInt32) (made : ObjectInfo)
    (infos : List Callback) : Prop :=
  ∃ object, (replay (before ++ infos)).record kind id = some object ∧
    object.kind = (maskedRecord kind id made infos).kind ∧
    object.propFields = (maskedRecord kind id made infos).propFields

theorem agrees_append_singleton {before x : List Callback} {c : Callback} {kind : Kind} {id : UInt32}
    {made : ObjectInfo} (agrees : Agrees before kind id made x) (live : c.lifetimeOf ≠ some id)
    (restates : c.infoTarget = some (kind, id) → c.propsChanged = false → c.props = none ∨
      ∀ object, (replay (before ++ x)).record kind id = some object → Restates c.props object) :
    Agrees before kind id made (x ++ [c]) := by
  obtain ⟨object, held, sameKind, sameFields⟩ := agrees
  unfold Agrees
  rw [replay_append_append_singleton, maskedRecord_append_singleton]
  by_cases about : c.infoTarget = some (kind, id)
  · obtain ⟨new, updated, _, _, _, records⟩ := call_info_some about held
    refine ⟨new, by simp [records], ?_⟩
    by_cases changed : c.propsChanged
    · rw [if_pos ⟨about, changed⟩]
      obtain ⟨masked, hmasked, kinds, fields⟩ := propFields_update_congr sameKind sameFields updated
      rw [hmasked]
      exact ⟨kinds, fields⟩
    · rw [if_neg fun h => changed h.2, (update_id_kind updated).2, ← sameFields]
      refine ⟨sameKind, (propFields_update_iff updated).mpr ?_⟩
      exact (restates about (by simpa using changed)).imp_right fun h => h object held
  · rw [if_neg fun h => about h.1, record_unrelated (wellFormed_replay _) about live]
    exact ⟨object, held, sameKind, sameFields⟩

theorem agrees_of_restate {before : List Callback} {kind : Kind} {id : UInt32} {made : ObjectInfo}
    {infos : List Callback} (start : (replay before).record kind id = some made)
    (live : ∀ c ∈ infos, c.lifetimeOf ≠ some id) (restate : MaskedInfosRestate before kind id infos) :
    ∀ x y, infos = x ++ y → Agrees before kind id made x := by
  intro x
  induction x using List.reverseRecOn with
  | nil => exact fun _ _ => ⟨made, by simpa using start, rfl, rfl⟩
  | append_singleton x c ih =>
    intro y split
    rw [List.append_assoc, List.singleton_append] at split
    exact agrees_append_singleton (ih (c :: y) split) (live c (by simp [split])) (restate x c y split)

/-- For a live object the masks are respected exactly when the infos whose mask excludes the props
carry none or restate the record. -/
theorem respectsMasks_iff {pre infos : List Callback} {id : UInt32} {type : Option String}
    {props : Option SpaDict} {bound : Option PwProxy} {made : ObjectInfo}
    (announces : announced id type props = some made) (live : ∀ c ∈ infos, c.lifetimeOf ≠ some id) :
    RespectsMasks (pre ++ [.global id type props bound]) made.kind id made infos ↔
      MaskedInfosRestate (pre ++ [.global id type props bound]) made.kind id infos := by
  have start := record_after_global pre announces bound
  constructor
  · intro respects x c y split about masked
    obtain ⟨object, held, same⟩ := respects.stored x (c :: y) split
    obtain ⟨object', held', same'⟩ := respects.stored (x ++ [c]) y (by simp [split])
    obtain ⟨new, updated, _, _, _, records⟩ := call_info_some about held
    rw [replay_append_append_singleton, records, if_pos ⟨rfl, rfl⟩] at held'
    cases Option.some.inj held'
    rw [maskedRecord_append_singleton, if_neg (by simp [masked]), ← same] at same'
    refine ((propFields_update_iff updated).mp same').imp_right fun restates other hother => ?_
    rw [held] at hother
    cases Option.some.inj hother
    exact restates
  · intro restate
    have agrees := agrees_of_restate start live restate
    refine ⟨fun x y split => ?_, fun x c y split about event posted => ?_⟩
    · obtain ⟨object, held, _, same⟩ := agrees x y split
      exact ⟨object, held, same⟩
    · obtain ⟨object, held, _, same⟩ := agrees (x ++ [c]) y (by simp [split])
      rw [replay_append_append_singleton] at held
      rcases call_effect (wellFormed_replay _) c with ⟨_, none, _⟩ | ⟨k, i, key, _, effect⟩
      · rw [none] at posted; cases posted
      · rw [target_of_info about (by rw [held]; rfl)] at key
        cases Option.some.inj key
        rcases effect with ⟨none, _⟩ | ⟨one, hone, news⟩
        · rw [none] at posted; cases posted
        · rw [hone] at posted
          cases List.mem_singleton.mp posted
          exact ⟨object, by rw [news, held], same⟩

def speakerProps : SpaDict := [⟨some "node.name", some "speaker"⟩, ⟨some "node.nick", some "front"⟩]

/-- A state change with an empty dict, and the PROPS bit clear, wipes the stored properties. -/
theorem state_info_wipes_properties :
    ¬RespectsMasks [.global 7 (some interfaceNode) (some speakerProps) none] .node 7
      (.node (newNodeInfo 7 (some speakerProps)))
      [.nodeInfo 7 (some ⟨PW_NODE_CHANGE_MASK_STATE, PW_NODE_STATE_RUNNING, some []⟩)] := by
  intro respects
  obtain ⟨object, held, same⟩ := respects.stored _ [] (List.append_nil _).symm
  have fields : ((replay ([.global 7 (some interfaceNode) (some speakerProps) none] ++
      [.nodeInfo 7 (some ⟨PW_NODE_CHANGE_MASK_STATE, PW_NODE_STATE_RUNNING, some []⟩)])).record .node 7).map
        ObjectInfo.propFields ≠ some (maskedRecord .node 7 (.node (newNodeInfo 7 (some speakerProps)))
          [.nodeInfo 7 (some ⟨PW_NODE_CHANGE_MASK_STATE, PW_NODE_STATE_RUNNING, some []⟩)]).propFields := by decide
  rw [held, Option.map_some, same] at fields
  exact fields rfl

/-- A masked info that restates the name, and one with props that changed. -/
theorem respectsMasks_speaker :
    RespectsMasks ([] ++ [.global 7 (some interfaceNode) (some speakerProps) none]) .node 7
      (.node (newNodeInfo 7 (some speakerProps)))
      [.nodeInfo 7 (some ⟨PW_NODE_CHANGE_MASK_STATE, PW_NODE_STATE_RUNNING, some speakerProps⟩),
        .nodeInfo 7 (some ⟨PW_NODE_CHANGE_MASK_PROPS, PW_NODE_STATE_IDLE, some []⟩)] := by
  have announces : announced 7 (some interfaceNode) (some speakerProps) =
      some (.node (newNodeInfo 7 (some speakerProps))) := by decide
  refine (respectsMasks_iff announces (by decide)).mpr ?_
  intro x c y split about masked
  cases x with
  | nil =>
    obtain ⟨rfl, _⟩ := List.cons.inj split
    have held : (replay ([] ++ [.global 7 (some interfaceNode) (some speakerProps) none] ++ [])).record
        .node 7 = some (.node (newNodeInfo 7 (some speakerProps))) := by decide
    refine Or.inr fun object hobject => ?_
    rw [show ObjectInfo.kind (.node _) = Kind.node from rfl, held] at hobject
    cases Option.some.inj hobject
    exact ⟨by decide, Or.inr (by decide), Or.inl (by decide)⟩
  | cons a x =>
    cases x with
    | nil =>
      obtain ⟨_, rest⟩ := List.cons.inj split
      obtain ⟨rfl, _⟩ := List.cons.inj rest
      exact absurd masked (by decide)
    | cons b x => simp at split

end PwDart
