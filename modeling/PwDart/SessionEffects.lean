import PwDart.SessionGraph

namespace PwDart

open RegistryMonitor

/-- The objects with the proxies the client will have bound to them. -/
def viewOf (objects : List ServerObject) : List (ServerObject × PwProxy) :=
  objects.map fun object => (object, object.serial)

theorem mem_viewOf {objects : List ServerObject} {object : ServerObject} {proxy : PwProxy} :
    (object, proxy) ∈ viewOf objects ↔ object ∈ objects ∧ proxy = object.serial := by
  simp only [viewOf, List.mem_map, Prod.mk.injEq]
  constructor
  · rintro ⟨o, ho, rfl, rfl⟩
    exact ⟨ho, rfl⟩
  · rintro ⟨ho, rfl⟩
    exact ⟨object, ho, rfl, rfl⟩

theorem viewOf_append_singleton (objects : List ServerObject) (object : ServerObject) :
    viewOf (objects ++ [object]) = viewOf objects ++ [(object, object.serial)] := by
  simp [viewOf]

theorem viewOf_filter (objects : List ServerObject) (object : ServerObject) :
    viewOf (objects.filter fun o => o ≠ object) = (viewOf objects).filter fun entry => entry.1 ≠ object := by
  simp [viewOf, List.filter_map, Function.comp_def]

theorem kind_of_record {object : ServerObject} {made : ObjectInfo} (h : object.record = some made) :
    object.kind = some made.kind := by
  unfold ServerObject.record announced at h
  unfold ServerObject.kind
  split at h
  next type =>
    cases Option.some.inj h
    exact if_pos type
  next other =>
    rw [if_neg other]
    split at h
    next type =>
      obtain ⟨info, _, rfl⟩ := Option.map_eq_some_iff.mp h
      exact if_pos type
    next other =>
      rw [if_neg other]
      split at h
      next type =>
        obtain ⟨info, _, rfl⟩ := Option.map_eq_some_iff.mp h
        exact if_pos type
      next other =>
        rw [if_neg other]
        split at h
        next type =>
          cases Option.some.inj h
          exact if_pos type
        next => cases h

/-- The monitor knows nothing but these objects. -/
structure Owned (objects : List ServerObject) (m : RegistryMonitor) : Prop where
  types : ∀ (id : UInt32) (text : String), m.idTypes[id]? = some text →
    ∃ o ∈ objects, o.id = id ∧ o.kind ≠ none
  proxies : ∀ (id : UInt32) (data : ProxyData), m.proxies[id]? = some data →
    ∃ o ∈ objects, o.id = id ∧ o.kind ≠ none ∧ data.proxy = some o.serial

theorem owned_empty : Owned [] {} where
  types id text h := by simp at h
  proxies id data h := by simp at h

theorem owned_global {objects : List ServerObject} {m : RegistryMonitor} (h : Owned objects m)
    (object : ServerObject) :
    Owned (objects ++ [object])
      (m.call (.global object.id object.type object.props (some object.serial))).1 := by
  cases known : object.kind with
  | none =>
    have same : (m.call (.global object.id object.type object.props (some object.serial))).1 = m :=
      onGlobal_of_unknown known m (some object.serial)
    rw [same]
    constructor
    · intro id text held
      obtain ⟨o, ho, rest⟩ := h.types id text held
      exact ⟨o, List.mem_append_left _ ho, rest⟩
    · intro id data held
      obtain ⟨o, ho, rest⟩ := h.proxies id data held
      exact ⟨o, List.mem_append_left _ ho, rest⟩
  | some kind =>
    obtain ⟨types, proxies⟩ := onGlobal_of_kind known m object.serial
    have here : object ∈ objects ++ [object] := List.mem_append_right _ (List.mem_singleton_self _)
    have isKnown : object.kind ≠ none := by simp [known]
    constructor
    · intro id text held
      simp only [call, types, Std.ExtTreeMap.getElem?_insert] at held
      split at held
      next same => exact ⟨object, here, by simpa using same, isKnown⟩
      next =>
        obtain ⟨o, ho, rest⟩ := h.types id text held
        exact ⟨o, List.mem_append_left _ ho, rest⟩
    · intro id data held
      simp only [call, proxies, Std.ExtTreeMap.getElem?_insert] at held
      split at held
      next same =>
        refine ⟨object, here, by simpa using same, isKnown, ?_⟩
        cases Option.some.inj held
        rfl
      next =>
        obtain ⟨o, ho, rest⟩ := h.proxies id data held
        exact ⟨o, List.mem_append_left _ ho, rest⟩

theorem owned_remove {objects : List ServerObject} {m : RegistryMonitor} (h : Owned objects m)
    {object : ServerObject} (here : object ∈ objects) (ids : (objects.map ServerObject.id).Nodup)
    (typed : object.kind ≠ none → (m.idTypes[object.id]?).isSome) :
    Owned (objects.filter fun o => o ≠ object) (m.call (.globalRemove object.id)).1 := by
  have stays {o : ServerObject} (ho : o ∈ objects) (apart : ¬object.id = o.id) :
      o ∈ objects.filter fun o => o ≠ object := by
    refine List.mem_filter.mpr ⟨ho, ?_⟩
    have other : o ≠ object := fun same => apart (by rw [same])
    simpa using other
  constructor
  · intro id text held
    simp only [call, idTypes_onGlobalRemove, Std.ExtTreeMap.getElem?_erase] at held
    split at held
    next => cases held
    next apart =>
      obtain ⟨o, ho, rfl, known⟩ := h.types id text held
      exact ⟨o, stays ho (by simpa using apart), rfl, known⟩
  · intro id data held
    simp only [call, proxies_onGlobalRemove] at held
    split at held
    next =>
      rw [Std.ExtTreeMap.getElem?_erase] at held
      split at held
      next => cases held
      next apart =>
        obtain ⟨o, ho, rfl, rest⟩ := h.proxies id data held
        exact ⟨o, stays ho (by simpa using apart), rfl, rest⟩
    next untyped =>
      obtain ⟨o, ho, rfl, known, same⟩ := h.proxies id data held
      refine ⟨o, stays ho fun sameId => ?_, rfl, known, same⟩
      cases List.inj_on_of_nodup_map ids here ho sameId
      exact untyped (typed known)

theorem owned_info {objects : List ServerObject} {m : RegistryMonitor} (h : Owned objects m) {c : Callback}
    {kind : Kind} {id : UInt32} (about : c.infoTarget = some (kind, id)) : Owned objects (m.call c).1 := by
  cases found : m.record kind id with
  | none =>
    rw [call_info_none about found]
    exact h
  | some old =>
    obtain ⟨new, _, _, types, proxies, _⟩ := call_info_some about found
    exact ⟨by rw [types]; exact h.types, by rw [proxies]; exact h.proxies⟩

theorem update_port {old : PortInfo} {c : Callback} {made : ObjectInfo}
    (updated : (ObjectInfo.port old).update c = some made) :
    ∃ new, made = .port new ∧ new.nodeId = old.nodeId := by
  cases c with
  | global | globalRemove | nodeInfo | linkInfo | deviceInfo => cases updated
  | portInfo id info =>
    cases info with
    | none => cases updated
    | some info =>
      cases Option.some.inj updated
      refine ⟨old.update info, rfl, ?_⟩
      simp only [PortInfo.update, PortInfo.mergeProps]
      cases info.props <;> rfl

/-- A port keeps the node it was announced with. -/
def KeepsNodes (objects : List ServerObject) (m : RegistryMonitor) : Prop :=
  ∀ o ∈ objects, ∀ info, o.record = some (.port info) →
    ∃ port, m.record .port o.id = some (.port port) ∧ port.nodeId = info.nodeId

theorem keepsNodes_global {objects : List ServerObject} {m : RegistryMonitor} (h : KeepsNodes objects m)
    {object : ServerObject} (fresh : ∀ o ∈ objects, o.id ≠ object.id) (bound : Option PwProxy) :
    KeepsNodes (objects ++ [object]) (m.call (.global object.id object.type object.props bound)).1 := by
  intro o ho info record
  rcases List.mem_append.mp ho with ho | ho
  · obtain ⟨port, held, same⟩ := h o ho info record
    refine ⟨port, ?_, same⟩
    have apart : object.id ≠ o.id := (fresh o ho).symm
    simp only [call, record_onGlobal, apart, and_false, if_false]
    split <;> exact held
  · cases List.mem_singleton.mp ho
    refine ⟨info, ?_, rfl⟩
    have announces : announced object.id object.type object.props = some (.port info) := record
    simp [call, record_onGlobal, announces, ObjectInfo.kind]

theorem keepsNodes_remove {objects : List ServerObject} {m : RegistryMonitor} (h : KeepsNodes objects m)
    {object : ServerObject} (here : object ∈ objects) (ids : (objects.map ServerObject.id).Nodup) :
    KeepsNodes (objects.filter fun o => o ≠ object) (m.call (.globalRemove object.id)).1 := by
  intro o ho info record
  obtain ⟨ho, other⟩ := List.mem_filter.mp ho
  have apart : object.id ≠ o.id := by
    intro same
    cases List.inj_on_of_nodup_map ids here ho same
    simp at other
  obtain ⟨port, held, same⟩ := h o ho info record
  refine ⟨port, ?_, same⟩
  simpa [call, record_onGlobalRemove, apart] using held

theorem keepsNodes_info {objects : List ServerObject} {m : RegistryMonitor} (h : KeepsNodes objects m)
    {c : Callback} {kind : Kind} {id : UInt32} (about : c.infoTarget = some (kind, id)) :
    KeepsNodes objects (m.call c).1 := by
  cases found : m.record kind id with
  | none =>
    rw [call_info_none about found]
    exact h
  | some old =>
    obtain ⟨new, updated, _, _, _, records⟩ := call_info_some about found
    intro o ho info record
    obtain ⟨port, held, same⟩ := h o ho info record
    rw [records]
    split
    next at_ =>
      obtain ⟨rfl, rfl⟩ := at_
      cases held.symm.trans found
      obtain ⟨new, rfl, kept⟩ := update_port updated
      exact ⟨new, rfl, kept.trans same⟩
    next => exact ⟨port, held, same⟩

/-- An info of a live object puts it into the graph. -/
theorem gains_info {objects : List ServerObject} {m : RegistryMonitor} (wf : m.WellFormed)
    (kept : KeepsNodes objects m) {object : ServerObject} (here : object ∈ objects) {report : InfoReport}
    (truth : truthful object report) {kind : Kind} (known : object.kind = some kind)
    (present : (m.record kind object.id).isSome) (posted : List GraphEvent) :
    Gains object (graphOf posted) (graphOf (posted ++ (m.call (report.callback object.id)).2)) := by
  obtain ⟨old, found⟩ := Option.isSome_iff_exists.mp present
  have sameKind := record_kind found
  unfold truthful at truth
  split at truth
  next info change record =>
    cases known.symm.trans (kind_of_record record)
    obtain ⟨new, updated, posts, _⟩ := call_info_some (c := .nodeInfo object.id (some change)) rfl found
    obtain ⟨sameId, _⟩ := update_id_kind updated
    cases old with
    | port | link | device => cases sameKind
    | node node =>
      cases Option.some.inj updated
      have key : dartId (node.update change).id = dartId object.id :=
        congrArg dartId (sameId.trans (wf.keyed _ _ _ found))
      have gains := Gains.node (g := graphOf posted) (node.update change).image record
      rw [InfoReport.callback, posts]
      simp only [ObjectInfo.infoEvent, graphOf_append_singleton]
      rw [← key] at gains
      split <;> exact gains
  next info change record =>
    cases known.symm.trans (kind_of_record record)
    obtain ⟨new, updated, posts, _⟩ := call_info_some (c := .portInfo object.id (some change)) rfl found
    obtain ⟨sameId, _⟩ := update_id_kind updated
    cases old with
    | node | link | device => cases sameKind
    | port port =>
      obtain ⟨stored, held, sameNode⟩ := kept object here info record
      cases held.symm.trans found
      obtain ⟨newPort, rfl, keptNode⟩ := update_port updated
      have key : dartId newPort.id = dartId object.id :=
        congrArg dartId (sameId.trans (wf.keyed _ _ _ found))
      have gains := Gains.port (g := graphOf posted) newPort.image record
        (congrArg dartId (keptNode.trans sameNode))
      rw [InfoReport.callback, posts]
      simp only [ObjectInfo.infoEvent, graphOf_append_singleton]
      rw [← key] at gains
      exact gains
  next link change record =>
    simp only [Bool.and_eq_true, decide_eq_true_eq] at truth
    obtain ⟨⟨⟨outputNode, outputPort⟩, inputNode⟩, inputPort⟩ := truth
    cases known.symm.trans (kind_of_record record)
    obtain ⟨new, updated, posts, _⟩ := call_info_some (c := .linkInfo object.id (some change)) rfl found
    obtain ⟨sameId, _⟩ := update_id_kind updated
    cases old with
    | node | port | device => cases sameKind
    | link old =>
      cases Option.some.inj updated
      have key : dartId (old.update change).id = dartId object.id :=
        congrArg dartId (sameId.trans (wf.keyed _ _ _ found))
      have gains := Gains.link (g := graphOf posted) (old.update change).image record
        (congrArg dartId outputPort) (congrArg dartId outputNode) (congrArg dartId inputPort)
        (congrArg dartId inputNode)
      rw [InfoReport.callback, posts]
      simp only [ObjectInfo.infoEvent, graphOf_append_singleton]
      rw [← key] at gains
      split <;> exact gains
  next info change record =>
    simp only [InfoReport.callback, call, List.append_nil]
    exact Gains.device record
  next => cases truth

/-- A removal takes the object out of the graph. -/
theorem loses_remove {objects : List ServerObject} {m : RegistryMonitor} (owned : Owned objects m)
    {object : ServerObject} (here : object ∈ objects) (ids : (objects.map ServerObject.id).Nodup)
    (typed : ∀ kind, object.kind = some kind → m.idTypes[object.id]? = some kind.text)
    (posted : List GraphEvent) :
    Loses object (graphOf posted) (graphOf (posted ++ (m.call (.globalRemove object.id)).2)) := by
  cases record : object.record with
  | none =>
    have untyped : m.idTypes[object.id]? = none := by
      by_contra typed
      obtain ⟨text, held⟩ := Option.ne_none_iff_exists'.mp typed
      obtain ⟨o, ho, sameId, known⟩ := owned.types object.id text held
      cases List.inj_on_of_nodup_map ids ho here sameId
      obtain ⟨kind, known⟩ := Option.ne_none_iff_exists'.mp known
      obtain ⟨made, announces, _⟩ := newObject_of_kind known
      cases record.symm.trans announces
    simp only [call, onGlobalRemove, untyped, List.append_nil]
    exact Loses.unknown record
  | some made =>
    have type := typed made.kind (kind_of_record record)
    cases made with
    | node info =>
      simp only [call, onGlobalRemove, type, eraseRecord, ObjectInfo.kind, Kind.text, if_true,
        graphOf_append_singleton]
      exact Loses.node record
    | port info =>
      have other : "port" ≠ "node" := by decide
      simp only [call, onGlobalRemove, type, eraseRecord, ObjectInfo.kind, Kind.text, other, if_true, if_false,
        graphOf_append_singleton]
      exact Loses.port record
    | link info =>
      have others : "link" ≠ "node" ∧ "link" ≠ "port" := by decide
      simp only [call, onGlobalRemove, type, eraseRecord, ObjectInfo.kind, Kind.text, others.1, others.2, if_true,
        if_false, graphOf_append_singleton]
      exact Loses.link record
    | device info =>
      have others : "device" ≠ "node" ∧ "device" ≠ "port" ∧ "device" ≠ "link" := by decide
      simp only [call, onGlobalRemove, type, eraseRecord, ObjectInfo.kind, Kind.text, others.1, others.2.1,
        others.2.2, if_true, if_false, List.append_nil]
      exact Loses.device record

end PwDart
