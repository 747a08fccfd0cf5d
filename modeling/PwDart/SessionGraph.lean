import PwDart.Session
import PwDart.WireEncoding

namespace PwDart

theorem graphOf_append_singleton (events : List GraphEvent) (event : GraphEvent) :
    graphOf (events ++ [event]) = (graphOf events).applyEvent event.image := by
  simp [graphOf]

/-- The ids an object names in its properties. -/
def ServerObject.names (object : ServerObject) : List UInt32 :=
  match object.record with
  | some (.port port) => [port.nodeId]
  | some (.link link) => [link.outputPortId, link.outputNodeId, link.inputPortId, link.inputNodeId]
  | _ => []

/-- The graph has an entry for the object, where objects of its kind have one. -/
def InGraph (g : PwGraph) (object : ServerObject) : Prop :=
  match object.record with
  | some (.node _) => dartId object.id ∈ g.nodes
  | some (.port _) => dartId object.id ∈ g.ports
  | some (.link _) => dartId object.id ∈ g.links
  | _ => True

/-- What the first and every later info of an object do to the graph. -/
inductive Gains (object : ServerObject) (g : PwGraph) : PwGraph → Prop
  | node {info : NodeInfo} (node : PwNode) : object.record = some (.node info) →
      Gains object g { g with nodes := g.nodes.put (dartId object.id) node }
  | port {info : PortInfo} (port : PwPort) : object.record = some (.port info) →
      port.nodeId = dartId info.nodeId →
      Gains object g { g with ports := g.ports.put (dartId object.id) port }
  | link {info : LinkInfo} (link : PwLink) : object.record = some (.link info) →
      link.outputPortId = dartId info.outputPortId → link.outputNodeId = dartId info.outputNodeId →
      link.inputPortId = dartId info.inputPortId → link.inputNodeId = dartId info.inputNodeId →
      Gains object g { g with links := g.links.put (dartId object.id) link }
  | device {info : DeviceInfo} : object.record = some (.device info) → Gains object g g

/-- What its removal does. -/
inductive Loses (object : ServerObject) (g : PwGraph) : PwGraph → Prop
  | node {info : NodeInfo} : object.record = some (.node info) →
      Loses object g { g with nodes := g.nodes.erase (dartId object.id) }
  | port {info : PortInfo} : object.record = some (.port info) →
      Loses object g { g with ports := g.ports.erase (dartId object.id) }
  | link {info : LinkInfo} : object.record = some (.link info) →
      Loses object g { g with links := g.links.erase (dartId object.id) }
  | device {info : DeviceInfo} : object.record = some (.device info) → Loses object g g
  | unknown : object.record = none → Loses object g g

theorem mem_put {α : Type} {m : LinkedMap Int α} {k a : Int} {v : α} :
    a ∈ LinkedMap.put m k v ↔ a = k ∨ a ∈ m := by
  rw [← AList.lookup_isSome, ← AList.lookup_isSome, LinkedMap.lookup_put]
  by_cases h : a = k <;> simp [h]

theorem mem_erase {α : Type} {m : LinkedMap Int α} {k a : Int} : a ∈ m.erase k ↔ a ≠ k ∧ a ∈ m :=
  AList.mem_erase

theorem inGraph_gains {object : ServerObject} {g g' : PwGraph} (h : Gains object g g') : InGraph g' object := by
  cases h with
  | node _ record => simp [InGraph, record, mem_put]
  | port _ record => simp [InGraph, record, mem_put]
  | link _ record => simp [InGraph, record, mem_put]
  | device record => simp [InGraph, record]

theorem inGraph_gains_other {object other : ServerObject} {g g' : PwGraph} (h : Gains object g g')
    (apart : other.id ≠ object.id) : InGraph g' other ↔ InGraph g other := by
  have keys : dartId other.id ≠ dartId object.id := fun same => apart (dartId_inj.mp same)
  unfold InGraph
  cases h with
  | node | port | link => split <;> simp [mem_put, keys]
  | device => exact Iff.rfl

theorem inGraph_loses_other {object other : ServerObject} {g g' : PwGraph} (h : Loses object g g')
    (apart : other.id ≠ object.id) : InGraph g' other ↔ InGraph g other := by
  have keys : dartId other.id ≠ dartId object.id := fun same => apart (dartId_inj.mp same)
  unfold InGraph
  cases h with
  | node | port | link => split <;> simp [keys]
  | device | unknown => exact Iff.rfl

/-- The ports and links of the graph are those of live objects, as the server knows them, and with an
object everything it names is in the graph. -/
structure Pictures (objects : List ServerObject) (g : PwGraph) : Prop where
  ports : ∀ key port, g.ports.lookup key = some port → ∃ o ∈ objects, ∃ info,
    o.record = some (.port info) ∧ dartId o.id = key ∧ port.nodeId = dartId info.nodeId
  links : ∀ key link, g.links.lookup key = some link → ∃ o ∈ objects, ∃ info,
    o.record = some (.link info) ∧ dartId o.id = key ∧
      link.outputPortId = dartId info.outputPortId ∧ link.outputNodeId = dartId info.outputNodeId ∧
      link.inputPortId = dartId info.inputPortId ∧ link.inputNodeId = dartId info.inputNodeId
  closed : ∀ o ∈ objects, InGraph g o → ∀ n ∈ objects, n.id ∈ o.names → InGraph g n

theorem pictures_empty : Pictures [] {} where
  ports key port h := by cases h
  links key link h := by cases h
  closed o h := by cases h

theorem pictures_announce {objects : List ServerObject} {g : PwGraph} (h : Pictures objects g)
    {object : ServerObject} (unseen : ¬InGraph g object ∨ ∀ n ∈ objects, n.id ∈ object.names → InGraph g n)
    (unnamed : ∀ o ∈ objects, object.id ∉ o.names) (self : object.id ∉ object.names) :
    Pictures (objects ++ [object]) g where
  ports key port found := by
    obtain ⟨o, ho, rest⟩ := h.ports key port found
    exact ⟨o, List.mem_append_left _ ho, rest⟩
  links key link found := by
    obtain ⟨o, ho, rest⟩ := h.links key link found
    exact ⟨o, List.mem_append_left _ ho, rest⟩
  closed o ho shown n hn named := by
    rcases List.mem_append.mp ho with ho | ho
    · rcases List.mem_append.mp hn with hn | hn
      · exact h.closed o ho shown n hn named
      · cases List.mem_singleton.mp hn
        exact absurd named (unnamed o ho)
    · cases List.mem_singleton.mp ho
      rcases List.mem_append.mp hn with hn | hn
      · rcases unseen with unseen | known
        · exact absurd shown unseen
        · exact known n hn named
      · cases List.mem_singleton.mp hn
        exact absurd named self

theorem pictures_gains {objects : List ServerObject} {g g' : PwGraph} (h : Pictures objects g)
    {object : ServerObject} (gains : Gains object g g') (here : object ∈ objects)
    (ids : (objects.map ServerObject.id).Nodup)
    (known : ∀ n ∈ objects, n.id ∈ object.names → InGraph g n) : Pictures objects g' := by
  have keep (n : ServerObject) (hn : n ∈ objects) (shown : InGraph g n) : InGraph g' n := by
    by_cases same : n.id = object.id
    · rw [List.inj_on_of_nodup_map ids hn here same]
      exact inGraph_gains gains
    · exact (inGraph_gains_other gains same).mpr shown
  refine ⟨?_, ?_, ?_⟩
  · intro key port found
    cases gains with
    | port new record same =>
      simp only [LinkedMap.lookup_put] at found
      split at found
      next at_ =>
        cases Option.some.inj found
        exact ⟨object, here, _, record, at_.symm, same⟩
      next => exact h.ports key port found
    | node | link | device => exact h.ports key port found
  · intro key link found
    cases gains with
    | link new record a b c d =>
      simp only [LinkedMap.lookup_put] at found
      split at found
      next at_ =>
        cases Option.some.inj found
        exact ⟨object, here, _, record, at_.symm, a, b, c, d⟩
      next => exact h.links key link found
    | node | port | device => exact h.links key link found
  · intro o ho shown n hn named
    by_cases same : o.id = object.id
    · cases List.inj_on_of_nodup_map ids ho here same
      exact keep n hn (known n hn named)
    · exact keep n hn (h.closed o ho ((inGraph_gains_other gains same).mp shown) n hn named)

theorem pictures_loses {objects : List ServerObject} {g g' : PwGraph} (h : Pictures objects g)
    {object : ServerObject} (loses : Loses object g g') (here : object ∈ objects)
    (ids : (objects.map ServerObject.id).Nodup) :
    Pictures (objects.filter fun o => o ≠ object) g' := by
  have apart {o : ServerObject} (ho : o ∈ objects.filter fun o => o ≠ object) :
      o ∈ objects ∧ o.id ≠ object.id := by
    obtain ⟨ho, other⟩ := List.mem_filter.mp ho
    refine ⟨ho, fun same => ?_⟩
    cases List.inj_on_of_nodup_map ids ho here same
    simp at other
  have stays {o : ServerObject} (ho : o ∈ objects) (other : o ≠ object) :
      o ∈ objects.filter fun o => o ≠ object :=
    List.mem_filter.mpr ⟨ho, by simpa using other⟩
  refine ⟨?_, ?_, ?_⟩
  · intro key port found
    have before : g.ports.lookup key = some port ∧
        (key = dartId object.id → ∀ info, object.record ≠ some (.port info)) := by
      cases loses with
      | port record =>
        simp only [LinkedMap.lookup_erase] at found
        split at found
        next => cases found
        next other => exact ⟨found, fun same => absurd same other⟩
      | node record | link record | device record | unknown record =>
        exact ⟨found, fun _ => by simp [record]⟩
    obtain ⟨o, ho, info, record, at_, same⟩ := h.ports key port before.1
    refine ⟨o, stays ho ?_, info, record, at_, same⟩
    rintro rfl
    exact before.2 at_.symm info record
  · intro key link found
    have before : g.links.lookup key = some link ∧
        (key = dartId object.id → ∀ info, object.record ≠ some (.link info)) := by
      cases loses with
      | link record =>
        simp only [LinkedMap.lookup_erase] at found
        split at found
        next => cases found
        next other => exact ⟨found, fun same => absurd same other⟩
      | node record | port record | device record | unknown record =>
        exact ⟨found, fun _ => by simp [record]⟩
    obtain ⟨o, ho, info, record, at_, same⟩ := h.links key link before.1
    refine ⟨o, stays ho ?_, info, record, at_, same⟩
    rintro rfl
    exact before.2 at_.symm info record
  · intro o ho shown n hn named
    have shownBefore := (inGraph_loses_other loses (apart ho).2).mp shown
    exact (inGraph_loses_other loses (apart hn).2).mpr
      (h.closed o (apart ho).1 shownBefore n (apart hn).1 named)

theorem record_of_kind_node {object : ServerObject} (known : object.kind = some .node) :
    ∃ info, object.record = some (.node info) := by
  obtain ⟨made, announces, kind⟩ := newObject_of_kind known
  cases made with
  | node info => exact ⟨info, announces⟩
  | port | link | device => cases kind

theorem record_of_portNode {object : ServerObject} {nodeId : UInt32} (h : object.portNode = some nodeId) :
    ∃ info, object.record = some (.port info) ∧ info.nodeId = nodeId := by
  unfold ServerObject.portNode at h
  split at h
  next port record => exact ⟨port, record, Option.some.inj h⟩
  next => cases h

/-- What is in the graph when something that names it is. -/
theorem Pictures.node_of_name {objects : List ServerObject} {g : PwGraph} (h : Pictures objects g)
    {o : ServerObject} (ho : o ∈ objects) (shown : InGraph g o) {id : UInt32} (named : id ∈ o.names)
    (there : HasNode objects id) : dartId id ∈ g.nodes := by
  obtain ⟨n, hn, rfl, known⟩ := there
  obtain ⟨info, record⟩ := record_of_kind_node known
  have shownNode := h.closed o ho shown n hn named
  simpa [InGraph, record] using shownNode

theorem Pictures.port_of_name {objects : List ServerObject} {g : PwGraph} (h : Pictures objects g)
    {o : ServerObject} (ho : o ∈ objects) (shown : InGraph g o) {id nodeId : UInt32} (named : id ∈ o.names)
    (there : HasPort objects id nodeId) : dartId id ∈ g.ports := by
  obtain ⟨n, hn, rfl, isPort⟩ := there
  obtain ⟨info, record, _⟩ := record_of_portNode isPort
  have shownPort := h.closed o ho shown n hn named
  simpa [InGraph, record] using shownPort

theorem hasNode_of_hasPort {objects : List ServerObject} {id nodeId : UInt32}
    (h : HasPort objects id nodeId) (supports : ∀ o ∈ objects, supported objects o) :
    HasNode objects nodeId := by
  obtain ⟨port, hport, _, isPort⟩ := h
  obtain ⟨info, record, rfl⟩ := record_of_portNode isPort
  simpa [supported, record] using supports port hport

theorem pictures_integral {objects : List ServerObject} {g : PwGraph} (h : Pictures objects g)
    (supports : ∀ o ∈ objects, supported objects o) : g.Integral := by
  constructor
  · intro key port found
    obtain ⟨o, ho, info, record, rfl, same⟩ := h.ports key port found
    have shown : InGraph g o := by
      simp only [InGraph, record]
      exact AList.lookup_isSome.mp (by simp [found])
    have node : HasNode objects info.nodeId := by simpa [supported, record] using supports o ho
    rw [same]
    exact h.node_of_name ho shown (by simp [ServerObject.names, record]) node
  · intro key link found
    obtain ⟨o, ho, info, record, rfl, outputPort, outputNode, inputPort, inputNode⟩ := h.links key link found
    have shown : InGraph g o := by
      simp only [InGraph, record]
      exact AList.lookup_isSome.mp (by simp [found])
    have ports : HasPort objects info.outputPortId info.outputNodeId ∧
        HasPort objects info.inputPortId info.inputNodeId := by
      simpa [supported, record] using supports o ho
    have names : o.names = [info.outputPortId, info.outputNodeId, info.inputPortId, info.inputNodeId] := by
      simp [ServerObject.names, record]
    rw [outputPort, outputNode, inputPort, inputNode]
    exact ⟨h.port_of_name ho shown (by simp [names]) ports.1, h.port_of_name ho shown (by simp [names]) ports.2,
      h.node_of_name ho shown (by simp [names]) (hasNode_of_hasPort ports.1 supports),
      h.node_of_name ho shown (by simp [names]) (hasNode_of_hasPort ports.2 supports)⟩

end PwDart
