import PwDart.GraphRoundTrip

namespace PwDart

namespace PwGraph

def portsForNode (g : PwGraph) (nodeId : Int) : List PwPort := g.ports.values.filter fun p => p.nodeId = nodeId

def linksForNode (g : PwGraph) (nodeId : Int) : List PwLink :=
  let nodePorts := ((g.portsForNode nodeId).map PwPort.id).toFinset
  g.links.values.filter fun l => l.outputPortId ∈ nodePorts ∨ l.inputPortId ∈ nodePorts

/-- Both ports of each link are there, on the nodes the link names. -/
structure Wired (g : PwGraph) : Prop where
  output : ∀ id l, g.links.lookup id = some l →
    ∃ p, g.ports.lookup l.outputPortId = some p ∧ p.nodeId = l.outputNodeId
  input : ∀ id l, g.links.lookup id = some l →
    ∃ p, g.ports.lookup l.inputPortId = some p ∧ p.nodeId = l.inputNodeId

theorem mem_portsForNode {g : PwGraph} (keyed : g.Keyed) {nodeId : Int} {p : PwPort} :
    p ∈ g.portsForNode nodeId ↔ g.ports.lookup p.id = some p ∧ p.nodeId = nodeId := by
  rw [portsForNode, List.mem_filter, keyed.ports.mem_values, decide_eq_true_iff]

/-- The port of that id, if it is there, decides whether the id is one of the node's. -/
theorem portId_iff {g : PwGraph} (keyed : g.Keyed) {portId : Int} {q : PwPort}
    (found : g.ports.lookup portId = some q) (nodeId : Int) :
    (∃ p ∈ g.portsForNode nodeId, p.id = portId) ↔ q.nodeId = nodeId := by
  constructor
  · rintro ⟨p, mem, rfl⟩
    obtain ⟨here, node⟩ := (mem_portsForNode keyed).mp mem
    cases Option.some.inj (here.symm.trans found)
    exact node
  · intro node
    have own : q.id = portId := keyed.ports portId q found
    subst own
    exact ⟨q, (mem_portsForNode keyed).mpr ⟨found, node⟩, rfl⟩

theorem linksForNode_eq_filter (g : PwGraph) (nodeId : Int) :
    g.linksForNode nodeId = g.links.values.filter fun l =>
      (∃ p ∈ g.portsForNode nodeId, p.id = l.outputPortId) ∨ ∃ p ∈ g.portsForNode nodeId, p.id = l.inputPortId := by
  apply List.filter_congr
  intro l _
  simp only [List.mem_toFinset, List.mem_map]

/-- The links of a node are those with an end on it, each once and in their order; and they are those with
a port among the ports of the node. -/
theorem linksForNode_agrees {g : PwGraph} (keyed : g.Keyed) (wired : g.Wired) (nodeId : Int) :
    g.linksForNode nodeId =
        g.links.values.filter (fun l => l.outputNodeId = nodeId ∨ l.inputNodeId = nodeId) ∧
      ((g.linksForNode nodeId).map PwLink.id).Nodup ∧
      ∀ l ∈ g.links.values, l ∈ g.linksForNode nodeId ↔
        ∃ p ∈ g.portsForNode nodeId, p.id = l.outputPortId ∨ p.id = l.inputPortId := by
  refine ⟨?_, ?_, fun l mem => ?_⟩
  · rw [linksForNode_eq_filter]
    apply List.filter_congr
    intro l mem
    have here := keyed.links.mem_values.mp mem
    obtain ⟨p, output, outputNode⟩ := wired.output l.id l here
    obtain ⟨q, input, inputNode⟩ := wired.input l.id l here
    have outputs := portId_iff keyed output nodeId
    have inputs := portId_iff keyed input nodeId
    rw [outputNode] at outputs
    rw [inputNode] at inputs
    exact decide_eq_decide.mpr (or_congr outputs inputs)
  · have part : (g.linksForNode nodeId).Sublist g.links.values := List.filter_sublist
    exact keyed.links.nodup_values.sublist (part.map PwLink.id)
  · rw [linksForNode_eq_filter, List.mem_filter, decide_eq_true_iff]
    constructor
    · rintro ⟨_, ⟨p, own, output⟩ | ⟨p, own, input⟩⟩
      · exact ⟨p, own, Or.inl output⟩
      · exact ⟨p, own, Or.inr input⟩
    · rintro ⟨p, own, output | input⟩
      · exact ⟨mem, Or.inl ⟨p, own, output⟩⟩
      · exact ⟨mem, Or.inr ⟨p, own, input⟩⟩

def loopOutput : PwPort := ⟨10, 1, [], .output, [], false, false, [], ∅⟩

def loopInput : PwPort := ⟨11, 1, [], .input, [], false, false, [], ∅⟩

def loopLink : PwLink := ⟨40, 1, 10, 1, 11, .active, [], ∅⟩

def loopGraph : PwGraph := ((({} : PwGraph).withPort loopOutput).withPort loopInput).withLink loopLink

/-- A link from a node to itself is there once. -/
theorem linksForNode_agrees_loop : (loopGraph.linksForNode 1).map PwLink.id = [40] := by
  have keyed : loopGraph.Keyed :=
    keyed_withLink (keyed_withPort (keyed_withPort keyed_empty loopOutput) loopInput) loopLink
  have only (id : Int) (l : PwLink) (found : loopGraph.links.lookup id = some l) : l = loopLink := by
    rw [loopGraph, withLink, LinkedMap.lookup_put] at found
    split at found
    · exact (Option.some.inj found).symm
    · cases found
  have wired : loopGraph.Wired := by
    constructor
    · intro id l found
      cases only id l found
      exact ⟨loopOutput, rfl, rfl⟩
    · intro id l found
      cases only id l found
      exact ⟨loopInput, rfl, rfl⟩
  rw [(linksForNode_agrees keyed wired 1).1]
  rfl

end PwGraph

end PwDart
