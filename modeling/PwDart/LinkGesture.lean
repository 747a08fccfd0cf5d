import PwDart.PortHits
import PwDart.LabelledRun

namespace PwDart

open Json LinkedMap PlaneBoxes LabelledRun GraphLayout

/-- What a gesture makes the view do. -/
inductive ViewCall
  | createLink (outputPortId inputPortId : Int)
  | toast (message : Text)
  | destroyLink (linkId : Int)
deriving DecidableEq

/-- How the future of a request completes. `failed` has what it threw, as a text. -/
inductive Outcome
  | linked
  | timedOut
  | failed (e : Text)
deriving DecidableEq

/-- The end of a drag: the port and the graph in which it was taken, the place and the graph in which it was dropped,
the request or the message that came of it, and how the request went. -/
structure Drop where
  taken : PwGraph
  port : PwPort
  graph : PwGraph
  filter : Text
  place : Offset
  call : Option ViewCall
  outcome : Option Outcome := none

/-- A request was made and nothing has come of it yet. -/
def Drop.awaits (d : Drop) : Bool :=
  match d.call, d.outcome with
  | some (.createLink _ _), none => true
  | _, _ => false

/-- `_GraphViewState` with the graph of its client. `layout` is the one that was built last, from `built`. `drops` has
the callbacks that await a request; the rest of it and `dragGraph` only record. -/
structure GraphView where
  graph : PwGraph
  filter : Text := []
  built : PwGraph := {}
  layout : GraphLayout := ⟨∅, ⟨0, 0⟩⟩
  dragPort : Option PwPort := none
  dragFrom : Option Offset := none
  dragTo : Option Offset := none
  dragFromOutput : Bool := false
  dragGraph : PwGraph := {}
  drops : List Drop := []
  calls : List ViewCall := []

/-- A drag target of `_buildPortTargets`. -/
structure PortTarget where
  port : PwPort
  center : Offset
  isOutput : Bool

/-- A gesture starts on one of the targets of the last build. -/
inductive GestureStep
  | event (event : PwGraphEvent)
  | setFilter (filter : Text)
  | build
  | panStart (i : Nat)
  | panUpdate (center delta : Offset)
  | panEnd
  | complete (i : Nat) (outcome : Outcome)
  | tapLink (i : Nat)

namespace GraphView

def portTargets (layout : GraphLayout) : List PortTarget :=
  layout.boxes.values.flatMap fun box =>
    (box.inputs.filterMap fun port => (box.portCenter port.id).map fun c => ⟨port, c, false⟩) ++
      box.outputs.filterMap fun port => (box.portCenter port.id).map fun c => ⟨port, c, true⟩

/-- The links that have a target in `_buildLinkTargets`. -/
def linkTargets (g : PwGraph) (layout : GraphLayout) : List PwLink :=
  g.links.values.filter fun link =>
    match layout.boxes.lookup link.outputNodeId, layout.boxes.lookup link.inputNodeId with
    | some outBox, some inBox =>
      (outBox.portCenter link.outputPortId).isSome && (inBox.portCenter link.inputPortId).isSome
    | _, _ => false

/-- What `onPanEnd` does when the future that it awaits completes. -/
def afterAwait : Outcome → Option ViewCall
  | .linked => none
  | .timedOut => some (.toast (utf16 "PipeWire refused the link (no confirmation in 5s)"))
  | .failed e => some (.toast (utf16 "Link failed: " ++ e))

section Env

variable (toLowerCase : Text → Text) (sort : List PwNode → List PwNode) (distance : Offset → Offset → WithTop ℚ)
  (plus : Offset → Offset → Offset)

/-- `null` where the ports may be linked. -/
def checkCompatible (g : PwGraph) (fromPort : PwPort) (fromOutput : Bool) (toPort : PwPort)
    (toOutput : Bool) : Option Text :=
  if fromOutput = toOutput then
    some (utf16 (if fromOutput then "Both ports are outputs" else "Both ports are inputs"))
  else if fromPort.nodeId = toPort.nodeId then some (utf16 "Cannot link a node to itself")
  else
    let a := toLowerCase fromPort.mediaType
    let b := toLowerCase toPort.mediaType
    if a ≠ [] ∧ b ≠ [] ∧ a ≠ b then some (utf16 "Incompatible media types: " ++ a ++ utf16 " ↔ " ++ b)
    else
      let outId := if fromOutput then fromPort.id else toPort.id
      let inId := if fromOutput then toPort.id else fromPort.id
      if g.links.values.any fun l => l.outputPortId = outId && l.inputPortId = inId then
        some (utf16 "Link already exists")
      else none

/-- What `onPanEnd` does with the port that was dragged and the place of the drop, up to the `await`. -/
def drop (g : PwGraph) (filter : Text) (fromPort : PwPort) (fromOut : Bool) (dropAt : Offset) : Option ViewCall :=
  match (compute toLowerCase sort g filter).portAt distance dropAt with
  | none => none
  | some hit =>
    if hit.port.id = fromPort.id then none
    else
      match checkCompatible toLowerCase g fromPort fromOut hit.port hit.isOutput with
      | some reason => some (.toast reason)
      | none =>
        some (.createLink (if fromOut then fromPort.id else hit.port.id) (if fromOut then hit.port.id else fromPort.id))

def onPanEnd (s : GraphView) : GraphView :=
  let cleared := { s with dragPort := none, dragFrom := none, dragTo := none }
  match s.dragPort, s.dragTo with
  | some port, some dropAt =>
    let call := drop toLowerCase sort distance s.graph s.filter port s.dragFromOutput dropAt
    { cleared with
      calls := s.calls ++ call.toList
      drops := s.drops ++ [⟨s.dragGraph, port, s.graph, s.filter, dropAt, call, none⟩] }
  | _, _ => cleared

/-- A filter or an event shows in the next build. `plus` is the sum of two offsets as `dart:ui` rounds it. -/
def next (s : GraphView) : GestureStep → Option GraphView
  | .event event => some { s with graph := s.graph.applyEvent event }
  | .setFilter filter => some { s with filter := filter }
  | .build => some { s with built := s.graph, layout := compute toLowerCase sort s.graph s.filter }
  | .panStart i => do
    let target ← (portTargets s.layout)[i]?
    return { s with
      dragPort := some target.port, dragFromOutput := target.isOutput, dragFrom := some target.center,
      dragTo := some target.center, dragGraph := s.built }
  | .panUpdate center delta =>
    if s.dragPort = none then some s else some { s with dragTo := some (plus (s.dragTo.getD center) delta) }
  | .panEnd => some (onPanEnd toLowerCase sort distance s)
  | .complete i outcome => do
    let d ← s.drops[i]?
    if d.awaits then
      return { s with
        calls := s.calls ++ (afterAwait outcome).toList, drops := s.drops.set i { d with outcome := some outcome } }
    else none
  | .tapLink i => do
    let link ← (linkTargets s.built s.layout)[i]?
    return { s with calls := s.calls ++ [.destroyLink link.id] }

end Env

/-- Not both given and different. -/
def MediaAgree (toLowerCase : Text → Text) (a b : PwPort) : Prop :=
  toLowerCase a.mediaType = [] ∨ toLowerCase b.mediaType = [] ∨ toLowerCase a.mediaType = toLowerCase b.mediaType

/-- No link of the graph has these ends. -/
def Unlinked (g : PwGraph) (outId inId : Int) : Prop :=
  ∀ id link, g.links.lookup id = some link → ¬(link.outputPortId = outId ∧ link.inputPortId = inId)

section Compatible

variable {toLowerCase : Text → Text}

theorem MediaAgree.symm {a b : PwPort} (agree : MediaAgree toLowerCase a b) : MediaAgree toLowerCase b a := by
  rcases agree with h | h | h
  · exact .inr (.inl h)
  · exact .inl h
  · exact .inr (.inr h.symm)

end Compatible

section Drops

variable {toLowerCase : Text → Text} {sort : List PwNode → List PwNode} {distance : Offset → Offset → WithTop ℚ}
  {g : PwGraph} {filter : Text}

theorem port_of_side (sorts : SortsByName sort) (keyed : g.Keyed) {box : NodeBox}
    (listed : box ∈ allBoxes toLowerCase sort g filter) {isOutput : Bool} {port : PwPort} (mem : port ∈ side box isOutput) :
    g.ports.lookup port.id = some port ∧ isOutput = decide (port.direction = .output) := by
  obtain ⟨y, _, shape⟩ := (mem_allBoxes sorts listed).2
  rw [shape] at mem
  cases isOutput with
  | false =>
    obtain ⟨own, direction⟩ := List.mem_filter.mp mem
    have isInput : port.direction = .input := of_decide_eq_true direction
    exact ⟨((PwGraph.mem_portsForNode keyed).mp own).1, by rw [isInput]; rfl⟩
  | true =>
    obtain ⟨own, direction⟩ := List.mem_filter.mp mem
    exact ⟨((PwGraph.mem_portsForNode keyed).mp own).1, direction.symm⟩

theorem port_of_target (sorts : SortsByName sort) (keyed : g.Keyed) {target : PortTarget}
    (mem : target ∈ portTargets (compute toLowerCase sort g filter)) :
    g.ports.lookup target.port.id = some target.port ∧ target.isOutput = decide (target.port.direction = .output) := by
  rw [portTargets, values_compute sorts keyed] at mem
  obtain ⟨box, listed, own⟩ := List.mem_flatMap.mp mem
  rcases List.mem_append.mp own with own | own
  · obtain ⟨port, input, center⟩ := List.mem_filterMap.mp own
    obtain ⟨c, _, rfl⟩ := Option.map_eq_some_iff.mp center
    exact port_of_side sorts keyed listed (show port ∈ side box false from input)
  · obtain ⟨port, output, center⟩ := List.mem_filterMap.mp own
    obtain ⟨c, _, rfl⟩ := Option.map_eq_some_iff.mp center
    exact port_of_side sorts keyed listed (show port ∈ side box true from output)

/-- A request is for the port that was dragged and the one at the place, an output and an input of two nodes that may
carry the same media, and for no link that is there. -/
def Requested (toLowerCase : Text → Text) (g : PwGraph) (port hit : PwPort) (outId inId : Int) : Prop :=
  hit.id ≠ port.id ∧ hit.nodeId ≠ port.nodeId ∧ MediaAgree toLowerCase port hit ∧
    (port.direction = .output ∧ hit.direction = .input ∧ outId = port.id ∧ inId = hit.id ∨
      port.direction = .input ∧ hit.direction = .output ∧ outId = hit.id ∧ inId = port.id) ∧
    Unlinked g outId inId

end Drops

section Runs

variable (toLowerCase : Text → Text) (sort : List PwNode → List PwNode) (distance : Offset → Offset → WithTop ℚ)

/-- The port was taken from its graph and dropped with its direction, and only a request has an outcome. -/
structure Recorded (d : Drop) : Prop where
  taken : d.taken.ports.lookup d.port.id = some d.port
  reached : d.graph.Reachable
  call : d.call = drop toLowerCase sort distance d.graph d.filter d.port (decide (d.port.direction = .output)) d.place
  outcome : d.outcome.isSome → ∃ outId inId, d.call = some (.createLink outId inId)

/-- What holds of a view between two callbacks. -/
structure Tracked (s : GraphView) : Prop where
  graph : s.graph.Reachable
  targets : ∀ target ∈ portTargets s.layout, s.built.ports.lookup target.port.id = some target.port ∧
    target.isOutput = decide (target.port.direction = .output)
  drag : ∀ port, s.dragPort = some port → s.dragGraph.ports.lookup port.id = some port ∧
    s.dragFromOutput = decide (port.direction = .output)
  drops : ∀ d ∈ s.drops, Recorded toLowerCase sort distance d

def isPanStart : GestureStep → Bool
  | .panStart _ => true
  | _ => false

def isDestroyLink : ViewCall → Bool
  | .destroyLink _ => true
  | _ => false

/-- What a drag has made the view do. -/
def callsOf (d : Drop) : List ViewCall := d.call.toList ++ (d.outcome.bind afterAwait).toList

variable {toLowerCase sort distance} {plus : Offset → Offset → Offset}

theorem awaits_iff {d : Drop} :
    d.awaits = true ↔ d.outcome = none ∧ ∃ outId inId, d.call = some (.createLink outId inId) := by
  unfold Drop.awaits
  split
  next call outcome => exact ⟨fun _ => ⟨outcome, _, _, call⟩, fun _ => rfl⟩
  next other =>
    refine ⟨nofun, ?_⟩
    rintro ⟨outcome, outId, inId, call⟩
    exact absurd outcome (other outId inId call)

theorem complete_cases {s t : GraphView} {i : Nat} {outcome : Outcome}
    (step : next toLowerCase sort distance plus s (.complete i outcome) = some t) :
    ∃ d, s.drops[i]? = some d ∧ d.outcome = none ∧ (∃ outId inId, d.call = some (.createLink outId inId)) ∧
      t = { s with
        calls := s.calls ++ (afterAwait outcome).toList, drops := s.drops.set i { d with outcome := some outcome } } := by
  obtain ⟨d, found, step⟩ := Option.bind_eq_some_iff.mp step
  obtain ⟨awaits, same⟩ := Option.ite_none_right_eq_some.mp step
  obtain ⟨fresh, made⟩ := awaits_iff.mp awaits
  exact ⟨d, found, fresh, made, (Option.some.inj same).symm⟩

theorem Tracked.next {s t : GraphView} {l : GestureStep} (sorts : SortsByName sort)
    (h : Tracked toLowerCase sort distance s) (step : next toLowerCase sort distance plus s l = some t) :
    Tracked toLowerCase sort distance t := by
  cases l with
  | event event =>
    cases step
    exact { h with graph := .applyEvent event h.graph }
  | setFilter filter =>
    cases step
    exact { h with }
  | build =>
    cases step
    exact { h with targets := fun target mem => port_of_target sorts (PwGraph.keyed_of_reachable h.graph) mem }
  | panStart i =>
    obtain ⟨target, found, step⟩ := Option.bind_eq_some_iff.mp step
    cases step
    refine { h with drag := fun port taken => ?_ }
    cases taken
    exact h.targets target (List.mem_of_getElem? found)
  | panUpdate center delta =>
    simp only [GraphView.next] at step
    split at step
    next =>
      cases step
      exact h
    next =>
      cases step
      exact { h with }
  | panEnd =>
    cases step
    unfold onPanEnd
    split
    next port place drag to_ =>
      have own := h.drag port drag
      refine ⟨h.graph, h.targets, nofun, fun d mem => ?_⟩
      rcases List.mem_append.mp mem with old | new
      · exact h.drops d old
      · cases List.mem_singleton.mp new
        exact ⟨own.1, h.graph, own.2 ▸ rfl, nofun⟩
    next => exact ⟨h.graph, h.targets, nofun, h.drops⟩
  | complete i outcome =>
    obtain ⟨d, found, _, made, rfl⟩ := complete_cases step
    refine { h with drops := fun c mem => ?_ }
    rcases List.mem_or_eq_of_mem_set mem with old | rfl
    · exact h.drops c old
    · exact { h.drops d (List.mem_of_getElem? found) with outcome := fun _ => made }
  | tapLink i =>
    obtain ⟨_, _, step⟩ := Option.bind_eq_some_iff.mp step
    cases step
    exact { h with }

/-- What the calls and the drops have come to, over the drags that were begun. -/
structure Counted (s : GraphView) (begun : Nat) : Prop where
  once : s.drops.length + (if s.dragPort.isSome then 1 else 0) ≤ begun
  calls : (s.calls.filter fun call => !isDestroyLink call).Perm (s.drops.flatMap callsOf)

theorem isDestroyLink_drop {g : PwGraph} {filter : Text} {fromPort : PwPort} {fromOut : Bool} {place : Offset}
    {call : ViewCall} (made : drop toLowerCase sort distance g filter fromPort fromOut place = some call) :
    isDestroyLink call = false := by
  unfold drop at made
  split at made
  next => cases made
  next hit =>
    split at made
    next => cases made
    next =>
      split at made
      next =>
        cases made
        rfl
      next =>
        cases made
        rfl

/-- An item that gives more gives it wherever the item stands. -/
theorem flatMap_set_perm {α β : Type*} {f : α → List β} {as : List α} {i : Nat} {a b : α} {more : List β}
    (here : as[i]? = some a) (longer : f b = f a ++ more) : ((as.set i b).flatMap f).Perm (as.flatMap f ++ more) := by
  induction as generalizing i with
  | nil => cases here
  | cons c as ih =>
    cases i with
    | zero =>
      cases here
      rw [List.set_cons_zero, List.flatMap_cons, List.flatMap_cons, longer, List.append_assoc, List.append_assoc]
      exact List.perm_append_comm.append_left (f _)
    | succ i =>
      rw [List.set_cons_succ, List.flatMap_cons, List.flatMap_cons, List.append_assoc]
      exact (ih here).append_left (f c)

theorem Counted.next {s t : GraphView} {l : GestureStep} {begun : Nat} (h : Counted s begun)
    (step : GraphView.next toLowerCase sort distance plus s l = some t) :
    Counted t (begun + if isPanStart l then 1 else 0) := by
  cases l with
  | event event =>
    cases step
    exact ⟨h.once, h.calls⟩
  | setFilter filter =>
    cases step
    exact ⟨h.once, h.calls⟩
  | build =>
    cases step
    exact ⟨h.once, h.calls⟩
  | panStart i =>
    obtain ⟨_, _, step⟩ := Option.bind_eq_some_iff.mp step
    cases step
    have once := h.once
    refine ⟨?_, h.calls⟩
    simp only [Option.isSome_some, if_true, isPanStart]
    omega
  | panUpdate center delta =>
    simp only [GraphView.next] at step
    split at step
    next =>
      cases step
      exact h
    next =>
      cases step
      exact ⟨h.once, h.calls⟩
  | panEnd =>
    cases step
    have once := h.once
    unfold onPanEnd
    split
    next port place drag to_ =>
      rw [drag] at once
      refine ⟨by simpa [isPanStart] using once, ?_⟩
      dsimp only
      rw [List.filter_append, List.flatMap_append]
      refine h.calls.append ?_
      cases made : drop toLowerCase sort distance s.graph s.filter port s.dragFromOutput place with
      | none => exact .nil
      | some call =>
        have own := isDestroyLink_drop made
        simp [own, callsOf]
    next =>
      refine ⟨?_, h.calls⟩
      simp only [Option.isSome_none, Bool.false_eq_true, if_false, isPanStart]
      omega
  | complete i outcome =>
    obtain ⟨d, found, fresh, _, rfl⟩ := complete_cases step
    have once := h.once
    refine ⟨by simpa [isPanStart] using once, ?_⟩
    have longer : callsOf { d with outcome := some outcome } = callsOf d ++ (afterAwait outcome).toList := by
      simp [callsOf, fresh]
    have toasts : ((afterAwait outcome).toList.filter fun call => !isDestroyLink call) = (afterAwait outcome).toList := by
      cases outcome <;> rfl
    refine List.Perm.trans ?_ (flatMap_set_perm found longer).symm
    rw [List.filter_append, toasts]
    exact h.calls.append_right _
  | tapLink i =>
    obtain ⟨_, _, step⟩ := Option.bind_eq_some_iff.mp step
    cases step
    refine ⟨h.once, ?_⟩
    simpa [isDestroyLink] using h.calls

end Runs

end GraphView

end PwDart
