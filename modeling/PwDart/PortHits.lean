import PwDart.GraphLayout

namespace PwDart

open Json LinkedMap PlaneBoxes

namespace GraphLayout

/-- What is relied on of the distance: a point is at itself, and where a coordinate differs by `n` the square root of
the rounded squares is no less than `n`. -/
structure MeasuresDistance (distance : Offset → Offset → WithTop ℚ) : Prop where
  self : ∀ p, distance p p = 0
  far : ∀ (p q : Offset) (n : Nat), n ≤ 2 ^ 26 → (n : ℚ) ≤ |p.x - q.x| ∨ (n : ℚ) ≤ |p.y - q.y| →
    ((n : ℚ) : WithTop ℚ) ≤ distance p q

/-- The ports of an edge, inputs on the left and outputs on the right. -/
def side (box : NodeBox) (isOutput : Bool) : List PwPort := if isOutput then box.outputs else box.inputs

/-- The place of a row on an edge. -/
def dot (box : NodeBox) (isOutput : Bool) (row : Nat) : Offset :=
  ⟨box.position.x + if isOutput then box.size.width else 0,
    box.position.y + (NodeMetrics.headerH + NodeMetrics.portRowH * (row + 1 / 2) + NodeMetrics.padTop)⟩

theorem findIdx?_of_nodup {ports : List PwPort} (distinct : (ports.map PwPort.id).Nodup) {row : Nat} {port : PwPort}
    (here : ports[row]? = some port) : (ports.findIdx? fun p => p.id = port.id) = some row := by
  obtain ⟨bound, here⟩ := List.getElem?_eq_some_iff.mp here
  refine List.findIdx?_eq_some_iff_getElem.mpr ⟨bound, by simp [here], fun i before => ?_⟩
  have bounds : i < (ports.map PwPort.id).length ∧ row < (ports.map PwPort.id).length := by
    rw [List.length_map]
    omega
  have other := List.pairwise_iff_getElem.mp distinct i row bounds.1 bounds.2 before
  simpa [here] using other

/-- Where no id stands twice, every port has its own row. -/
theorem portCenter_side {box : NodeBox} (distinct : ((box.inputs ++ box.outputs).map PwPort.id).Nodup)
    {isOutput : Bool} {row : Nat} {port : PwPort} (here : (side box isOutput)[row]? = some port) :
    box.portCenter port.id = some (dot box isOutput row) := by
  rw [List.map_append, List.nodup_append] at distinct
  obtain ⟨inputs, outputs, disjoint⟩ := distinct
  have mem := List.mem_of_getElem? here
  cases isOutput with
  | false =>
    have isInput : (box.inputs.any fun p => p.id = port.id) = true := List.any_eq_true.mpr ⟨port, mem, by simp⟩
    simp only [NodeBox.portCenter, isInput, if_true, findIdx?_of_nodup inputs here]
    rfl
  | true =>
    have notInput : (box.inputs.any fun p => p.id = port.id) = false := by
      rw [List.any_eq_false]
      intro p listed same
      exact disjoint p.id (List.mem_map.mpr ⟨p, listed, rfl⟩) port.id (List.mem_map.mpr ⟨port, mem, rfl⟩)
        (by simpa using same)
    simp only [NodeBox.portCenter, notInput, Bool.false_eq_true, if_false]
    exact congrArg (Option.map _) (findIdx?_of_nodup outputs here)

theorem distinct_ports {g : PwGraph} (keyed : g.Keyed) (colIdx : Nat) (node : PwNode) (y : ℚ) :
    (((boxFor g colIdx node y).inputs ++ (boxFor g colIdx node y).outputs).map PwPort.id).Nodup := by
  have outputs : (g.portsForNode node.id).filter (fun p => p.direction = .output) =
      (g.portsForNode node.id).filter fun p => !decide (p.direction = .input) := by
    apply List.filter_congr
    intro p _
    cases p.direction <;> rfl
  have all : ((boxFor g colIdx node y).inputs ++ (boxFor g colIdx node y).outputs).Perm (g.portsForNode node.id) := by
    change ((g.portsForNode node.id).filter _ ++ (g.portsForNode node.id).filter _).Perm _
    rw [outputs]
    exact List.filter_append_perm _ _
  have part : (g.portsForNode node.id).Sublist g.ports.values := List.filter_sublist
  exact (all.map PwPort.id).nodup_iff.mpr (keyed.ports.nodup_values.sublist (part.map PwPort.id))

theorem dotAt_iff {distance : Offset → Offset → WithTop ℚ} {box : NodeBox} {point : Offset} {port : PwPort} :
    box.dotAt distance point port = true ↔ ∃ c, box.portCenter port.id = some c ∧ distance c point ≤ 8 := by
  unfold NodeBox.dotAt
  cases box.portCenter port.id <;> simp

/-- The ports of a box in the order in which they are tried. -/
def hits (box : NodeBox) : List PortHit :=
  (box.inputs.map fun p => ⟨box, p, false⟩) ++ box.outputs.map fun p => ⟨box, p, true⟩

theorem mem_hits {box : NodeBox} {hit : PortHit} :
    hit ∈ hits box ↔ hit.box = box ∧ hit.port ∈ side box hit.isOutput := by
  obtain ⟨own, port, isOutput⟩ := hit
  cases isOutput <;> simp [hits, side, eq_comm, and_comm]

theorem portAt_eq_find? (distance : Offset → Offset → WithTop ℚ) (layout : GraphLayout) (point : Offset) :
    layout.portAt distance point =
      (layout.boxes.values.flatMap hits).find? fun hit => hit.box.dotAt distance point hit.port := by
  rw [List.find?_flatMap, portAt]
  congr 1
  funext box
  rw [hits, List.find?_append, List.find?_map, List.find?_map]
  rfl

/-- A dot is on its edge, well below the top and not below the bottom. -/
theorem dot_bounds {g : PwGraph} {colIdx : Nat} {node : PwNode} {y : ℚ} {isOutput : Bool} {row : Nat}
    (bound : row < (side (boxFor g colIdx node y) isOutput).length) :
    (boxFor g colIdx node y).rect.left ≤ (dot (boxFor g colIdx node y) isOutput row).x ∧
      (dot (boxFor g colIdx node y) isOutput row).x ≤ (boxFor g colIdx node y).rect.right ∧
      (boxFor g colIdx node y).rect.top + 45 ≤ (dot (boxFor g colIdx node y) isOutput row).y ∧
      (dot (boxFor g colIdx node y) isOutput row).y ≤ (boxFor g colIdx node y).rect.bottom := by
  have tall := height_sizeFor (boxFor g colIdx node y).inputs.length (boxFor g colIdx node y).outputs.length
  have rows : (row : ℚ) + 1 ≤ (side (boxFor g colIdx node y) isOutput).length := by exact_mod_cast bound
  have low : (0 : ℚ) ≤ row := Nat.cast_nonneg row
  have bottom : 42 + 22 * ((side (boxFor g colIdx node y) isOutput).length : ℚ) ≤ (boxFor g colIdx node y).size.height := by
    cases isOutput with
    | false => exact tall.1
    | true => exact tall.2
  have height : (dot (boxFor g colIdx node y) isOutput row).y = y + (28 + 22 * (row + 1 / 2) + 6) := rfl
  have left : (dot (boxFor g colIdx node y) isOutput row).x =
      40 + colIdx * colW + if isOutput then 200 else 0 := rfl
  have edges : (boxFor g colIdx node y).rect.left = 40 + colIdx * colW ∧
      (boxFor g colIdx node y).rect.right = 40 + colIdx * colW + 200 ∧ (boxFor g colIdx node y).rect.top = y ∧
      (boxFor g colIdx node y).rect.bottom = y + (boxFor g colIdx node y).size.height := ⟨rfl, rfl, rfl, rfl⟩
  obtain ⟨hleft, hright, htop, hbottom⟩ := edges
  rw [height, left, hleft, hright, htop, hbottom]
  refine ⟨?_, ?_, ?_, ?_⟩
  · cases isOutput <;> simp
  · cases isOutput <;> simp
  · linarith
  · linarith

section Hits

variable {toLowerCase : Text → Text} {sort : List PwNode → List PwNode} {distance : Offset → Offset → WithTop ℚ}
  {g : PwGraph} {filter : Text}

/-- A port of a box has a row, and its dot is in that row. -/
theorem center_of_side (sorts : SortsByName sort) (keyed : g.Keyed) {box : NodeBox}
    (listed : box ∈ allBoxes toLowerCase sort g filter) {isOutput : Bool} {port : PwPort}
    (mem : port ∈ side box isOutput) :
    ∃ row, (side box isOutput)[row]? = some port ∧ box.portCenter port.id = some (dot box isOutput row) ∧
      box.rect.left ≤ (dot box isOutput row).x ∧ (dot box isOutput row).x ≤ box.rect.right ∧
      box.rect.top + 45 ≤ (dot box isOutput row).y ∧ (dot box isOutput row).y ≤ box.rect.bottom := by
  obtain ⟨row, bound, here⟩ := List.mem_iff_getElem.mp mem
  have placed : (side box isOutput)[row]? = some port := List.getElem?_eq_some_iff.mpr ⟨bound, here⟩
  obtain ⟨y, _, shape⟩ := (mem_allBoxes sorts listed).2
  have distinct := distinct_ports keyed (columnOf toLowerCase box.node) box.node y
  have inside : row < (side (boxFor g (columnOf toLowerCase box.node) box.node y) isOutput).length := shape ▸ bound
  have bounds := dot_bounds inside
  rw [← shape] at distinct bounds
  exact ⟨row, placed, portCenter_side distinct placed, bounds⟩

/-- Two rows of one edge are far apart, and so are the edges of a box. -/
theorem row_unique {box : NodeBox} (wide : box.size.width = 200) {isOutput isOutput' : Bool} {row row' : Nat}
    {point : Offset} (near : (dot box isOutput row).Near 9 point) (near' : (dot box isOutput' row').Near 9 point) :
    isOutput = isOutput' ∧ row = row' := by
  obtain ⟨x, y⟩ := near.close near'
  rw [abs_lt] at x y
  simp only [dot, wide, NodeMetrics.headerH, NodeMetrics.portRowH, NodeMetrics.padTop] at x y
  constructor
  · cases isOutput <;> cases isOutput'
    · rfl
    · norm_num at x
    · norm_num at x
    · rfl
  · rcases Nat.lt_trichotomy row row' with less | same | more
    · have step : (row : ℚ) + 1 ≤ row' := by exact_mod_cast less
      linarith
    · exact same
    · have step : (row' : ℚ) + 1 ≤ row := by exact_mod_cast more
      linarith

/-- Nor is there a point near the rows of two boxes. -/
theorem Precedes.far {a b : NodeBox} (order : Precedes a b) {p q point : Offset} (near : p.Near 9 point)
    (near' : q.Near 9 point) (hp : p.x ≤ a.rect.right ∧ p.y ≤ a.rect.bottom)
    (hq : b.rect.left ≤ q.x ∧ b.rect.top + 45 ≤ q.y) : False := by
  obtain ⟨x, y⟩ := near.close near'
  rw [abs_lt] at x y
  rcases order with ⟨_, below, _⟩ | right
  · have room := rowH_nonneg
    linarith
  · linarith

/-- Whatever the rounding, what is within reach is less than 9 away. -/
theorem MeasuresDistance.near (measures : MeasuresDistance distance) {p q : Offset} (reach : distance p q ≤ 8) :
    p.Near 9 q := by
  have short : ¬(((9 : Nat) : ℚ) : WithTop ℚ) ≤ distance p q := fun far =>
    absurd (WithTop.coe_le_coe.mp (far.trans reach)) (by norm_num)
  by_contra apart
  rw [Point.Near, not_and_or, not_lt, not_lt] at apart
  exact short (measures.far p q 9 (by norm_num) (by exact_mod_cast apart))

/-- No two dots are within reach of one point. -/
theorem hit_unique (measures : MeasuresDistance distance) (sorts : SortsByName sort) (keyed : g.Keyed)
    {point : Offset} {hit hit' : PortHit}
    (mem : hit ∈ (allBoxes toLowerCase sort g filter).flatMap hits)
    (mem' : hit' ∈ (allBoxes toLowerCase sort g filter).flatMap hits)
    (near : hit.box.dotAt distance point hit.port = true) (near' : hit'.box.dotAt distance point hit'.port = true) :
    hit = hit' := by
  obtain ⟨box, port, isOutput⟩ := hit
  obtain ⟨box', port', isOutput'⟩ := hit'
  obtain ⟨_, listed, own⟩ := List.mem_flatMap.mp mem
  obtain ⟨rfl, port_mem⟩ := mem_hits.mp own
  obtain ⟨_, listed', own'⟩ := List.mem_flatMap.mp mem'
  obtain ⟨rfl, port_mem'⟩ := mem_hits.mp own'
  obtain ⟨row, here, center, left, right, top, bottom⟩ := center_of_side sorts keyed listed port_mem
  obtain ⟨row', here', center', left', right', top', bottom'⟩ := center_of_side sorts keyed listed' port_mem'
  obtain ⟨c, found, close⟩ := dotAt_iff.mp near
  obtain ⟨c', found', close'⟩ := dotAt_iff.mp near'
  cases center.symm.trans found
  cases center'.symm.trans found'
  have close := measures.near close
  have close' := measures.near close'
  by_cases same : box = box'
  · subst same
    obtain ⟨y, _, shape⟩ := (mem_allBoxes sorts listed).2
    have wide : box.size.width = 200 := congrArg (fun b => b.size.width) shape
    obtain ⟨rfl, rfl⟩ := row_unique wide close close'
    cases here.symm.trans here'
    rfl
  · rcases ordered_of_ne sorts listed listed' same with order | order
    · exact (order.far close close' ⟨right, bottom⟩ ⟨left', top'⟩).elim
    · exact (order.far close' close ⟨right', bottom'⟩ ⟨left, top⟩).elim

/-- A port is found at a point exactly where its dot is near. -/
theorem portAt_iff (measures : MeasuresDistance distance) (sorts : SortsByName sort) (keyed : g.Keyed) {point : Offset}
    {hit : PortHit} : (compute toLowerCase sort g filter).portAt distance point = some hit ↔
      (compute toLowerCase sort g filter).boxes.lookup hit.box.node.id = some hit.box ∧
        hit.port ∈ side hit.box hit.isOutput ∧
        ∃ c, hit.box.portCenter hit.port.id = some c ∧ distance c point ≤ 8 := by
  rw [portAt_eq_find?, values_compute sorts keyed, lookup_compute sorts keyed, find?_iff_of_unique
    fun hit mem hit' mem' near near' => hit_unique measures sorts keyed mem mem' near near', dotAt_iff, List.mem_flatMap]
  simp only [mem_hits]
  constructor
  · rintro ⟨⟨_, listed, rfl, port⟩, near⟩
    exact ⟨⟨listed, trivial⟩, port, near⟩
  · rintro ⟨⟨listed, _⟩, port, near⟩
    exact ⟨⟨hit.box, listed, rfl, port⟩, near⟩

/-- A node is found at a point exactly where its box is. -/
theorem nodeAt_iff (sorts : SortsByName sort) (keyed : g.Keyed) {point : Offset} {box : NodeBox} :
    (compute toLowerCase sort g filter).nodeAt point = some box ↔
      (compute toLowerCase sort g filter).boxes.lookup box.node.id = some box ∧ box.rect.Contains point := by
  rw [nodeAt, values_compute sorts keyed, lookup_compute sorts keyed, find?_iff_of_unique, decide_eq_true_iff]
  · exact ⟨fun h => ⟨⟨h.1, rfl⟩, h.2⟩, fun h => ⟨h.1.1, h.2⟩⟩
  · intro a ha b hb inside inside'
    by_contra other
    exact (apart_of_ne sorts ha hb other).not_contains (of_decide_eq_true inside) (of_decide_eq_true inside')

/-- A port of the graph is listed in the box of its node, on the side of its direction. -/
theorem mem_side (sorts : SortsByName sort) (keyed : g.Keyed) {box : NodeBox}
    (listed : box ∈ allBoxes toLowerCase sort g filter) {port : PwPort} (here : g.ports.lookup port.id = some port)
    (own : port.nodeId = box.node.id) : port ∈ side box (decide (port.direction = .output)) := by
  have drawn := drawn_of_mem sorts keyed listed
  have among : port ∈ g.ports.values := keyed.ports.mem_values.mpr here
  cases direction : port.direction with
  | input =>
    rw [side, if_neg (by simp), drawn.inputs]
    exact List.mem_filter.mpr ⟨among, by simp [own, direction]⟩
  | output =>
    rw [side, if_pos (by simp), drawn.outputs]
    exact List.mem_filter.mpr ⟨among, by simp [own, direction]⟩

/-- The dots of the ports of a box are on its edges, inputs on the left and outputs on the right, one row below the
other. -/
def DotsOnEdges (box : NodeBox) : Prop :=
  (∀ (row : Nat) port, box.inputs[row]? = some port →
    box.portCenter port.id = some ⟨box.rect.left, box.rect.top + 45 + 22 * row⟩ ∧ 45 + 22 * row + 8 ≤ box.rect.height) ∧
  ∀ (row : Nat) port, box.outputs[row]? = some port →
    box.portCenter port.id = some ⟨box.rect.right, box.rect.top + 45 + 22 * row⟩ ∧ 45 + 22 * row + 8 ≤ box.rect.height

theorem dot_eq (box : NodeBox) (isOutput : Bool) (row : Nat) :
    dot box isOutput row = ⟨if isOutput then box.rect.right else box.rect.left, box.rect.top + 45 + 22 * row⟩ := by
  unfold dot NodeMetrics.headerH NodeMetrics.portRowH NodeMetrics.padTop
  congr 1
  · cases isOutput
    · exact add_zero _
    · rfl
  · change box.position.y + _ = box.position.y + 45 + 22 * (row : ℚ)
    ring

theorem dotsOnEdges_of_mem (sorts : SortsByName sort) (keyed : g.Keyed) {box : NodeBox}
    (listed : box ∈ allBoxes toLowerCase sort g filter) : DotsOnEdges box := by
  obtain ⟨y, _, shape⟩ := (mem_allBoxes sorts listed).2
  have distinct := distinct_ports keyed (columnOf toLowerCase box.node) box.node y
  rw [← shape] at distinct
  have tall : box.rect.height = _ := (drawn_of_mem sorts keyed listed).height
  have room {ports : List PwPort} (few : ports.length ≤ max box.inputs.length box.outputs.length) {row : Nat}
      {port : PwPort} (here : ports[row]? = some port) : 45 + 22 * (row : ℚ) + 8 ≤ box.rect.height := by
    have bound : row + 1 ≤ max box.inputs.length box.outputs.length :=
      (List.getElem?_eq_some_iff.mp here).1.trans_le few
    have rows : (row : ℚ) + 1 ≤ (max box.inputs.length box.outputs.length : Nat) := by exact_mod_cast bound
    rw [tall]
    refine le_trans ?_ (le_max_right _ _)
    linarith
  constructor
  · intro row port here
    have center := portCenter_side distinct (show (side box false)[row]? = some port from here)
    exact ⟨center.trans (congrArg some (dot_eq box false row)), room (le_max_left _ _) here⟩
  · intro row port here
    have center := portCenter_side distinct (show (side box true)[row]? = some port from here)
    exact ⟨center.trans (congrArg some (dot_eq box true row)), room (le_max_right _ _) here⟩

/-- A port is found at a point exactly where its dot is near, a node exactly where its box is; and every port of a
node that has a box is found at the middle of its dot. -/
theorem portAt_exact (measures : MeasuresDistance distance) (sorts : SortsByName sort) (reached : g.Reachable)
    (filter : Text) :
    (∀ point hit, (compute toLowerCase sort g filter).portAt distance point = some hit ↔
      (compute toLowerCase sort g filter).boxes.lookup hit.box.node.id = some hit.box ∧
        hit.port ∈ (if hit.isOutput then hit.box.outputs else hit.box.inputs) ∧
        ∃ c, hit.box.portCenter hit.port.id = some c ∧ distance c point ≤ 8) ∧
    (∀ point box, (compute toLowerCase sort g filter).nodeAt point = some box ↔
      (compute toLowerCase sort g filter).boxes.lookup box.node.id = some box ∧ box.rect.Contains point) ∧
    ∀ id box, (compute toLowerCase sort g filter).boxes.lookup id = some box → DotsOnEdges box ∧
      ∀ portId port, g.ports.lookup portId = some port → port.nodeId = id →
        ∃ c, box.portCenter portId = some c ∧
          (compute toLowerCase sort g filter).portAt distance c =
            some ⟨box, port, decide (port.direction = .output)⟩ := by
  have keyed := PwGraph.keyed_of_reachable reached
  refine ⟨fun point hit => portAt_iff measures sorts keyed, fun point box => nodeAt_iff sorts keyed,
    fun id box found => ⟨?_, fun portId port here own => ?_⟩⟩
  · obtain ⟨listed, _⟩ := (lookup_compute sorts keyed).mp found
    exact dotsOnEdges_of_mem sorts keyed listed
  · have ownPort : port.id = portId := keyed.ports _ _ here
    subst ownPort
    obtain ⟨listed, ownNode⟩ := (lookup_compute sorts keyed).mp found
    have mem := mem_side sorts keyed listed here (own.trans ownNode.symm)
    obtain ⟨row, _, center, _⟩ := center_of_side sorts keyed listed mem
    refine ⟨_, center, (portAt_iff measures sorts keyed).mpr ⟨ownNode ▸ found, mem, _, center, ?_⟩⟩
    rw [measures.self]
    decide

/-- The distance, rounded down to a multiple of `2⁻⁴⁹`. -/
def distanceDown (p q : Offset) : WithTop ℚ :=
  ((Nat.sqrt ⌊((p.x - q.x) ^ 2 + (p.y - q.y) ^ 2) * 2 ^ 98⌋₊ / 2 ^ 49 : ℚ) : WithTop ℚ)

theorem distanceDown_of_sq {p q : Offset} {n : Nat} (square : (p.x - q.x) ^ 2 + (p.y - q.y) ^ 2 = (n : ℚ) ^ 2) :
    distanceDown p q = ((n : ℚ) : WithTop ℚ) := by
  have whole : (n : ℚ) ^ 2 * 2 ^ 98 = (((n * 2 ^ 49) ^ 2 : Nat) : ℚ) := by
    push_cast
    ring
  rw [distanceDown, square, whole, Nat.floor_natCast, Nat.sqrt_eq']
  rw [Nat.cast_mul, Nat.cast_pow, Nat.cast_ofNat, mul_div_cancel_right₀ _ (by positivity)]

theorem measuresDistance_distanceDown : MeasuresDistance distanceDown where
  self p := by
    have none : (p.x - p.x) ^ 2 + (p.y - p.y) ^ 2 = ((0 : Nat) : ℚ) ^ 2 := by simp
    exact (distanceDown_of_sq none).trans (by simp)
  far p q n _ apart := by
    have square : (n : ℚ) ^ 2 ≤ (p.x - q.x) ^ 2 + (p.y - q.y) ^ 2 := by
      have positive : (0 : ℚ) ≤ n := Nat.cast_nonneg n
      rcases apart with x | y
      · have wide := (sq_abs (p.x - q.x)) ▸ pow_le_pow_left₀ positive x 2
        linarith [sq_nonneg (p.y - q.y)]
      · have high := (sq_abs (p.y - q.y)) ▸ pow_le_pow_left₀ positive y 2
        linarith [sq_nonneg (p.x - q.x)]
    have whole : (n : ℚ) ^ 2 * 2 ^ 98 = (((n * 2 ^ 49) ^ 2 : Nat) : ℚ) := by
      push_cast
      ring
    have floor : (n * 2 ^ 49) ^ 2 ≤ ⌊((p.x - q.x) ^ 2 + (p.y - q.y) ^ 2) * 2 ^ 98⌋₊ := by
      rw [Nat.le_floor_iff (by positivity), ← whole]
      exact mul_le_mul_of_nonneg_right square (by positivity)
    have root : ((n * 2 ^ 49 : Nat) : ℚ) ≤
        (Nat.sqrt ⌊((p.x - q.x) ^ 2 + (p.y - q.y) ^ 2) * 2 ^ 98⌋₊ : ℚ) := by
      exact_mod_cast Nat.le_sqrt'.mpr floor
    refine WithTop.coe_le_coe.mpr ((le_div_iff₀ (by positivity)).mpr ?_)
    exact_mod_cast root

/-- The port is found three to the right of its dot and four below. -/
theorem portAt_exact_micGraph : ∃ hit : PortHit, hit.port.id = 9 ∧
    (compute id sortByName micGraph []).portAt distanceDown ⟨243, 173⟩ = some hit := by
  obtain ⟨found, _, _⟩ :=
    @portAt_exact id _ _ _ measuresDistance_distanceDown sortsByName_sortByName reachable_micGraph []
  have shape : ((compute id sortByName micGraph []).boxes.lookup 7).map (fun box =>
      (box.node.id, box.outputs.map PwPort.id, box.portCenter 9)) = some (7, [9], some ⟨240, 169⟩) := by
    decide +kernel
  obtain ⟨box, here, shape⟩ := Option.map_eq_some_iff.mp shape
  obtain ⟨own, ports, center⟩ : box.node.id = 7 ∧ _ ∧ _ := by simpa only [Prod.mk.injEq] using shape
  obtain ⟨port, mem, same⟩ := List.mem_map.mp (ports ▸ List.mem_singleton_self 9)
  refine ⟨⟨box, port, true⟩, same, (found ⟨243, 173⟩ _).mpr ⟨own ▸ here, mem, ⟨240, 169⟩, same ▸ center, ?_⟩⟩
  have five : ((240 : ℚ) - 243) ^ 2 + (169 - 173) ^ 2 = ((5 : Nat) : ℚ) ^ 2 := by norm_num
  rw [distanceDown_of_sq five]
  exact WithTop.coe_le_coe.mpr (by norm_num)

end Hits

end GraphLayout

end PwDart
