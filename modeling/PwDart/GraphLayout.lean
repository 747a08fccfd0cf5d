import PwDart.GraphQueries
import PwDart.KeyedCollect
import PwDart.PlaneBoxes

namespace PwDart

open Json LinkedMap PlaneBoxes

/-- The doubles of the layout stand for the numbers they are. -/
abbrev Offset : Type := Point ℚ

abbrev Rect : Type := Box ℚ

structure Size where
  width : ℚ
  height : ℚ
deriving DecidableEq

structure NodeBox where
  node : PwNode
  inputs : List PwPort
  outputs : List PwPort
  position : Offset
  size : Size
deriving DecidableEq

namespace NodeMetrics

def width : ℚ := 200

def headerH : ℚ := 28

def portRowH : ℚ := 22

def padTop : ℚ := 6

def padBot : ℚ := 8

def minHeight : ℚ := 60

def sizeFor (inputs outputs : Nat) : Size :=
  let rows : Nat := max inputs outputs
  let h := headerH + padTop + padBot + rows * portRowH
  ⟨width, max minHeight h⟩

end NodeMetrics

namespace NodeBox

def rect (box : NodeBox) : Rect := ⟨box.position.x, box.position.y, box.size.width, box.size.height⟩

/-- Inputs are on the left edge, and an id that both lists have is taken for an input. -/
def portCenter (box : NodeBox) (portId : Int) : Option Offset :=
  let isInput := box.inputs.any fun p => p.id = portId
  let list := if isInput then box.inputs else box.outputs
  (list.findIdx? fun p => p.id = portId).map fun (idx : Nat) =>
    ⟨box.position.x + if isInput then 0 else box.size.width,
      box.position.y + (NodeMetrics.headerH + NodeMetrics.portRowH * (idx + 1 / 2) + NodeMetrics.padTop)⟩

/-- Whether the dot of the port is at the point. `distance` is that of `dart:ui`, rounded as it is and `⊤` where
the squares overflow. -/
def dotAt (distance : Offset → Offset → WithTop ℚ) (box : NodeBox) (point : Offset) (port : PwPort) : Bool :=
  match box.portCenter port.id with
  | some c => decide (distance c point ≤ 8)
  | none => false

end NodeBox

/-- The record that `portAt` returns. -/
structure PortHit where
  box : NodeBox
  port : PwPort
  isOutput : Bool
deriving DecidableEq

structure GraphLayout where
  boxes : LinkedMap Int NodeBox
  canvasSize : Size

namespace GraphLayout

def colW : ℚ := 280

def rowH : ℚ := 24

def topPad : ℚ := 40

section Compute

variable (toLowerCase : Text → Text) (sort : List PwNode → List PwNode) (g : PwGraph)

/-- The nodes that the filter leaves. -/
def shown (filter : Text) (n : PwNode) : Bool :=
  filter.isEmpty || decide (filter <:+: toLowerCase n.name) || decide (filter <:+: toLowerCase n.mediaClass)

def columnOf (n : PwNode) : Nat :=
  let cls := toLowerCase n.mediaClass
  if utf16 "stream/" <+: cls then 1
  else if utf16 "source" <:+: cls then 0
  else if utf16 "sink" <:+: cls then 2
  else 1

def boxFor (colIdx : Nat) (node : PwNode) (y : ℚ) : NodeBox :=
  let ports := g.portsForNode node.id
  let inputs := ports.filter fun p => p.direction = .input
  let outputs := ports.filter fun p => p.direction = .output
  ⟨node, inputs, outputs, ⟨40 + colIdx * colW, y⟩, NodeMetrics.sizeFor inputs.length outputs.length⟩

/-- The body of `cols.forEach`. -/
def placeColumn (boxes : LinkedMap Int NodeBox) (colIdx : Nat) (list : List PwNode) : LinkedMap Int NodeBox :=
  ((sort list).foldl (fun (boxes, y) node =>
    let box := boxFor g colIdx node y
    (boxes.put node.id box, y + (box.size.height + rowH))) (boxes, topPad)).1

/-- `maxX` and `maxY` after one box more. -/
def extend (extent : Size) (b : NodeBox) : Size :=
  ⟨if b.rect.right > extent.width then b.rect.right else extent.width,
    if b.rect.bottom > extent.height then b.rect.bottom else extent.height⟩

/-- `sort` is `List.sort` by the names, which need not be stable. -/
def compute (filter : Text) : GraphLayout :=
  let visible := g.nodes.values.filter (shown toLowerCase filter)
  let col (colIdx : Nat) := visible.filter fun n => columnOf toLowerCase n = colIdx
  let boxes := placeColumn sort g (placeColumn sort g (placeColumn sort g ∅ 0 (col 0)) 1 (col 1)) 2 (col 2)
  let extent := boxes.values.foldl extend ⟨1200, 800⟩
  ⟨boxes, ⟨extent.width + 80, extent.height + 80⟩⟩

end Compute

def nodeAt (layout : GraphLayout) (graphPoint : Offset) : Option NodeBox :=
  layout.boxes.values.find? fun box => decide (box.rect.Contains graphPoint)

def portAt (distance : Offset → Offset → WithTop ℚ) (layout : GraphLayout) (graphPoint : Offset) : Option PortHit :=
  layout.boxes.values.findSome? fun box =>
    ((box.inputs.find? (box.dotAt distance graphPoint)).map fun inp => ⟨box, inp, false⟩).or
      ((box.outputs.find? (box.dotAt distance graphPoint)).map fun out => ⟨box, out, true⟩)

/-- The order that `compareTo` has, by code units. -/
def NameLe (a b : PwNode) : Prop := a.name.map UInt16.toNat ≤ b.name.map UInt16.toNat

/-- What is relied on of `List.sort`. -/
def SortsByName (sort : List PwNode → List PwNode) : Prop :=
  ∀ nodes, (sort nodes).Perm nodes ∧ (sort nodes).Pairwise NameLe

section Columns

variable (sort : List PwNode → List PwNode) (g : PwGraph)

def heightOf (node : PwNode) : ℚ := (boxFor g 0 node 0).size.height

/-- The boxes of a column. -/
def placed (colIdx : Nat) (list : List PwNode) : List NodeBox :=
  (stack (heightOf g) rowH topPad (sort list)).map fun placed => boxFor g colIdx placed.1 placed.2

theorem placeColumn_eq (boxes : LinkedMap Int NodeBox) (colIdx : Nat) (list : List PwNode) :
    placeColumn sort g boxes colIdx list =
      (placed sort g colIdx list).foldl (fun m box => m.put box.node.id box) boxes := by
  rw [placeColumn, placed]
  generalize sort list = nodes
  generalize topPad = y
  induction nodes generalizing boxes y with
  | nil => rfl
  | cons node nodes ih => exact ih (boxes.put node.id (boxFor g colIdx node y)) (y + (heightOf g node + rowH))

theorem map_node_placed (colIdx : Nat) (list : List PwNode) :
    (placed sort g colIdx list).map NodeBox.node = sort list := by
  rw [placed, List.map_map]
  exact map_fst_stack (heightOf g) rowH topPad (sort list)

end Columns

section Boxes

variable (toLowerCase : Text → Text) (sort : List PwNode → List PwNode) (g : PwGraph) (filter : Text)

def visible : List PwNode := g.nodes.values.filter (shown toLowerCase filter)

def column (colIdx : Nat) : List PwNode :=
  (visible toLowerCase g filter).filter fun n => columnOf toLowerCase n = colIdx

/-- All boxes, column by column. -/
def allBoxes : List NodeBox :=
  placed sort g 0 (column toLowerCase g filter 0) ++ placed sort g 1 (column toLowerCase g filter 1) ++
    placed sort g 2 (column toLowerCase g filter 2)

theorem boxes_compute :
    (compute toLowerCase sort g filter).boxes = collected (fun box => box.node.id) (allBoxes toLowerCase sort g filter) := by
  rw [collected, ofEntries, List.foldl_map, allBoxes, List.foldl_append, List.foldl_append, ← placeColumn_eq,
    ← placeColumn_eq, ← placeColumn_eq]
  rfl

theorem columnOf_lt (n : PwNode) : columnOf toLowerCase n < 3 := by
  unfold columnOf
  dsimp only
  split_ifs <;> decide

/-- The three columns have every node once. -/
theorem columns_perm (nodes : List PwNode) {f : PwNode → Nat} (lt : ∀ n, f n < 3) :
    (nodes.filter (fun n => f n = 0) ++ nodes.filter (fun n => f n = 1) ++ nodes.filter (fun n => f n = 2)).Perm
      nodes := by
  induction nodes with
  | nil => exact .nil
  | cons node nodes ih =>
    have three : f node = 0 ∨ f node = 1 ∨ f node = 2 := by
      have small := lt node
      omega
    rcases three with h | h | h
    · simpa [h] using ih
    · have moved := @List.perm_middle _ node (nodes.filter fun n => f n = 0) (nodes.filter fun n => f n = 1)
      simpa [h] using (moved.append_right (nodes.filter fun n => f n = 2)).trans (ih.cons node)
    · have moved := @List.perm_middle _ node (nodes.filter (fun n => f n = 0) ++ nodes.filter fun n => f n = 1)
        (nodes.filter fun n => f n = 2)
      simpa [h] using moved.trans (ih.cons node)

variable {sort} in
theorem map_node_allBoxes (sorts : SortsByName sort) :
    ((allBoxes toLowerCase sort g filter).map NodeBox.node).Perm (visible toLowerCase g filter) := by
  rw [allBoxes, List.map_append, List.map_append, map_node_placed, map_node_placed, map_node_placed]
  have columns := columns_perm (visible toLowerCase g filter) (columnOf_lt toLowerCase)
  exact (((sorts _).1.append (sorts _).1).append (sorts _).1).trans columns

variable {sort g} in
theorem nodup_allBoxes (sorts : SortsByName sort) (keyed : g.Keyed) :
    ((allBoxes toLowerCase sort g filter).map fun box => box.node.id).Nodup := by
  have ids := (map_node_allBoxes toLowerCase g filter sorts).map PwNode.id
  rw [List.map_map] at ids
  have part : (visible toLowerCase g filter).Sublist g.nodes.values := List.filter_sublist
  exact ids.nodup_iff.mpr (keyed.nodes.nodup_values.sublist (part.map PwNode.id))

end Boxes

/-- The other box is below in the same column and does not come first by its name, or it is in a later column. -/
def Precedes (a b : NodeBox) : Prop :=
  a.rect.left = b.rect.left ∧ a.rect.bottom + rowH ≤ b.rect.top ∧ NameLe a.node b.node ∨
    a.rect.right + 80 ≤ b.rect.left

theorem Precedes.apart {a b : NodeBox} (h : Precedes a b) : a.rect.Apart b.rect := by
  rcases h with ⟨_, below, _⟩ | right
  · refine .inr (.inr (.inl ?_))
    unfold rowH at below
    linarith
  · refine .inl ?_
    linarith

theorem height_sizeFor (inputs outputs : Nat) : 42 + 22 * (inputs : ℚ) ≤ (NodeMetrics.sizeFor inputs outputs).height ∧
    42 + 22 * (outputs : ℚ) ≤ (NodeMetrics.sizeFor inputs outputs).height := by
  have rows : (inputs : ℚ) ≤ (max inputs outputs : Nat) ∧ (outputs : ℚ) ≤ (max inputs outputs : Nat) :=
    ⟨by exact_mod_cast le_max_left inputs outputs, by exact_mod_cast le_max_right inputs outputs⟩
  have tall : 42 + 22 * ((max inputs outputs : Nat) : ℚ) ≤ (NodeMetrics.sizeFor inputs outputs).height := by
    refine le_trans (le_of_eq ?_) (le_max_right _ _)
    unfold NodeMetrics.headerH NodeMetrics.padTop NodeMetrics.padBot NodeMetrics.portRowH
    ring
  constructor
  · linarith [rows.1]
  · linarith [rows.2]

theorem rowH_nonneg : 0 ≤ rowH := by
  unfold rowH
  norm_num

section Places

variable {toLowerCase : Text → Text} {sort : List PwNode → List PwNode} {g : PwGraph} {filter : Text}

theorem heightOf_nonneg (g : PwGraph) (node : PwNode) : 0 ≤ heightOf g node := by
  have tall := (height_sizeFor (boxFor g 0 node 0).inputs.length (boxFor g 0 node 0).outputs.length).1
  have count : (0 : ℚ) ≤ (boxFor g 0 node 0).inputs.length := Nat.cast_nonneg _
  change 42 + 22 * _ ≤ heightOf g node at tall
  linarith

theorem mem_placed (sorts : SortsByName sort) {colIdx : Nat} {list : List PwNode} {box : NodeBox}
    (mem : box ∈ placed sort g colIdx list) : ∃ node ∈ list, ∃ y, 40 ≤ y ∧ box = boxFor g colIdx node y := by
  obtain ⟨⟨node, y⟩, placed, rfl⟩ := List.mem_map.mp mem
  have listed : node ∈ (stack (heightOf g) rowH topPad (sort list)).map Prod.fst := List.mem_map.mpr ⟨_, placed, rfl⟩
  rw [map_fst_stack] at listed
  have low := le_of_mem_stack rowH_nonneg (heightOf_nonneg g) placed
  exact ⟨node, (sorts list).1.mem_iff.mp listed, y, low, rfl⟩

theorem mem_column {colIdx : Nat} {node : PwNode} :
    node ∈ column toLowerCase g filter colIdx ↔ node ∈ visible toLowerCase g filter ∧ columnOf toLowerCase node = colIdx := by
  rw [column, List.mem_filter, decide_eq_true_iff]

theorem mem_allBoxes_iff {box : NodeBox} : box ∈ allBoxes toLowerCase sort g filter ↔
    ∃ colIdx < 3, box ∈ placed sort g colIdx (column toLowerCase g filter colIdx) := by
  rw [allBoxes, List.mem_append, List.mem_append]
  constructor
  · rintro ((mem | mem) | mem)
    · exact ⟨0, by decide, mem⟩
    · exact ⟨1, by decide, mem⟩
    · exact ⟨2, by decide, mem⟩
  · rintro ⟨colIdx, small, mem⟩
    interval_cases colIdx
    · exact .inl (.inl mem)
    · exact .inl (.inr mem)
    · exact .inr mem

theorem mem_allBoxes (sorts : SortsByName sort) {box : NodeBox} (mem : box ∈ allBoxes toLowerCase sort g filter) :
    box.node ∈ visible toLowerCase g filter ∧
      ∃ y, 40 ≤ y ∧ box = boxFor g (columnOf toLowerCase box.node) box.node y := by
  obtain ⟨colIdx, _, mem⟩ := mem_allBoxes_iff.mp mem
  obtain ⟨node, listed, y, low, rfl⟩ := mem_placed sorts mem
  obtain ⟨seen, rfl⟩ := mem_column.mp listed
  exact ⟨seen, y, low, rfl⟩

/-- A box is at the top of its column or right below another one. -/
theorem top_of_mem {box : NodeBox} (mem : box ∈ allBoxes toLowerCase sort g filter) : box.rect.top = 40 ∨
    ∃ above ∈ allBoxes toLowerCase sort g filter,
      above.rect.left = box.rect.left ∧ above.rect.bottom + 24 = box.rect.top := by
  obtain ⟨colIdx, small, mem⟩ := mem_allBoxes_iff.mp mem
  obtain ⟨placed, here, rfl⟩ := List.mem_map.mp mem
  rcases top_of_mem_stack here with top | ⟨upper, there, below⟩
  · exact .inl top
  · right
    refine ⟨boxFor g colIdx upper.1 upper.2, mem_allBoxes_iff.mpr ⟨colIdx, small, List.mem_map.mpr ⟨upper, there, rfl⟩⟩,
      rfl, ?_⟩
    change upper.2 + heightOf g upper.1 + 24 = placed.2
    rw [below, rowH, add_assoc]

theorem placed_pairwise (sorts : SortsByName sort) (colIdx : Nat) (list : List PwNode) :
    (placed sort g colIdx list).Pairwise Precedes := by
  have below := stack_pairwise rowH_nonneg (heightOf_nonneg g) topPad (sort list)
  have names : ((stack (heightOf g) rowH topPad (sort list)).map Prod.fst).Pairwise NameLe := by
    rw [map_fst_stack]
    exact (sorts list).2
  rw [placed, List.pairwise_map]
  refine (below.and (List.pairwise_map.mp names)).imp fun both => ?_
  exact .inl ⟨rfl, both.1, both.2⟩

theorem precedes_of_columns (sorts : SortsByName sort) {colIdx colIdx' : Nat} (earlier : colIdx < colIdx')
    {list list' : List PwNode} {a b : NodeBox} (ha : a ∈ placed sort g colIdx list)
    (hb : b ∈ placed sort g colIdx' list') : Precedes a b := by
  obtain ⟨node, _, y, _, rfl⟩ := mem_placed sorts ha
  obtain ⟨node', _, y', _, rfl⟩ := mem_placed sorts hb
  have columns : (colIdx : ℚ) + 1 ≤ colIdx' := by exact_mod_cast earlier
  refine .inr ?_
  change 40 + (colIdx : ℚ) * 280 + 200 + 80 ≤ 40 + (colIdx' : ℚ) * 280
  linarith

theorem allBoxes_pairwise (sorts : SortsByName sort) : (allBoxes toLowerCase sort g filter).Pairwise Precedes := by
  refine List.pairwise_append.mpr ⟨List.pairwise_append.mpr ⟨placed_pairwise sorts _ _, placed_pairwise sorts _ _,
    fun a ha b hb => precedes_of_columns sorts (by decide) ha hb⟩, placed_pairwise sorts _ _, fun a ha b hb => ?_⟩
  rcases List.mem_append.mp ha with ha | ha
  · exact precedes_of_columns sorts (by decide) ha hb
  · exact precedes_of_columns sorts (by decide) ha hb

end Places

section Drawing

variable {toLowerCase : Text → Text} {sort : List PwNode → List PwNode} {g : PwGraph} {filter : Text}

theorem ordered_of_ne (sorts : SortsByName sort) {a b : NodeBox} (ha : a ∈ allBoxes toLowerCase sort g filter)
    (hb : b ∈ allBoxes toLowerCase sort g filter) (other : a ≠ b) : Precedes a b ∨ Precedes b a := by
  have either : (allBoxes toLowerCase sort g filter).Pairwise fun a b => Precedes a b ∨ Precedes b a :=
    (allBoxes_pairwise sorts).imp Or.inl
  have symmetric : Std.Symm fun a b => Precedes a b ∨ Precedes b a := ⟨fun _ _ => Or.symm⟩
  exact either.forall ha hb other

theorem apart_of_ne (sorts : SortsByName sort) {a b : NodeBox} (ha : a ∈ allBoxes toLowerCase sort g filter)
    (hb : b ∈ allBoxes toLowerCase sort g filter) (other : a ≠ b) : a.rect.Apart b.rect :=
  (ordered_of_ne sorts ha hb other).elim Precedes.apart fun order => order.apart.symm

/-- Every box has the width of a node, and stands where the column of its class does. -/
theorem sides_of_mem (sorts : SortsByName sort) {box : NodeBox} (listed : box ∈ allBoxes toLowerCase sort g filter) :
    box.rect.left = 40 + (columnOf toLowerCase box.node : ℚ) * colW ∧ box.rect.right = box.rect.left + 200 := by
  obtain ⟨_, y, _, shape⟩ := mem_allBoxes sorts listed
  have left : box.rect.left = 40 + (columnOf toLowerCase box.node : ℚ) * colW := congrArg (fun b => b.rect.left) shape
  refine ⟨left, ?_⟩
  rw [left]
  exact congrArg (fun b => b.rect.right) shape

theorem mem_visible (keyed : g.Keyed) {node : PwNode} : node ∈ visible toLowerCase g filter ↔
    g.nodes.lookup node.id = some node ∧ shown toLowerCase filter node = true := by
  rw [visible, List.mem_filter, keyed.nodes.mem_values]

theorem values_compute (sorts : SortsByName sort) (keyed : g.Keyed) :
    (compute toLowerCase sort g filter).boxes.values = allBoxes toLowerCase sort g filter := by
  rw [boxes_compute, values_collected (nodup_allBoxes toLowerCase filter sorts keyed)]

theorem lookup_compute (sorts : SortsByName sort) (keyed : g.Keyed) {id : Int} {box : NodeBox} :
    (compute toLowerCase sort g filter).boxes.lookup id = some box ↔
      box ∈ allBoxes toLowerCase sort g filter ∧ box.node.id = id := by
  rw [boxes_compute, lookup_collected_iff (nodup_allBoxes toLowerCase filter sorts keyed)]

theorem exists_box (sorts : SortsByName sort) {node : PwNode} (seen : node ∈ visible toLowerCase g filter) :
    ∃ box ∈ allBoxes toLowerCase sort g filter, box.node = node :=
  List.mem_map.mp ((map_node_allBoxes toLowerCase g filter sorts).mem_iff.mpr seen)

theorem extend_bounds (extent : Size) (b : NodeBox) : extent.width ≤ (extend extent b).width ∧
    extent.height ≤ (extend extent b).height ∧ b.rect.right ≤ (extend extent b).width ∧
    b.rect.bottom ≤ (extend extent b).height := by
  unfold extend
  dsimp only
  refine ⟨?_, ?_, ?_, ?_⟩ <;> split_ifs with larger
  · exact larger.le
  · exact le_rfl
  · exact larger.le
  · exact le_rfl
  · exact le_rfl
  · exact not_lt.mp larger
  · exact le_rfl
  · exact not_lt.mp larger

theorem foldl_extend (extent : Size) (boxes : List NodeBox) :
    (extent.width ≤ (boxes.foldl extend extent).width ∧ extent.height ≤ (boxes.foldl extend extent).height) ∧
      ∀ b ∈ boxes, b.rect.right ≤ (boxes.foldl extend extent).width ∧
        b.rect.bottom ≤ (boxes.foldl extend extent).height := by
  induction boxes generalizing extent with
  | nil => exact ⟨⟨le_rfl, le_rfl⟩, fun b mem => absurd mem List.not_mem_nil⟩
  | cons b boxes ih =>
    obtain ⟨width, height, right, bottom⟩ := extend_bounds extent b
    obtain ⟨⟨wider, taller⟩, later⟩ := ih (extend extent b)
    refine ⟨⟨width.trans wider, height.trans taller⟩, fun c mem => ?_⟩
    rcases List.mem_cons.mp mem with rfl | mem
    · exact ⟨right.trans wider, bottom.trans taller⟩
    · exact later c mem

/-- The box of a node, with the ports of the node. A stream stands in the middle, whatever else its class says. -/
structure Drawn (toLowerCase : Text → Text) (g : PwGraph) (layout : GraphLayout) (box : NodeBox) : Prop where
  node : g.nodes.lookup box.node.id = some box.node
  inputs : box.inputs = g.ports.values.filter fun p => p.nodeId = box.node.id ∧ p.direction = .input
  outputs : box.outputs = g.ports.values.filter fun p => p.nodeId = box.node.id ∧ p.direction = .output
  width : box.rect.width = 200
  height : box.rect.height = max 60 (42 + 22 * ((max box.inputs.length box.outputs.length : Nat) : ℚ))
  left : box.rect.left =
    if utf16 "stream/" <+: toLowerCase box.node.mediaClass then 320
    else if utf16 "source" <:+: toLowerCase box.node.mediaClass then 40
    else if utf16 "sink" <:+: toLowerCase box.node.mediaClass then 600
    else 320
  low : 40 ≤ box.rect.top
  top : box.rect.top = 40 ∨ ∃ id above, layout.boxes.lookup id = some above ∧
    above.rect.left = box.rect.left ∧ above.rect.bottom + 24 = box.rect.top
  right : box.rect.right + 80 ≤ layout.canvasSize.width
  bottom : box.rect.bottom + 80 ≤ layout.canvasSize.height

theorem left_columnOf (n : PwNode) : 40 + (columnOf toLowerCase n : ℚ) * colW =
    if utf16 "stream/" <+: toLowerCase n.mediaClass then 320
    else if utf16 "source" <:+: toLowerCase n.mediaClass then 40
    else if utf16 "sink" <:+: toLowerCase n.mediaClass then 600
    else 320 := by
  unfold columnOf colW
  dsimp only
  split_ifs <;> norm_num

theorem filter_portsForNode (g : PwGraph) (id : Int) (direction : PwDirection) :
    ((g.portsForNode id).filter fun p => p.direction = direction) =
      g.ports.values.filter fun p => p.nodeId = id ∧ p.direction = direction := by
  rw [PwGraph.portsForNode, List.filter_filter]
  apply List.filter_congr
  intro p _
  rw [Bool.decide_and, Bool.and_comm]

theorem height_boxFor (g : PwGraph) (colIdx : Nat) (node : PwNode) (y : ℚ) : (boxFor g colIdx node y).rect.height =
    max 60 (42 + 22 * ((max (boxFor g colIdx node y).inputs.length (boxFor g colIdx node y).outputs.length : Nat) : ℚ)) := by
  have rows (n : ℚ) : NodeMetrics.headerH + NodeMetrics.padTop + NodeMetrics.padBot + n * NodeMetrics.portRowH =
      42 + 22 * n := by
    unfold NodeMetrics.headerH NodeMetrics.padTop NodeMetrics.padBot NodeMetrics.portRowH
    ring
  exact congrArg (max 60) (rows _)

theorem drawn_of_mem (sorts : SortsByName sort) (keyed : g.Keyed) {box : NodeBox}
    (listed : box ∈ allBoxes toLowerCase sort g filter) :
    Drawn toLowerCase g (compute toLowerCase sort g filter) box := by
  obtain ⟨seen, y, low, shape⟩ := mem_allBoxes sorts listed
  have extent := (foldl_extend ⟨1200, 800⟩ (allBoxes toLowerCase sort g filter)).2 box listed
  rw [← values_compute sorts keyed] at extent
  obtain ⟨left, wide⟩ := sides_of_mem sorts listed
  constructor
  · exact ((mem_visible keyed).mp seen).1
  · exact (congrArg NodeBox.inputs shape).trans (filter_portsForNode g _ _)
  · exact (congrArg NodeBox.outputs shape).trans (filter_portsForNode g _ _)
  · exact congrArg (fun b => b.rect.width) shape
  · have tall := height_boxFor g (columnOf toLowerCase box.node) box.node y
    rwa [← shape] at tall
  · exact left.trans (left_columnOf box.node)
  · have top : box.rect.top = y := congrArg (fun b => b.rect.top) shape
    rwa [top]
  · refine (top_of_mem listed).imp_right ?_
    rintro ⟨above, there, below⟩
    exact ⟨above.node.id, above, (lookup_compute sorts keyed).mpr ⟨there, rfl⟩, below⟩
  · exact add_le_add_left extent.1 80
  · exact add_le_add_left extent.2 80

theorem shown_iff {n : PwNode} : shown toLowerCase filter n = true ↔
    filter = [] ∨ filter <:+: toLowerCase n.name ∨ filter <:+: toLowerCase n.mediaClass := by
  simp [shown, or_assoc]

/-- Every node that the filter leaves has a box, and nothing else has one. No two boxes meet; in a column they stand in
the order of the names, one right below the other but for a gap. -/
theorem compute_places (sorts : SortsByName sort) (reached : g.Reachable) (filter : Text) :
    (∀ id, ((compute toLowerCase sort g filter).boxes.lookup id).isSome ↔ ∃ node, g.nodes.lookup id = some node ∧
      (filter = [] ∨ filter <:+: toLowerCase node.name ∨ filter <:+: toLowerCase node.mediaClass)) ∧
    (∀ id box, (compute toLowerCase sort g filter).boxes.lookup id = some box →
      box.node.id = id ∧ Drawn toLowerCase g (compute toLowerCase sort g filter) box) ∧
    ∀ id box, (compute toLowerCase sort g filter).boxes.lookup id = some box →
      ∀ id' box', (compute toLowerCase sort g filter).boxes.lookup id' = some box' → id ≠ id' →
        box.rect.Apart box'.rect ∧
          (box.rect.left = box'.rect.left →
            box.rect.bottom + 24 ≤ box'.rect.top ∧ NameLe box.node box'.node ∨
              box'.rect.bottom + 24 ≤ box.rect.top ∧ NameLe box'.node box.node) := by
  have keyed := PwGraph.keyed_of_reachable reached
  refine ⟨fun id => ?_, fun id box found => ?_, fun id box found id' box' found' other => ?_⟩
  · simp only [← shown_iff, Option.isSome_iff_exists]
    constructor
    · rintro ⟨box, found⟩
      obtain ⟨listed, rfl⟩ := (lookup_compute sorts keyed).mp found
      obtain ⟨seen, _⟩ := mem_allBoxes sorts listed
      exact ⟨box.node, (mem_visible keyed).mp seen⟩
    · rintro ⟨node, here, seen⟩
      have own : node.id = id := keyed.nodes id node here
      subst own
      obtain ⟨box, listed, rfl⟩ := exists_box sorts ((mem_visible keyed).mpr ⟨here, seen⟩)
      exact ⟨box, (lookup_compute sorts keyed).mpr ⟨listed, rfl⟩⟩
  · obtain ⟨listed, own⟩ := (lookup_compute sorts keyed).mp found
    exact ⟨own, drawn_of_mem sorts keyed listed⟩
  · obtain ⟨listed, rfl⟩ := (lookup_compute sorts keyed).mp found
    obtain ⟨listed', rfl⟩ := (lookup_compute sorts keyed).mp found'
    have distinct : box ≠ box' := fun same => other (same ▸ rfl)
    refine ⟨apart_of_ne sorts listed listed' distinct, fun together => ?_⟩
    obtain ⟨_, wide⟩ := sides_of_mem sorts listed
    obtain ⟨_, wide'⟩ := sides_of_mem sorts listed'
    rcases ordered_of_ne sorts listed listed' distinct with (⟨_, below, names⟩ | later) | ⟨_, below, names⟩ | later
    · exact .inl ⟨below, names⟩
    · linarith
    · exact .inr ⟨below, names⟩
    · linarith

instance (a b : PwNode) : Decidable (NameLe a b) := inferInstanceAs (Decidable (_ ≤ _))

/-- A stable sort is one of those that are relied on. -/
def sortByName (nodes : List PwNode) : List PwNode := nodes.insertionSort NameLe

theorem sortsByName_sortByName : SortsByName sortByName := by
  have total : Std.Total NameLe := ⟨fun a b => le_total (a.name.map UInt16.toNat) (b.name.map UInt16.toNat)⟩
  have trans : IsTrans PwNode NameLe := ⟨fun _ _ _ => le_trans⟩
  intro nodes
  exact ⟨List.perm_insertionSort NameLe nodes, List.pairwise_insertionSort NameLe nodes⟩

/-- Two sources, the second with a port. -/
def micGraph : PwGraph :=
  ((PwGraph.applyEvent {} (.nodeAdded ⟨7, utf16 "mic", utf16 "audio/source", .idle, ∅⟩)).applyEvent
    (.portAdded ⟨9, 7, utf16 "capture", .output, utf16 "audio", false, false, [], ∅⟩)).applyEvent
      (.nodeAdded ⟨5, utf16 "line", utf16 "audio/source", .idle, ∅⟩)

theorem reachable_micGraph : micGraph.Reachable := .applyEvent _ (.applyEvent _ (.applyEvent _ .empty))

theorem compute_places_micGraph :
    ∃ box, (compute id sortByName micGraph (utf16 "source")).boxes.lookup 7 = some box ∧
      box.outputs.map PwPort.id = [9] ∧ box.rect.left = 40 := by
  obtain ⟨all, drawn, _⟩ := @compute_places id _ _ sortsByName_sortByName reachable_micGraph (utf16 "source")
  have listed : (compute id sortByName micGraph (utf16 "source")).boxes.lookup 7 |>.isSome :=
    (all 7).mpr ⟨_, rfl, .inr (.inr (by decide))⟩
  obtain ⟨box, found⟩ := Option.isSome_iff_exists.mp listed
  obtain ⟨own, shape⟩ := drawn 7 box found
  have node := shape.node
  rw [own] at node
  refine ⟨box, found, ?_, ?_⟩
  · rw [shape.outputs, own]
    decide
  · rw [shape.left, ← Option.some.inj node]
    decide +kernel

end Drawing

end GraphLayout

end PwDart
