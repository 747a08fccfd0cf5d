import PwDart.CoreErrors
import PwDart.GraphQueries
import PwDart.ReadableCodes

namespace PwDart

open Json ReadableCodes

/-- `t.replaceAll(c, by_)` for a pattern of one unit. -/
def replaceAll (c : UInt16) (by_ t : Text) : Text := t.flatMap fun d => if d = c then by_ else [d]

/-- `_esc` of `pw_dot`. -/
def esc (s : Text) : Text :=
  let s := replaceAll (unit '\\') [unit '\\', unit '\\'] s
  let s := replaceAll (unit '"') [unit '\\', unit '"'] s
  let s := replaceAll (unit '|') [unit '\\', unit '|'] s
  let s := replaceAll (unit '<') [unit '\\', unit '<'] s
  let s := replaceAll (unit '>') [unit '\\', unit '>'] s
  let s := replaceAll (unit '\x7b') [unit '\\', unit '\x7b'] s
  replaceAll (unit '\x7d') [unit '\\', unit '\x7d'] s

/-- `'$id'`. -/
def idText (id : Int) : Text := utf16 (toString id)

namespace PwGraph

def nodePorts (g : PwGraph) (nodeId : Int) (direction : PwDirection) : List PwPort :=
  (g.portsForNode nodeId).filter fun p => p.direction = direction

/-- The labels of ports; `tag` is the letter in front of their ids. -/
def portLabels (tag : String) (ports : List PwPort) : Text :=
  joinTexts (utf16 "|") (ports.map fun p => utf16 "<" ++ utf16 tag ++ idText p.id ++ utf16 "> " ++ esc p.name)

def dotBody (g : PwGraph) (node : PwNode) : Text :=
  let inLabels := portLabels "i" (g.nodePorts node.id .input)
  let outLabels := portLabels "o" (g.nodePorts node.id .output)
  joinTexts (utf16 "|")
    ((if inLabels.isEmpty then [] else [utf16 "\x7b" ++ inLabels ++ utf16 "\x7d"]) ++
      [esc node.name ++ utf16 "\\n[" ++ esc node.mediaClass ++ utf16 "]"] ++
      if outLabels.isEmpty then [] else [utf16 "\x7b" ++ outLabels ++ utf16 "\x7d"])

def dotNode (g : PwGraph) (node : PwNode) : Text :=
  utf16 "  n" ++ idText node.id ++ utf16 " [label=\"\x7b" ++ g.dotBody node ++ utf16 "\x7d\"];\n"

def dotLink (link : PwLink) : Text :=
  utf16 "  n" ++ idText link.outputNodeId ++ utf16 ":o" ++ idText link.outputPortId ++ utf16 " -> " ++
    (utf16 "n" ++ idText link.inputNodeId ++ utf16 ":i" ++ idText link.inputPortId ++ utf16 ";\n")

/-- What `pw_dot` writes. -/
def dotText (g : PwGraph) : Text :=
  utf16 "digraph pipewire \x7b\n" ++ utf16 "  rankdir=LR;\n" ++
    utf16 "  node [shape=record, fontname=\"Helvetica\", fontsize=10];\n" ++
    g.nodes.values.flatMap g.dotNode ++ g.links.values.flatMap dotLink ++ utf16 "\x7d\n"

end PwGraph

/-- What a DOT file has of a port. -/
structure PortOutline where
  id : Int
  name : Text

structure NodeOutline where
  id : Int
  name : Text
  mediaClass : Text
  inputs : List PortOutline
  outputs : List PortOutline

structure LinkOutline where
  outputNodeId : Int
  outputPortId : Int
  inputNodeId : Int
  inputPortId : Int

/-- What a DOT file has of a graph. -/
structure GraphOutline where
  nodes : List NodeOutline
  links : List LinkOutline

def PwPort.outline (p : PwPort) : PortOutline := ⟨p.id, p.name⟩

def PwLink.outline (l : PwLink) : LinkOutline := ⟨l.outputNodeId, l.outputPortId, l.inputNodeId, l.inputPortId⟩

namespace PwGraph

def nodeOutline (g : PwGraph) (node : PwNode) : NodeOutline :=
  ⟨node.id, node.name, node.mediaClass, (g.nodePorts node.id .input).map PwPort.outline,
    (g.nodePorts node.id .output).map PwPort.outline⟩

def outline (g : PwGraph) : GraphOutline := ⟨g.nodes.values.map g.nodeOutline, g.links.values.map PwLink.outline⟩

end PwGraph

/-- The units that are escaped. -/
def escMarks : List UInt16 :=
  [unit '\\', unit '"', unit '|', unit '<', unit '>', unit '\x7b', unit '\x7d']

section Escapes

theorem replaceAll_backslash (t : Text) :
    replaceAll (unit '\\') [unit '\\', unit '\\'] t = escape (unit '\\') [unit '\\'] t := by
  unfold replaceAll escape
  congr 1
  funext d
  by_cases same : d = unit '\\'
  · simp [same]
  · simp [same]

/-- After the backslash, one more mark is escaped without touching what is there. -/
theorem replaceAll_escape {marks : List UInt16} {c : UInt16} (first : unit '\\' ∈ marks) (new : c ∉ marks) (t : Text) :
    replaceAll c [unit '\\', c] (escape (unit '\\') marks t) = escape (unit '\\') (marks ++ [c]) t := by
  have backslash : unit '\\' ≠ c := fun same => new (same ▸ first)
  unfold replaceAll escape
  rw [List.flatMap_assoc]
  congr 1
  funext d
  by_cases marked : d ∈ marks
  · have other : d ≠ c := fun same => new (same ▸ marked)
    simp [marked, other, backslash]
  · by_cases same : d = c
    · simp [same, new]
    · simp [marked, same]

/-- The chain of replacements is one pass. -/
theorem esc_eq (s : Text) : esc s = escape (unit '\\') escMarks s := by
  unfold esc
  dsimp only
  rw [replaceAll_backslash, replaceAll_escape (by decide) (by decide), replaceAll_escape (by decide) (by decide),
    replaceAll_escape (by decide) (by decide), replaceAll_escape (by decide) (by decide),
    replaceAll_escape (by decide) (by decide), replaceAll_escape (by decide) (by decide)]
  rfl

/-- What may follow an escaped text: a bare mark, or an escape of what is no mark. -/
abbrev EndsEscaped : Text → Prop := StopsEscape (unit '\\') escMarks

theorem readable_esc : Readable esc EndsEscaped := by
  have same : esc = escape (unit '\\') escMarks := funext esc_eq
  rw [same]
  exact readable_escape (by decide)

theorem ends_of_mark {c : UInt16} {rest : Text} (marked : c ∈ escMarks) (other : c ≠ unit '\\') :
    EndsEscaped (c :: rest) :=
  .inl ⟨c, rest, rfl, marked, other⟩

end Escapes

section Ids

def isIdUnit (c : UInt16) : Bool := isDigit c || c = unit '-'

theorem isDigit_writeNat (n : Nat) : ∀ c ∈ utf16Chars (writeNat n), isDigit c = true := by
  by_cases zero : n = 0
  · subst zero
    intro c mem
    cases List.mem_singleton.mp (show c ∈ [unit '0'] from mem)
    rfl
  · obtain ⟨first, rest, same, digit, _, digits, _⟩ := Parser.units_writeNat zero
    rw [same]
    intro c mem
    rcases List.mem_cons.mp mem with rfl | mem
    · exact digit
    · exact List.all_eq_true.mp digits c mem

theorem isIdUnit_idText (id : Int) : ∀ c ∈ idText id, isIdUnit c = true := by
  intro c mem
  have digit {n : Nat} (mem : c ∈ utf16Chars (writeNat n)) : isIdUnit c = true := by
    rw [isIdUnit, isDigit_writeNat n c mem]
    rfl
  rw [idText, utf16, toList_toString, writeInt] at mem
  split at mem
  next =>
    rcases List.mem_cons.mp (show c ∈ unit '-' :: utf16Chars (writeNat id.natAbs) from mem) with rfl | mem
    · rfl
    · exact digit mem
  next => exact digit mem

theorem idText_inj (a b : Int) (same : idText a = idText b) : a = b := by
  rwa [idText, idText, utf16_inj, Int.toString_eq_repr, Int.toString_eq_repr, Int.repr_inj] at same

theorem readable_idText : Readable idText (Begins fun c => ¬isIdUnit c = true) :=
  readable_of_units idText_inj isIdUnit_idText

end Ids

section Lines

def portLabel (tag : String) (p : PortOutline) : Text :=
  utf16 "<" ++ utf16 tag ++ idText p.id ++ utf16 "> " ++ esc p.name

/-- The ports of one direction. -/
def writePorts (tag : String) (ports : List PortOutline) : Text := joined (utf16 "|") (portLabel tag) ports

/-- The name and the media class of a node. -/
def writeTitle (title : Text × Text) : Text := esc title.1 ++ utf16 "\\n[" ++ esc title.2 ++ utf16 "]"

def writeBody (n : NodeOutline) : Text :=
  bracketed (utf16 "\x7b") (utf16 "\x7d|") (writePorts "i") n.inputs ++ writeTitle (n.name, n.mediaClass) ++
    bracketed (utf16 "|\x7b") (utf16 "\x7d") (writePorts "o") n.outputs

def writeNode (n : NodeOutline) : Text :=
  utf16 "  n" ++ idText n.id ++ utf16 " [label=\"\x7b" ++ writeBody n ++ utf16 "\x7d\"];\n"

def writeLink (l : LinkOutline) : Text :=
  utf16 "  n" ++ idText l.outputNodeId ++ utf16 ":o" ++ idText l.outputPortId ++ utf16 " -> " ++
    (utf16 "n" ++ idText l.inputNodeId ++ utf16 ":i" ++ idText l.inputPortId ++ utf16 ";\n")

/-- The file of an outline. -/
def GraphOutline.text (o : GraphOutline) : Text :=
  utf16 "digraph pipewire \x7b\n" ++ utf16 "  rankdir=LR;\n" ++
    utf16 "  node [shape=record, fontname=\"Helvetica\", fontsize=10];\n" ++
    o.nodes.flatMap writeNode ++ o.links.flatMap writeLink ++ utf16 "\x7d\n"

theorem joinTexts_map {α : Type} (separator : Text) (write : α → Text) (as : List α) :
    joinTexts separator (as.map write) = joined separator write as := by
  cases as with
  | nil => rfl
  | cons a as =>
    induction as generalizing a with
    | nil => exact (List.append_nil _).symm
    | cons b as ih =>
      change write a ++ separator ++ joinTexts separator ((b :: as).map write) = _
      rw [ih b, joined, joined, List.flatMap_cons, List.append_assoc, List.append_assoc]

theorem portLabels_eq (tag : String) (ports : List PwPort) :
    PwGraph.portLabels tag ports = writePorts tag (ports.map PwPort.outline) := by
  rw [writePorts, ← joinTexts_map, List.map_map]
  rfl

theorem isEmpty_writePorts (tag : String) (ports : List PortOutline) :
    (writePorts tag ports).isEmpty = ports.isEmpty := by
  cases ports <;> rfl

theorem dotBody_eq (g : PwGraph) (node : PwNode) : g.dotBody node = writeBody (g.nodeOutline node) := by
  rw [PwGraph.dotBody, portLabels_eq, portLabels_eq, isEmpty_writePorts, isEmpty_writePorts, writeBody, bracketed,
    bracketed]
  change joinTexts _ ((if (g.nodeOutline node).inputs.isEmpty then _ else _) ++ _ ++
    if (g.nodeOutline node).outputs.isEmpty then _ else _) = _
  cases (g.nodeOutline node).inputs.isEmpty <;> cases (g.nodeOutline node).outputs.isEmpty <;>
    simp [joinTexts, writeTitle, PwGraph.nodeOutline] <;> rfl

theorem dotNode_eq (g : PwGraph) (node : PwNode) : g.dotNode node = writeNode (g.nodeOutline node) := by
  rw [PwGraph.dotNode, dotBody_eq]
  rfl

theorem dotText_eq (g : PwGraph) : g.dotText = g.outline.text := by
  have nodes : g.dotNode = fun node => writeNode (g.nodeOutline node) := funext (dotNode_eq g)
  rw [PwGraph.dotText, GraphOutline.text, PwGraph.outline, List.flatMap_map, List.flatMap_map, nodes]
  rfl

end Lines

section Reading

theorem readable_portLabel (tag : String) : Readable (portLabel tag) EndsEscaped := by
  intro p q x y hx hy same
  simp only [portLabel, List.append_assoc] at same
  have tagged := List.append_cancel_left (List.append_cancel_left same)
  have behind (z : Text) : Begins (fun c => ¬isIdUnit c = true) (utf16 "> " ++ z) := ⟨unit '>', _, rfl, by decide⟩
  obtain ⟨ids, named⟩ := readable_idText p.id q.id _ _ (behind _) (behind _) tagged
  obtain ⟨names, rest⟩ := readable_esc p.name q.name x y hx hy (List.append_cancel_left named)
  cases p
  cases q
  cases ids
  cases names
  exact ⟨rfl, rest⟩

theorem readable_writePorts (tag : String) : Readable (writePorts tag) (Begins fun c => c = unit '\x7d') := by
  apply Readable.joined (readable_portLabel tag)
  · intro x
    exact ends_of_mark (by decide) (by decide)
  · rintro x ⟨c, rest, rfl, rfl⟩
    exact ends_of_mark (by decide) (by decide)
  · rintro x ⟨c, rest, same, rfl⟩
    exact absurd (List.cons.inj same).1 (by decide)
  · rintro p x ⟨c, rest, same, rfl⟩
    exact absurd (List.cons.inj same).1 (by decide)

theorem esc_append (s t : Text) : esc (s ++ t) = esc s ++ esc t := by
  rw [esc_eq, esc_eq, esc_eq, escape, escape, escape, List.flatMap_append]

theorem readable_writeTitle : Readable writeTitle EndsEscaped := by
  intro a b x y hx hy same
  have line (z : Text) : EndsEscaped (utf16 "\\n[" ++ z) := .inr ⟨unit 'n', _, rfl, by decide⟩
  -- the bracket behind the media class is no mark, so it can be read with it
  have bracket (s z : Text) : esc s ++ (utf16 "]" ++ z) = esc (s ++ utf16 "]") ++ z := by
    rw [esc_append, List.append_assoc]
    rfl
  simp only [writeTitle, List.append_assoc] at same
  obtain ⟨names, later⟩ := readable_esc a.1 b.1 _ _ (line _) (line _) same
  have classed := List.append_cancel_left later
  rw [bracket, bracket] at classed
  obtain ⟨classes, rest⟩ := readable_esc _ _ x y hx hy classed
  exact ⟨Prod.ext names (List.append_cancel_right classes), rest⟩

/-- A title does not begin with a brace, since those of the name are escaped. -/
theorem title_begins (title : Text × Text) (z : Text) : ¬Begins (fun c => c = unit '\x7b') (writeTitle title ++ z) := by
  rintro ⟨c, rest, same, rfl⟩
  have line (z : Text) : EndsEscaped (utf16 "\\n[" ++ z) := .inr ⟨unit 'n', _, rfl, by decide⟩
  have empty : writeTitle title ++ z = esc [] ++ (unit '\x7b' :: rest) := same
  simp only [writeTitle, List.append_assoc] at empty
  obtain ⟨_, later⟩ := readable_esc title.1 [] _ _ (line _) (ends_of_mark (by decide) (by decide)) empty
  exact absurd (List.cons.inj later).1 (by decide)

theorem outputs_follow (ports : List PortOutline) {x : Text} (hx : Begins (fun c => c = unit '\x7d') x) :
    EndsEscaped (bracketed (utf16 "|\x7b") (utf16 "\x7d") (writePorts "o") ports ++ x) := by
  cases ports with
  | nil =>
    obtain ⟨c, rest, rfl, rfl⟩ := hx
    exact ends_of_mark (by decide) (by decide)
  | cons p ports => exact ends_of_mark (c := unit '|') (by decide) (by decide)

theorem read_body {m n : NodeOutline} {x y : Text} (hx : Begins (fun c => c = unit '\x7d') x)
    (hy : Begins (fun c => c = unit '\x7d') y) (same : writeBody m ++ x = writeBody n ++ y) :
    (m.inputs = n.inputs ∧ (m.name, m.mediaClass) = (n.name, n.mediaClass) ∧ m.outputs = n.outputs) ∧ x = y := by
  have closes (z : Text) : Begins (fun c => c = unit '\x7d') (utf16 "\x7d" ++ z) := ⟨_, z, rfl, rfl⟩
  have closes' (z : Text) : Begins (fun c => c = unit '\x7d') (utf16 "\x7d|" ++ z) := ⟨_, _, rfl, rfl⟩
  have inputs : Readable (bracketed (utf16 "\x7b") (utf16 "\x7d|") (writePorts "i")) fun z =>
      ¬Begins (fun c => c = unit '\x7b') z := by
    apply Readable.bracketed (readable_writePorts "i") closes'
    exact fun z none => none ⟨_, z, rfl, rfl⟩
  have outputs : Readable (bracketed (utf16 "|\x7b") (utf16 "\x7d") (writePorts "o"))
      (Begins fun c => c = unit '\x7d') := by
    apply Readable.bracketed (readable_writePorts "o") closes
    rintro z ⟨c, rest, same, rfl⟩
    exact absurd (List.cons.inj same).1 (by decide)
  simp only [writeBody, List.append_assoc] at same
  obtain ⟨ins, later⟩ := inputs _ _ _ _ (title_begins _ _) (title_begins _ _) same
  obtain ⟨titles, last⟩ := readable_writeTitle _ _ _ _ (outputs_follow _ hx) (outputs_follow _ hy) later
  obtain ⟨outs, rest⟩ := outputs _ _ x y hx hy last
  exact ⟨⟨ins, titles, outs⟩, rest⟩

theorem readable_writeNode : Readable writeNode fun _ => True := by
  intro m n x y _ _ same
  simp only [writeNode, List.append_assoc] at same
  have behind (z : Text) : Begins (fun c => ¬isIdUnit c = true) (utf16 " [label=\"\x7b" ++ z) :=
    ⟨unit ' ', _, rfl, by decide⟩
  have brace (z : Text) : Begins (fun c => c = unit '\x7d') (utf16 "\x7d\"];\n" ++ z) := ⟨_, _, rfl, rfl⟩
  obtain ⟨ids, label⟩ := readable_idText m.id n.id _ _ (behind _) (behind _) (List.append_cancel_left same)
  obtain ⟨⟨inputs, titles, outputs⟩, rest⟩ := read_body (brace x) (brace y) (List.append_cancel_left label)
  cases m
  cases n
  cases ids
  cases inputs
  cases titles
  cases outputs
  exact ⟨rfl, List.append_cancel_left rest⟩

theorem readable_writeLink : Readable writeLink fun _ => True := by
  intro l m x y _ _ same
  simp only [writeLink, List.append_assoc] at same
  have output (z : Text) : Begins (fun c => ¬isIdUnit c = true) (utf16 ":o" ++ z) := ⟨unit ':', _, rfl, by decide⟩
  have input (z : Text) : Begins (fun c => ¬isIdUnit c = true) (utf16 ":i" ++ z) := ⟨unit ':', _, rfl, by decide⟩
  have arrow (z : Text) : Begins (fun c => ¬isIdUnit c = true) (utf16 " -> " ++ z) := ⟨unit ' ', _, rfl, by decide⟩
  have ended (z : Text) : Begins (fun c => ¬isIdUnit c = true) (utf16 ";\n" ++ z) := ⟨unit ';', _, rfl, by decide⟩
  obtain ⟨outputNodes, fromPort⟩ := readable_idText _ _ _ _ (output _) (output _) (List.append_cancel_left same)
  obtain ⟨outputPorts, toNode⟩ := readable_idText _ _ _ _ (arrow _) (arrow _) (List.append_cancel_left fromPort)
  obtain ⟨inputNodes, toPort⟩ := readable_idText _ _ _ _ (input _) (input _)
    (List.append_cancel_left (List.append_cancel_left toNode))
  obtain ⟨inputPorts, last⟩ := readable_idText _ _ _ _ (ended x) (ended y) (List.append_cancel_left toPort)
  cases l
  cases m
  cases outputNodes
  cases outputPorts
  cases inputNodes
  cases inputPorts
  exact ⟨rfl, List.append_cancel_left last⟩

/-- Nothing of the links is taken for a node. -/
theorem links_follow (links : List LinkOutline) (n : NodeOutline) (z : Text) :
    links.flatMap writeLink ++ utf16 "\x7d\n" ≠ writeNode n ++ z := by
  intro same
  cases links with
  | nil => exact absurd (List.cons.inj same).1 (by decide)
  | cons l links =>
    simp only [List.flatMap_cons, writeLink, writeNode, List.append_assoc] at same
    obtain ⟨_, later⟩ := readable_idText l.outputNodeId n.id _ _ ⟨unit ':', _, rfl, by decide⟩
      ⟨unit ' ', _, rfl, by decide⟩ (List.append_cancel_left same)
    exact absurd (List.cons.inj later).1 (by decide)

theorem outline_of_text {o p : GraphOutline} (same : o.text = p.text) : o = p := by
  have nodes : Readable (fun ns : List NodeOutline => ns.flatMap writeNode) fun x => ∀ n z, x ≠ writeNode n ++ z := by
    apply Readable.flatMap readable_writeNode
    · exact fun _ _ => trivial
    · exact fun _ _ => trivial
    · exact fun n z none => none n z rfl
  have links : Readable (fun ls : List LinkOutline => ls.flatMap writeLink) (Begins fun c => c = unit '\x7d') := by
    apply Readable.flatMap readable_writeLink
    · exact fun _ _ => trivial
    · exact fun _ _ => trivial
    · rintro l x ⟨c, rest, same, rfl⟩
      exact absurd (List.cons.inj same).1 (by decide)
  simp only [GraphOutline.text, List.append_assoc] at same
  have body := List.append_cancel_left (List.append_cancel_left (List.append_cancel_left same))
  obtain ⟨sameNodes, later⟩ := nodes _ _ _ _ (links_follow o.links) (links_follow p.links) body
  obtain ⟨sameLinks, _⟩ := links _ _ (utf16 "\x7d\n") (utf16 "\x7d\n") ⟨_, _, rfl, rfl⟩ ⟨_, _, rfl, rfl⟩ later
  cases o
  cases p
  cases sameNodes
  cases sameLinks
  rfl

/-- Whatever the names, two graphs have the same file exactly if they have the same nodes with the same ports by
direction, and the same links, in the same order. -/
theorem dot_determines (g h : PwGraph) : g.dotText = h.dotText ↔ g.outline = h.outline := by
  rw [dotText_eq, dotText_eq]
  exact ⟨outline_of_text, congrArg GraphOutline.text⟩

end Reading

end PwDart
