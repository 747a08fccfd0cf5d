import PwDart.RegistryWellFormed

namespace PwDart

def Kind.interface : Kind → String
  | node => interfaceNode
  | port => interfacePort
  | link => interfaceLink
  | device => interfaceDevice

/-- The properties of a new object that are read as ids. -/
def Kind.idKeys : Kind → List String
  | node => []
  | port => ["node.id"]
  | link => ["link.output.node", "link.output.port", "link.input.node", "link.input.port"]
  | device => []

def ObjectInfo.ids : ObjectInfo → List UInt32
  | node _ => []
  | port info => [info.nodeId]
  | link info => [info.outputNodeId, info.outputPortId, info.inputNodeId, info.inputPortId]
  | device _ => []

def unsigned (chars : List Char) : List Char :=
  if chars.head? = some '-' ∨ chars.head? = some '+' then chars.tail else chars

/-- The number that the whole of a text denotes, after white space and a sign. -/
def numeral (str : String) : Option Int :=
  let chars := str.toList.dropWhile isSpace
  if unsigned chars = [] ∨ ∃ c ∈ unsigned chars, ¬c.isDigit then none
  else if chars.head? = some '-' then some (-decimalValue (unsigned chars))
  else some (decimalValue (unsigned chars))

/-- An absent property stands for 0. -/
def Denotes (str : String) (id : UInt32) : Prop :=
  if str.isEmpty then id = 0 else numeral str = some (id.toNat : Int)

/-- A decimal number below 2^32, or nothing. -/
structure IsDecimal (str : String) : Prop where
  digits : ∀ c ∈ str.toList, c.isDigit
  bounded : decimalValue str.toList < 2 ^ 32

/-- Digits to the end after white space and a sign, of a number below 2^32; a minus sign only before 0. -/
structure IsNumeral (str : String) : Prop where
  nonempty : unsigned (str.toList.dropWhile isSpace) ≠ []
  digits : ∀ c ∈ unsigned (str.toList.dropWhile isSpace), c.isDigit
  bounded : decimalValue (unsigned (str.toList.dropWhile isSpace)) < 2 ^ 32
  minus : (str.toList.dropWhile isSpace).head? = some '-' →
    decimalValue (unsigned (str.toList.dropWhile isSpace)) = 0

theorem stoul_eq (str : String) : stoul str =
    let chars := str.toList.dropWhile isSpace
    let digits := (unsigned chars).takeWhile Char.isDigit
    if digits = [] then .error .invalidArgument
    else if 2 ^ 64 ≤ decimalValue digits then .error .outOfRange
    else if chars.head? = some '-' then .ok ((2 ^ 64 - decimalValue digits) % 2 ^ 64)
    else .ok (decimalValue digits) :=
  rfl

theorem stoul_of_isNumeral {str : String} (numeric : IsNumeral str) :
    stoul str = .ok (decimalValue (unsigned (str.toList.dropWhile isSpace))) := by
  have bounded := numeric.bounded
  have run := List.takeWhile_eq_self_iff.mpr numeric.digits
  simp only [stoul_eq, run, if_neg numeric.nonempty]
  rw [if_neg (by omega)]
  split
  next negative =>
    rw [numeric.minus negative]
    decide
  next => rfl

theorem numeral_of_isNumeral {str : String} (numeric : IsNumeral str) :
    numeral str = some (decimalValue (unsigned (str.toList.dropWhile isSpace)) : Int) := by
  have some : ¬(unsigned (str.toList.dropWhile isSpace) = [] ∨
      ∃ c ∈ unsigned (str.toList.dropWhile isSpace), ¬c.isDigit) := by
    rintro (none | ⟨c, mem, other⟩)
    · exact numeric.nonempty none
    · exact other (numeric.digits c mem)
  simp only [numeral, if_neg some]
  split
  next negative => rw [numeric.minus negative]; rfl
  next => rfl

/-- A text that denotes an id is read as it. -/
theorem denotes_of_isNumeral {str : String} (numeric : IsNumeral str) :
    ∃ id, idOfProp str = .ok id ∧ Denotes str id := by
  have nonempty : str.isEmpty = false := by
    by_contra empty
    have none : str = "" := by simpa using empty
    have numeric := numeric.nonempty
    rw [none] at numeric
    exact numeric rfl
  refine ⟨UInt32.ofNat (decimalValue (unsigned (str.toList.dropWhile isSpace))), ?_, ?_⟩
  · rw [idOfProp, nonempty, stoul_of_isNumeral numeric]
    rfl
  · rw [Denotes, nonempty, numeral_of_isNumeral numeric, UInt32.toNat_ofNat_of_lt' numeric.bounded]
    rfl

theorem isNumeral_of_denotes {str : String} {id : UInt32} (denotes : Denotes str id) (nonempty : str ≠ "") :
    IsNumeral str := by
  have some : str.isEmpty = false := by simpa using nonempty
  have bound := id.toNat_lt
  simp only [Denotes, some, Bool.false_eq_true, if_false, numeral] at denotes
  split at denotes
  next => cases denotes
  next numeric =>
    push Not at numeric
    split at denotes
    next negative =>
      have value := Option.some.inj denotes
      exact ⟨numeric.1, numeric.2, by omega, fun _ => by omega⟩
    next positive =>
      have value := Option.some.inj denotes
      exact ⟨numeric.1, numeric.2, by omega, fun negative => absurd negative positive⟩

/-- There is no white space and no sign among digits. -/
theorem plain_of_isDecimal {str : String} (decimal : IsDecimal str) :
    str.toList.dropWhile isSpace = str.toList ∧ unsigned str.toList = str.toList ∧
      str.toList.head? ≠ some '-' := by
  cases chars : str.toList with
  | nil => exact ⟨rfl, rfl, nofun⟩
  | cons c rest =>
    have digit : c.isDigit := decimal.digits c (by simp [chars])
    have notSpace : ¬isSpace c := by
      intro space
      simp only [isSpace, Bool.or_eq_true, decide_eq_true_eq] at space
      rcases space with ((((rfl | rfl) | rfl) | rfl) | rfl) | rfl <;> exact absurd digit (by decide)
    have notMinus : (c :: rest).head? ≠ some '-' := by
      intro minus
      cases Option.some.inj minus
      exact absurd digit (by decide)
    have notPlus : (c :: rest).head? ≠ some '+' := by
      intro plus
      cases Option.some.inj plus
      exact absurd digit (by decide)
    exact ⟨List.dropWhile_cons_of_neg notSpace, if_neg (not_or.mpr ⟨notMinus, notPlus⟩), notMinus⟩

theorem isNumeral_of_isDecimal {str : String} (decimal : IsDecimal str) (nonempty : str ≠ "") : IsNumeral str := by
  obtain ⟨kept, same, positive⟩ := plain_of_isDecimal decimal
  refine ⟨?_, ?_, ?_, ?_⟩
  · rw [kept, same]
    exact fun none => nonempty (String.toList_eq_nil_iff.mp none)
  · rw [kept, same]
    exact decimal.digits
  · rw [kept, same]
    exact decimal.bounded
  · rw [kept]
    exact fun minus => absurd minus positive

theorem toNat_of_denotes {str : String} {id : UInt32} (decimal : IsDecimal str) (denotes : Denotes str id) :
    id.toNat = decimalValue str.toList := by
  obtain ⟨kept, same, _⟩ := plain_of_isDecimal decimal
  by_cases empty : str = ""
  · subst empty
    cases denotes
    rfl
  · have some : str.isEmpty = false := by simpa using empty
    have number := numeral_of_isNumeral (isNumeral_of_isDecimal decimal empty)
    simp only [Denotes, some, Bool.false_eq_true, if_false, number, kept, same, Option.some.injEq] at denotes
    omega

theorem exists_forall₂ {α β : Type*} {R : α → β → Prop} {as : List α} (each : ∀ a ∈ as, ∃ b, R a b) :
    ∃ bs, List.Forall₂ R as bs := by
  induction as with
  | nil => exact ⟨[], .nil⟩
  | cons a as ih =>
    obtain ⟨b, related⟩ := each a List.mem_cons_self
    obtain ⟨bs, rest⟩ := ih fun a' mem => each a' (List.mem_cons_of_mem a mem)
    exact ⟨b :: bs, .cons related rest⟩

/-- An absent property, or a numeral. -/
def IsIdText (str : String) : Prop := str = "" ∨ IsNumeral str

theorem idOfProp_of_isIdText {str : String} (text : IsIdText str) : ∃ id, idOfProp str = .ok id ∧ Denotes str id := by
  rcases text with rfl | numeric
  · exact ⟨0, rfl, rfl⟩
  · exact denotes_of_isNumeral numeric

theorem isIdText_of_denotes {str : String} {id : UInt32} (denotes : Denotes str id) : IsIdText str := by
  by_cases empty : str = ""
  · exact Or.inl empty
  · exact Or.inr (isNumeral_of_denotes denotes empty)

theorem newPortInfo_iff {id : UInt32} {props : Option SpaDict} {nodeId : UInt32} :
    (∃ info, newPortInfo id props = .ok info ∧ info.nodeId = nodeId) ↔
      idOfProp (dictGet props "node.id") = .ok nodeId := by
  constructor
  · rintro ⟨info, parsed, rfl⟩
    obtain ⟨_, read, rfl⟩ := newPortInfo_eq_ok.mp parsed
    exact read
  · intro read
    exact ⟨_, newPortInfo_eq_ok.mpr ⟨nodeId, read, rfl⟩, rfl⟩

theorem newLinkInfo_iff {id : UInt32} {props : Option SpaDict} {outputNodeId outputPortId inputNodeId inputPortId : UInt32} :
    (∃ info, newLinkInfo id props = .ok info ∧ info.outputNodeId = outputNodeId ∧ info.outputPortId = outputPortId ∧
        info.inputNodeId = inputNodeId ∧ info.inputPortId = inputPortId) ↔
      idOfProp (dictGet props "link.output.node") = .ok outputNodeId ∧
        idOfProp (dictGet props "link.output.port") = .ok outputPortId ∧
        idOfProp (dictGet props "link.input.node") = .ok inputNodeId ∧
        idOfProp (dictGet props "link.input.port") = .ok inputPortId := by
  constructor
  · rintro ⟨info, parsed, rfl, rfl, rfl, rfl⟩
    obtain ⟨_, outputNode, _, outputPort, _, inputNode, _, inputPort, rfl⟩ := newLinkInfo_eq_ok.mp parsed
    exact ⟨outputNode, outputPort, inputNode, inputPort⟩
  · rintro ⟨outputNode, outputPort, inputNode, inputPort⟩
    have parsed : newLinkInfo id props = .ok _ :=
      newLinkInfo_eq_ok.mpr ⟨_, outputNode, _, outputPort, _, inputNode, _, inputPort, rfl⟩
    exact ⟨_, parsed, rfl, rfl, rfl, rfl⟩

theorem announced_port (id : UInt32) (props : Option SpaDict) :
    announced id (some interfacePort) props = (newPortInfo id props).toOption.map .port :=
  rfl

theorem announced_link (id : UInt32) (props : Option SpaDict) :
    announced id (some interfaceLink) props = (newLinkInfo id props).toOption.map .link :=
  rfl

theorem toOption_eq_some {α : Type} {x : Except StdException α} {a : α} : x.toOption = some a ↔ x = .ok a := by
  cases x <;> simp [Except.toOption]

/-- The ids of a new object are what its properties are read as. -/
theorem announced_iff {kind : Kind} {id : UInt32} {props : Option SpaDict} {ids : List UInt32} :
    (∃ made, announced id (some kind.interface) props = some made ∧ made.kind = kind ∧ made.ids = ids) ↔
      List.Forall₂ (fun key i => idOfProp (dictGet props key) = .ok i) kind.idKeys ids := by
  cases kind with
  | node =>
    constructor
    · rintro ⟨made, announces, _, rfl⟩
      cases Option.some.inj announces
      exact .nil
    · rintro ⟨⟩
      exact ⟨.node (newNodeInfo id props), rfl, rfl, rfl⟩
  | port =>
    simp only [Kind.interface, Kind.idKeys, announced_port, Option.map_eq_some_iff, toOption_eq_some]
    constructor
    · rintro ⟨made, ⟨info, parsed, rfl⟩, _, rfl⟩
      exact .cons (newPortInfo_iff.mp ⟨info, parsed, rfl⟩) .nil
    · rintro (_ | ⟨read, ⟨⟩⟩)
      obtain ⟨info, parsed, rfl⟩ := newPortInfo_iff.mpr read
      exact ⟨.port info, ⟨info, parsed, rfl⟩, rfl, rfl⟩
  | link =>
    simp only [Kind.interface, Kind.idKeys, announced_link, Option.map_eq_some_iff, toOption_eq_some]
    constructor
    · rintro ⟨made, ⟨info, parsed, rfl⟩, _, rfl⟩
      obtain ⟨outputNode, outputPort, inputNode, inputPort⟩ := newLinkInfo_iff.mp ⟨info, parsed, rfl, rfl, rfl, rfl⟩
      exact .cons outputNode (.cons outputPort (.cons inputNode (.cons inputPort .nil)))
    · rintro (_ | ⟨outputNode, _ | ⟨outputPort, _ | ⟨inputNode, _ | ⟨inputPort, ⟨⟩⟩⟩⟩⟩)
      obtain ⟨info, parsed, rfl, rfl, rfl, rfl⟩ := newLinkInfo_iff.mpr ⟨outputNode, outputPort, inputNode, inputPort⟩
      exact ⟨.link info, ⟨info, parsed, rfl⟩, rfl, rfl⟩
  | device =>
    constructor
    · rintro ⟨made, announces, _, rfl⟩
      cases Option.some.inj announces
      exact .nil
    · rintro ⟨⟩
      exact ⟨.device (newDeviceInfo id props), rfl, rfl, rfl⟩

theorem kind_of_announced {kind : Kind} {id : UInt32} {props : Option SpaDict} {made : ObjectInfo}
    (announces : announced id (some kind.interface) props = some made) : made.kind = kind := by
  cases kind with
  | node => cases Option.some.inj announces; rfl
  | port =>
    obtain ⟨info, _, rfl⟩ := Option.map_eq_some_iff.mp announces
    rfl
  | link =>
    obtain ⟨info, _, rfl⟩ := Option.map_eq_some_iff.mp announces
    rfl
  | device => cases Option.some.inj announces; rfl

namespace RegistryMonitor

theorem unraised_iff {m : RegistryMonitor} {kind : Kind} {id : UInt32} {props : Option SpaDict}
    {bound : Option PwProxy} :
    (m.onGlobal id (some kind.interface) props bound).2 = none ↔
      ∃ made, announced id (some kind.interface) props = some made := by
  cases kind with
  | node => exact iff_of_true rfl ⟨_, rfl⟩
  | port =>
    have type : some interfacePort ≠ some interfaceNode := by decide
    simp only [Kind.interface, announced_port, onGlobal, if_neg type, if_true]
    cases newPortInfo id props <;> simp [Except.toOption]
  | link =>
    have node : some interfaceLink ≠ some interfaceNode := by decide
    have port : some interfaceLink ≠ some interfacePort := by decide
    simp only [Kind.interface, announced_link, onGlobal, if_neg node, if_neg port, if_true]
    cases newLinkInfo id props <;> simp [Except.toOption]
  | device => exact iff_of_true rfl ⟨_, rfl⟩

/-- The object is in `id_types_`, in `proxies_` with its own proxy, and in its map. -/
structure Registered (m : RegistryMonitor) (kind : Kind) (id : UInt32) (bound : Option PwProxy)
    (object : ObjectInfo) : Prop where
  typed : m.idTypes[id]? = some kind.text
  proxied : m.proxies[id]? = some (newProxyData id kind.text bound)
  recorded : m.record kind id = some object

/-- What is promised of one `on_global`: no exception leaves it, the object is registered whole or not at
all, and with no other ids than its properties denote. -/
structure AllOrNothing (m : RegistryMonitor) (kind : Kind) (id : UInt32) (props : Option SpaDict)
    (bound : Option PwProxy) : Prop where
  caught : (m.onGlobal id (some kind.interface) props bound).2 = none
  whole : (∃ object, (m.onGlobal id (some kind.interface) props bound).1.Registered kind id bound object) ∨
    (m.onGlobal id (some kind.interface) props bound).1 = m
  own : ∀ object, (m.onGlobal id (some kind.interface) props bound).1.Registered kind id bound object →
    List.Forall₂ (fun key i => Denotes (dictGet props key) i) kind.idKeys object.ids
  decimal : (∀ key ∈ kind.idKeys, IsDecimal (dictGet props key)) →
    ∃ object, (m.onGlobal id (some kind.interface) props bound).1.Registered kind id bound object ∧
      object.ids.map UInt32.toNat = kind.idKeys.map fun key => decimalValue (dictGet props key).toList
  removed : m.idTypes[id]? = none →
    (∀ object, ¬(m.onGlobal id (some kind.interface) props bound).1.Registered kind id bound object) →
      ((m.onGlobal id (some kind.interface) props bound).1.onGlobalRemove id).2 = []

theorem registered_of_announced {m : RegistryMonitor} {kind : Kind} {id : UInt32} {props : Option SpaDict}
    {bound : Option PwProxy} {made : ObjectInfo} (announces : announced id (some kind.interface) props = some made) :
    (m.onGlobal id (some kind.interface) props bound).1.Registered kind id bound made := by
  have same := kind_of_announced announces
  obtain ⟨types, proxies⟩ := onGlobal_announced announces m bound
  rw [same] at types proxies
  refine ⟨by simp [types], by simp [proxies], ?_⟩
  rw [record_onGlobal, announces]
  simp [same]

/-- A port or link is registered whole exactly if each of its id properties denotes an id. -/
theorem onGlobal_allOrNothing_iff (calls : List Callback) (kind : Kind) (id : UInt32) (props : Option SpaDict)
    (bound : Option PwProxy) :
    (replay calls).AllOrNothing kind id props bound ↔ ∀ key ∈ kind.idKeys, IsIdText (dictGet props key) := by
  constructor
  · intro promise
    obtain ⟨made, announces⟩ := unraised_iff.mp promise.caught
    have own := promise.own made (registered_of_announced announces)
    have texts := own.imp fun key i denotes => And.intro (isIdText_of_denotes denotes) denotes
    exact ((List.forall₂_and_left _ _).mp texts).1
  · intro texts
    have each : ∀ key ∈ kind.idKeys, ∃ i, idOfProp (dictGet props key) = .ok i ∧ Denotes (dictGet props key) i :=
      fun key mem => idOfProp_of_isIdText (texts key mem)
    obtain ⟨ids, both⟩ := exists_forall₂ each
    have denoted := both.imp fun key i read => read.2
    obtain ⟨made, announces, _, same⟩ := announced_iff.mpr (both.imp fun key i read => read.1)
    have registered : ((replay calls).onGlobal id (some kind.interface) props bound).1.Registered kind id bound made :=
      registered_of_announced announces
    refine ⟨unraised_iff.mpr ⟨made, announces⟩, Or.inl ⟨made, registered⟩, ?_, ?_, ?_⟩
    · intro object other
      have unique : made = object := Option.some.inj (registered.recorded.symm.trans other.recorded)
      rw [← unique, same]
      exact denoted
    · intro decimal
      refine ⟨made, registered, ?_⟩
      have numbered := ((List.forall₂_and_left _ _).mpr ⟨decimal, denoted⟩).imp fun key i both =>
        toNat_of_denotes both.1 both.2
      have equal : List.Forall₂ Eq (ids.map UInt32.toNat)
          (kind.idKeys.map fun key => decimalValue (dictGet props key).toList) := by
        rw [List.forall₂_map_left_iff, List.forall₂_map_right_iff]
        exact numbered.flip
      rw [List.forall₂_eq_eq_eq] at equal
      rw [same]
      exact equal
    · intro _ unregistered
      exact absurd registered (unregistered made)

/-- A port of no node is half registered, and its removal is posted. -/
theorem half_registered_port :
    (¬(replay []).AllOrNothing .port 40 (some [⟨some "node.id", some "abc"⟩]) (some 3)) ∧
      ((replay []).onGlobal 40 (some interfacePort) (some [⟨some "node.id", some "abc"⟩]) (some 3)).2 =
        some .invalidArgument ∧
      (((replay []).onGlobal 40 (some interfacePort) (some [⟨some "node.id", some "abc"⟩]) (some 3)).1.onGlobalRemove
        40).2 = [.portRemoved 40] := by
  refine ⟨fun promise => ?_, by decide, by decide +kernel⟩
  cases promise.caught

end RegistryMonitor

end PwDart
