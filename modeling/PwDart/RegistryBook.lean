import PwDart.LabelledRun
import PwDart.RegistryWellFormed
import PwDart.WireAgreement

namespace PwDart

open LabelledRun

/-- The state of a node or link is one that Dart has a name for. -/
def ObjectInfo.StateKnown : ObjectInfo → Prop
  | node info => ∃ state : PwNodeState, state.name = info.state
  | link info => ∃ state : PwLinkState, state.name = info.state
  | _ => True

theorem stateKnown_announced {id : UInt32} {type : Option String} {props : Option SpaDict} {made : ObjectInfo}
    (announces : announced id type props = some made) : made.StateKnown := by
  rcases announced_cases announces with rfl | ⟨info, _, rfl⟩ | ⟨info, parsed, rfl⟩ | rfl
  · exact ⟨.creating, rfl⟩
  · trivial
  · exact ⟨.init, (newLinkInfo_ok parsed).2.symm⟩
  · trivial

theorem nodeStateText_known (state : Int) {old : String} (known : ∃ s : PwNodeState, s.name = old) :
    ∃ s : PwNodeState, s.name = nodeStateText state old := by
  unfold nodeStateText
  split
  next => exact ⟨.error, rfl⟩
  next =>
    split
    next => exact ⟨.creating, rfl⟩
    next =>
      split
      next => exact ⟨.suspended, rfl⟩
      next =>
        split
        next => exact ⟨.idle, rfl⟩
        next =>
          split
          next => exact ⟨.running, rfl⟩
          next => exact known

theorem linkStateText_known (state : Int) {old : String} (known : ∃ s : PwLinkState, s.name = old) :
    ∃ s : PwLinkState, s.name = linkStateText state old := by
  unfold linkStateText
  split
  next => exact ⟨.error, rfl⟩
  next =>
    split
    next => exact ⟨.unlinked, rfl⟩
    next =>
      split
      next => exact ⟨.init, rfl⟩
      next =>
        split
        next => exact ⟨.negotiating, rfl⟩
        next =>
          split
          next => exact ⟨.allocating, rfl⟩
          next =>
            split
            next => exact ⟨.paused, rfl⟩
            next =>
              split
              next => exact ⟨.active, rfl⟩
              next => exact known

theorem stateKnown_update {old new : ObjectInfo} {c : Callback} (updated : old.update c = some new)
    (known : old.StateKnown) : new.StateKnown := by
  unfold ObjectInfo.update at updated
  split at updated
  next node _ info =>
    cases Option.some.inj updated
    have state : (node.update info).state = nodeStateText info.state node.state := by
      simp only [NodeInfo.update, NodeInfo.mergeProps]
      cases info.props <;> rfl
    obtain ⟨s, named⟩ := nodeStateText_known info.state known
    exact ⟨s, named.trans state.symm⟩
  next =>
    cases Option.some.inj updated
    trivial
  next link _ info =>
    cases Option.some.inj updated
    exact linkStateText_known info.state known
  next =>
    cases Option.some.inj updated
    trivial
  next => cases updated

namespace RegistryMonitor

/-- A global that announces nothing and does not throw is of another type. -/
theorem onGlobal_unannounced {id : UInt32} {type : Option String} {props : Option SpaDict}
    (unannounced : announced id type props = none) {m : RegistryMonitor} {bound : Option PwProxy}
    (parses : (m.onGlobal id type props bound).2 = none) : (m.onGlobal id type props bound).1 = m := by
  unfold announced at unannounced
  unfold onGlobal at parses ⊢
  split at unannounced
  next => cases unannounced
  next h =>
    rw [if_neg h] at parses ⊢
    split at unannounced
    next h =>
      rw [if_pos h] at parses ⊢
      cases parsed : newPortInfo id props with
      | error e => simp [parsed] at parses
      | ok info => simp [parsed, Except.toOption] at unannounced
    next h =>
      rw [if_neg h] at parses ⊢
      split at unannounced
      next h =>
        rw [if_pos h] at parses ⊢
        cases parsed : newLinkInfo id props with
        | error e => simp [parsed] at parses
        | ok info => simp [parsed, Except.toOption] at unannounced
      next h =>
        rw [if_neg h]
        split at unannounced
        next => cases unannounced
        next h => rw [if_neg h]

/-- The six maps agree, and what they hold is well formed. -/
structure Bookkeeping (m : RegistryMonitor) : Prop where
  disjoint : ∀ kind other id, (m.record kind id).isSome → (m.record other id).isSome → kind = other
  union : ∀ id, (∃ kind, (m.record kind id).isSome) ↔ id ∈ m.idTypes
  proxied : ∀ id, id ∈ m.proxies ↔ id ∈ m.idTypes
  named : ∀ (id : UInt32) (text : String), m.idTypes[id]? = some text →
    ∃ kind : Kind, text = kind.text ∧ (m.record kind id).isSome
  keyed : ∀ kind id object, m.record kind id = some object → object.id = id
  proxyKeyed : ∀ (id : UInt32) (data : ProxyData), m.proxies[id]? = some data → data.id = id
  states : ∀ kind id object, m.record kind id = some object → object.StateKnown

/-- The id properties parse, and a live id is announced with the type it has. -/
def Orderly (m : RegistryMonitor) (c : Callback) : Prop :=
  m.raised c = none ∧
    ∀ id type props bound, c = .global id type props bound → ∀ made, announced id type props = some made →
      ∀ text, m.idTypes[id]? = some text → text = made.kind.text

/-- A callback that is about nothing the monitor knows. -/
def Unknown (m : RegistryMonitor) : Callback → Prop
  | .global _ type _ _ =>
    type ≠ some interfaceNode ∧ type ≠ some interfacePort ∧ type ≠ some interfaceLink ∧ type ≠ some interfaceDevice
  | .globalRemove id => id ∉ m.idTypes
  | .nodeInfo id _ => id ∉ m.idTypes
  | .portInfo id _ => id ∉ m.idTypes
  | .linkInfo id _ => id ∉ m.idTypes
  | .deviceInfo id _ => id ∉ m.idTypes

theorem bookkeeping_empty : Bookkeeping {} where
  disjoint kind other id h := by cases kind <;> simp [record] at h
  union id := by
    constructor
    · rintro ⟨kind, h⟩
      cases kind <;> simp [record] at h
    · intro h
      simp at h
  proxied id := by simp
  named id text h := by simp at h
  keyed kind id object h := by cases kind <;> simp [record] at h
  proxyKeyed id data h := by simp at h
  states kind id object h := by cases kind <;> simp [record] at h

theorem Kind.eq_of_text {kind other : Kind} (same : kind.text = other.text) : kind = other :=
  Option.some.inj (by rw [← Kind.ofText_text kind, same, Kind.ofText_text])

theorem Bookkeeping.typed {m : RegistryMonitor} (h : m.Bookkeeping) {kind : Kind} {id : UInt32}
    (held : (m.record kind id).isSome) : m.idTypes[id]? = some kind.text := by
  obtain ⟨text, type⟩ := Option.isSome_iff_exists.mp
    (Std.ExtTreeMap.mem_iff_isSome_getElem?.mp ((h.union id).mp ⟨kind, held⟩))
  obtain ⟨other, rfl, also⟩ := h.named id text type
  rw [type, h.disjoint kind other id held also]

theorem bookkeeping_global {m : RegistryMonitor} (h : m.Bookkeeping) {id : UInt32} {type : Option String}
    {props : Option SpaDict} {bound : Option PwProxy} {made : ObjectInfo}
    (announces : announced id type props = some made)
    (keeps : ∀ text, m.idTypes[id]? = some text → text = made.kind.text) :
    (m.onGlobal id type props bound).1.Bookkeeping := by
  obtain ⟨types, proxies⟩ := onGlobal_announced announces m bound
  have records (k : Kind) (i : UInt32) : (m.onGlobal id type props bound).1.record k i =
      if made.kind = k ∧ id = i then some made else m.record k i := by
    rw [record_onGlobal, announces]
  have kindOf {k : Kind} (held : ((m.onGlobal id type props bound).1.record k id).isSome) : k = made.kind := by
    rw [records] at held
    split at held
    next here => exact here.1.symm
    next => exact Kind.eq_of_text (keeps _ (h.typed held))
  have other {k : Kind} {i : UInt32} (apart : ¬id = i) :
      (m.onGlobal id type props bound).1.record k i = m.record k i := by
    rw [records, if_neg fun here => apart here.2]
  have here : ((m.onGlobal id type props bound).1.record made.kind id).isSome := by
    rw [records, if_pos ⟨rfl, rfl⟩]
    rfl
  refine ⟨?_, ?_, ?_, ?_, ?_, ?_, ?_⟩
  · intro k k' i held held'
    by_cases same : id = i
    · subst same
      rw [kindOf held, kindOf held']
    · rw [other same] at held held'
      exact h.disjoint k k' i held held'
  · intro i
    rw [types, Std.ExtTreeMap.mem_insert]
    by_cases same : id = i
    · subst same
      exact iff_of_true ⟨made.kind, here⟩ (Or.inl Std.ReflCmp.compare_self)
    · simp only [other same, h.union, Std.LawfulEqCmp.compare_eq_iff_eq, same, false_or]
  · intro i
    rw [types, proxies, Std.ExtTreeMap.mem_insert, Std.ExtTreeMap.mem_insert, h.proxied]
  · intro i text held
    rw [types, Std.ExtTreeMap.getElem?_insert] at held
    split at held
    next same =>
      have eq : id = i := by simpa using same
      subst eq
      exact ⟨made.kind, (Option.some.inj held).symm, here⟩
    next apart =>
      obtain ⟨kind, named, held⟩ := h.named i text held
      exact ⟨kind, named, by rw [other (by simpa using apart)]; exact held⟩
  · intro k i object held
    rw [records] at held
    split at held
    next at_ =>
      cases Option.some.inj held
      rw [← at_.2]
      exact announced_id announces
    next => exact h.keyed k i object held
  · intro i data held
    rw [proxies, Std.ExtTreeMap.getElem?_insert] at held
    split at held
    next same =>
      cases Option.some.inj held
      have eq : id = i := by simpa using same
      exact eq
    next => exact h.proxyKeyed i data held
  · intro k i object held
    rw [records] at held
    split at held
    next =>
      cases Option.some.inj held
      exact stateKnown_announced announces
    next => exact h.states k i object held

theorem bookkeeping_globalRemove {m : RegistryMonitor} (h : m.Bookkeeping) (id : UInt32) :
    (m.onGlobalRemove id).1.Bookkeeping := by
  have types := idTypes_onGlobalRemove m id
  have proxies := proxies_onGlobalRemove m id
  cases held : m.idTypes[id]? with
  | none => simpa only [onGlobalRemove, held] using h
  | some text =>
    obtain ⟨kind, rfl, present⟩ := h.named id text held
    rw [held, Option.isSome_some, if_pos rfl] at proxies
    have records (k : Kind) (i : UInt32) :
        (m.onGlobalRemove id).1.record k i = if id = i then none else m.record k i := by
      rw [record_onGlobalRemove, held]
      by_cases same : id = i
      · subst same
        by_cases own : kind.text = k.text
        · simp [own]
        · have none : m.record k id = none := by
            by_contra other
            have isSome : (m.record k id).isSome := Option.isSome_iff_ne_none.mpr other
            exact own (congrArg Kind.text (h.disjoint kind k id present isSome))
          simp [none]
      · simp [same]
    have still {k : Kind} {i : UInt32} {object : ObjectInfo}
        (now : (m.onGlobalRemove id).1.record k i = some object) : m.record k i = some object := by
      rw [records] at now
      split at now
      next => cases now
      next => exact now
    have stillSome {k : Kind} {i : UInt32} (now : ((m.onGlobalRemove id).1.record k i).isSome) :
        (m.record k i).isSome := by
      obtain ⟨object, now⟩ := Option.isSome_iff_exists.mp now
      rw [still now]
      rfl
    refine ⟨?_, ?_, ?_, ?_, ?_, ?_, ?_⟩
    · intro k k' i now now'
      exact h.disjoint k k' i (stillSome now) (stillSome now')
    · intro i
      rw [types, Std.ExtTreeMap.mem_erase]
      by_cases same : id = i
      · subst same
        simp [records, Std.ReflCmp.compare_self]
      · simp only [records, same, if_false, h.union, Std.LawfulEqCmp.compare_eq_iff_eq, not_false_eq_true, ne_eq,
          true_and]
    · intro i
      rw [types, proxies, Std.ExtTreeMap.mem_erase, Std.ExtTreeMap.mem_erase, h.proxied]
    · intro i text now
      rw [types, Std.ExtTreeMap.getElem?_erase] at now
      split at now
      next => cases now
      next apart =>
        obtain ⟨k, named, held⟩ := h.named i text now
        have other : ¬id = i := by simpa using apart
        exact ⟨k, named, by rw [records, if_neg other]; exact held⟩
    · intro k i object now
      exact h.keyed k i object (still now)
    · intro i data now
      rw [proxies, Std.ExtTreeMap.getElem?_erase] at now
      split at now
      next => cases now
      next => exact h.proxyKeyed i data now
    · intro k i object now
      exact h.states k i object (still now)

theorem bookkeeping_info {m : RegistryMonitor} (h : m.Bookkeeping) {c : Callback} {kind : Kind} {id : UInt32}
    (about : c.infoTarget = some (kind, id)) : (m.call c).1.Bookkeeping := by
  cases found : m.record kind id with
  | none =>
    rw [call_info_none about found]
    exact h
  | some old =>
    obtain ⟨new, updated, _, types, proxies, records⟩ := call_info_some about found
    have same (k : Kind) (i : UInt32) : ((m.call c).1.record k i).isSome = (m.record k i).isSome := by
      rw [records]
      split
      next here => rw [here.1, here.2, found, Option.isSome_some, Option.isSome_some]
      next => rfl
    refine ⟨?_, ?_, ?_, ?_, ?_, ?_, ?_⟩
    · intro k k' i held held'
      rw [same] at held held'
      exact h.disjoint k k' i held held'
    · intro i
      simp only [same, types]
      exact h.union i
    · rw [types, proxies]
      exact h.proxied
    · intro i text held
      simp only [same]
      rw [types] at held
      exact h.named i text held
    · intro k i object held
      rw [records] at held
      split at held
      next here =>
        cases Option.some.inj held
        rw [(update_id_kind updated).1, here.2]
        exact h.keyed kind id old found
      next => exact h.keyed k i object held
    · rw [proxies]
      exact h.proxyKeyed
    · intro k i object held
      rw [records] at held
      split at held
      next =>
        cases Option.some.inj held
        exact stateKnown_update updated (h.states kind id old found)
      next => exact h.states k i object held

theorem bookkeeping_call {m : RegistryMonitor} (h : m.Bookkeeping) {c : Callback} (orderly : m.Orderly c) :
    (m.call c).1.Bookkeeping := by
  cases c with
  | global id type props bound =>
    cases announces : announced id type props with
    | none =>
      change (m.onGlobal id type props bound).1.Bookkeeping
      rw [onGlobal_unannounced announces orderly.1]
      exact h
    | some made => exact bookkeeping_global h announces (orderly.2 id type props bound rfl made announces)
  | globalRemove id => exact bookkeeping_globalRemove h id
  | nodeInfo _ info | portInfo _ info | linkInfo _ info | deviceInfo _ info =>
    cases info with
    | none => exact h
    | some info => exact bookkeeping_info h rfl

theorem call_unknown {m : RegistryMonitor} (h : m.Bookkeeping) {c : Callback} (unknown : m.Unknown c) :
    m.call c = (m, []) := by
  have unheld {id : UInt32} (absent : id ∉ m.idTypes) (kind : Kind) : m.record kind id = none := by
    by_contra held
    exact absent ((h.union id).mp ⟨kind, Option.isSome_iff_ne_none.mpr held⟩)
  cases c with
  | global id type props bound =>
    obtain ⟨node, port, link, device⟩ := unknown
    simp [call, onGlobal, node, port, link, device]
  | globalRemove id =>
    have absent : m.idTypes[id]? = none := Std.ExtTreeMap.getElem?_eq_none unknown
    simp [call, onGlobalRemove, absent]
  | nodeInfo id info =>
    cases info with
    | none => rfl
    | some info => exact call_info_none rfl (unheld unknown .node)
  | portInfo id info =>
    cases info with
    | none => rfl
    | some info => exact call_info_none rfl (unheld unknown .port)
  | linkInfo id info =>
    cases info with
    | none => rfl
    | some info => exact call_info_none rfl (unheld unknown .link)
  | deviceInfo id info =>
    cases info with
    | none => rfl
    | some info => exact call_info_none rfl (unheld unknown .device)

theorem registry_bookkeeping {calls : List Callback} {m : RegistryMonitor}
    (run : Run (Guarded (fun m c => some (m.call c).1) Orderly) {} calls m) :
    m.Bookkeeping ∧ ∀ c, m.Unknown c → m.call c = (m, []) := by
  have book : m.Bookkeeping := by
    refine run.invariant bookkeeping_empty fun a c b h step => ?_
    cases Option.some.inj step.2
    exact bookkeeping_call h step.1
  exact ⟨book, fun c => call_unknown book⟩

def reusedId : List Callback :=
  [.global 7 (some interfaceNode) none (some 3), .nodeInfo 7 (some ⟨1, PW_NODE_STATE_IDLE, none⟩), .globalRemove 7,
    .global 7 (some interfaceDevice) none none]

/-- An id that is a node's and then a device's, whose bind fails. -/
theorem registry_bookkeeping_reusedId :
    (replay reusedId).Bookkeeping ∧ (replay reusedId).call (.nodeInfo 8 none) = (replay reusedId, []) := by
  have free (m : RegistryMonitor) (absent : m.idTypes[(7 : UInt32)]? = none) (type : Option String)
      (bound : Option PwProxy) (parses : m.raised (.global 7 type none bound) = none) :
      m.Orderly (.global 7 type none bound) := by
    refine ⟨parses, fun id type' props bound' same made _ text held => ?_⟩
    cases same
    cases absent.symm.trans held
  have announcedNode : Run (Guarded (fun m c => some (m.call c).1) Orderly) {} (reusedId.take 1) _ :=
    Run.single ⟨free _ (by decide) _ _ rfl, rfl⟩
  have informed : Run (Guarded (fun m c => some (m.call c).1) Orderly) {} (reusedId.take 2) _ :=
    Run.next announcedNode ⟨⟨rfl, by simp⟩, rfl⟩
  have removed : Run (Guarded (fun m c => some (m.call c).1) Orderly) {} (reusedId.take 3) _ :=
    Run.next informed ⟨⟨rfl, by simp⟩, rfl⟩
  have run : Run (Guarded (fun m c => some (m.call c).1) Orderly) {} reusedId (replay reusedId) :=
    Run.next removed ⟨free _ (by decide) _ _ rfl, rfl⟩
  obtain ⟨book, unknown⟩ := registry_bookkeeping run
  have other : (8 : UInt32) ∉ (replay reusedId).idTypes := by decide
  exact ⟨book, unknown (.nodeInfo 8 none) other⟩

end RegistryMonitor

end PwDart
