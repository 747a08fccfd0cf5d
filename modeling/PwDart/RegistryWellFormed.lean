import PwDart.RegistryCalls

namespace PwDart

def ObjectInfo.id : ObjectInfo → UInt32
  | node info => info.id
  | port info => info.id
  | link info => info.id
  | device info => info.id

structure RegistryMonitor.WellFormed (m : RegistryMonitor) : Prop where
  typed : ∀ (id : UInt32) (type : String), m.idTypes[id]? = some type → ∃ kind : Kind, type = kind.text
  keyed : ∀ kind id object, m.record kind id = some object → object.id = id

theorem announced_cases {id : UInt32} {type : Option String} {props : Option SpaDict}
    {made : ObjectInfo} (h : announced id type props = some made) :
    made = .node (newNodeInfo id props) ∨ (∃ info, newPortInfo id props = .ok info ∧ made = .port info) ∨
      (∃ info, newLinkInfo id props = .ok info ∧ made = .link info) ∨
      made = .device (newDeviceInfo id props) := by
  unfold announced at h
  split at h
  next => exact Or.inl (Option.some.inj h).symm
  next =>
    split at h
    next =>
      cases parsed : newPortInfo id props with
      | error e => simp [parsed, Except.toOption] at h
      | ok info => exact Or.inr (Or.inl ⟨info, rfl, by simpa [parsed, Except.toOption] using h.symm⟩)
    next =>
      split at h
      next =>
        cases parsed : newLinkInfo id props with
        | error e => simp [parsed, Except.toOption] at h
        | ok info =>
          exact Or.inr (Or.inr (Or.inl ⟨info, rfl, by simpa [parsed, Except.toOption] using h.symm⟩))
      next =>
        split at h
        next => exact Or.inr (Or.inr (Or.inr (Option.some.inj h).symm))
        next => simp at h

theorem newPortInfo_ok {id : UInt32} {props : Option SpaDict} {info : PortInfo}
    (parsed : newPortInfo id props = .ok info) : info.id = id := by
  obtain ⟨_, _, rfl⟩ := newPortInfo_eq_ok.mp parsed
  rfl

theorem newLinkInfo_ok {id : UInt32} {props : Option SpaDict} {info : LinkInfo}
    (parsed : newLinkInfo id props = .ok info) : info.id = id ∧ info.state = "init" := by
  obtain ⟨_, _, _, _, _, _, _, _, rfl⟩ := newLinkInfo_eq_ok.mp parsed
  exact ⟨rfl, rfl⟩

theorem announced_id {id : UInt32} {type : Option String} {props : Option SpaDict}
    {made : ObjectInfo} (h : announced id type props = some made) : made.id = id := by
  rcases announced_cases h with rfl | ⟨info, parsed, rfl⟩ | ⟨info, parsed, rfl⟩ | rfl
  · rfl
  · exact newPortInfo_ok parsed
  · exact (newLinkInfo_ok parsed).1
  · rfl

theorem update_id_kind {old new : ObjectInfo} {c : Callback} (h : old.update c = some new) :
    new.id = old.id ∧ new.kind = old.kind := by
  unfold ObjectInfo.update at h
  split at h
  next old _ info =>
    cases Option.some.inj h
    simp only [ObjectInfo.id, ObjectInfo.kind, NodeInfo.update, NodeInfo.mergeProps]
    cases info.props <;> simp
  next old _ info =>
    cases Option.some.inj h
    simp only [ObjectInfo.id, ObjectInfo.kind, PortInfo.update, PortInfo.mergeProps]
    cases info.props <;> simp
  next => cases Option.some.inj h; simp [ObjectInfo.id, ObjectInfo.kind, LinkInfo.update]
  next old _ info =>
    cases Option.some.inj h
    simp only [ObjectInfo.id, ObjectInfo.kind, DeviceInfo.mergeProps]
    cases info.props <;> simp
  next => simp at h

namespace RegistryMonitor

theorem record_kind {m : RegistryMonitor} {kind : Kind} {id : UInt32} {object : ObjectInfo}
    (h : m.record kind id = some object) : object.kind = kind := by
  cases kind <;> simp only [record, Option.map_eq_some_iff] at h <;> obtain ⟨_, _, rfl⟩ := h <;> rfl

theorem wellFormed_empty : WellFormed {} := by
  constructor
  · intro id type h
    simp at h
  · intro kind id object h
    cases kind <;> simp [record] at h

theorem idTypes_onGlobal (m : RegistryMonitor) (id : UInt32) (type : Option String)
    (props : Option SpaDict) (bound : Option PwProxy) :
    (m.onGlobal id type props bound).1.idTypes = m.idTypes ∨
      ∃ kind : Kind, (m.onGlobal id type props bound).1.idTypes = m.idTypes.insert id kind.text := by
  unfold onGlobal
  split
  next => exact Or.inr ⟨.node, rfl⟩
  next =>
    split
    next => split <;> exact Or.inr ⟨.port, rfl⟩
    next =>
      split
      next => split <;> exact Or.inr ⟨.link, rfl⟩
      next =>
        split
        next => exact Or.inr ⟨.device, rfl⟩
        next => exact Or.inl rfl

theorem idTypes_onGlobalRemove (m : RegistryMonitor) (id : UInt32) :
    (m.onGlobalRemove id).1.idTypes = m.idTypes.erase id := by
  unfold onGlobalRemove
  cases h : m.idTypes[id]? with
  | none =>
    refine Std.ExtTreeMap.ext_getElem? fun i => ?_
    by_cases hi : id = i
    · subst hi; simp [h]
    · simp [Std.ExtTreeMap.getElem?_erase, hi]
  | some type => rfl

theorem proxies_onGlobalRemove (m : RegistryMonitor) (id : UInt32) :
    (m.onGlobalRemove id).1.proxies = if (m.idTypes[id]?).isSome then m.proxies.erase id
      else m.proxies := by
  unfold onGlobalRemove
  cases m.idTypes[id]? with
  | none => simp
  | some type => simp

theorem onGlobal_announced {id : UInt32} {type : Option String} {props : Option SpaDict} {made : ObjectInfo}
    (announces : announced id type props = some made) (m : RegistryMonitor) (bound : Option PwProxy) :
    (m.onGlobal id type props bound).1.idTypes = m.idTypes.insert id made.kind.text ∧
      (m.onGlobal id type props bound).1.proxies = m.proxies.insert id (newProxyData id made.kind.text bound) := by
  unfold announced at announces
  unfold onGlobal
  split at announces
  next h =>
    cases Option.some.inj announces
    rw [if_pos h]
    exact ⟨rfl, rfl⟩
  next h =>
    rw [if_neg h]
    split at announces
    next h =>
      rw [if_pos h]
      cases parsed : newPortInfo id props with
      | error e => simp [parsed, Except.toOption] at announces
      | ok info =>
        rw [parsed] at announces
        cases Option.some.inj announces
        exact ⟨rfl, rfl⟩
    next h =>
      rw [if_neg h]
      split at announces
      next h =>
        rw [if_pos h]
        cases parsed : newLinkInfo id props with
        | error e => simp [parsed, Except.toOption] at announces
        | ok info =>
          rw [parsed] at announces
          cases Option.some.inj announces
          exact ⟨rfl, rfl⟩
      next h =>
        rw [if_neg h]
        split at announces
        next h =>
          cases Option.some.inj announces
          rw [if_pos h]
          exact ⟨rfl, rfl⟩
        next => cases announces

/-- An info callback leaves types and proxies alone. -/
theorem keys_info {m : RegistryMonitor} {c : Callback}
    (notGlobal : ∀ id type props bound, c ≠ .global id type props bound) (notRemove : ∀ id, c ≠ .globalRemove id) :
    (m.call c).1.idTypes = m.idTypes ∧ (m.call c).1.proxies = m.proxies := by
  cases about : c.infoTarget with
  | none =>
    rw [call_info_null about notGlobal notRemove]
    exact ⟨rfl, rfl⟩
  | some target =>
    obtain ⟨kind, id⟩ := target
    cases found : m.record kind id with
    | none =>
      rw [call_info_none about found]
      exact ⟨rfl, rfl⟩
    | some old =>
      obtain ⟨_, _, _, types, proxies, _⟩ := call_info_some about found
      exact ⟨types, proxies⟩

theorem wellFormed_call {m : RegistryMonitor} (wf : m.WellFormed) (c : Callback) :
    (m.call c).1.WellFormed := by
  by_cases about : c.infoTarget = none
  · cases c with
    | global id type props bound =>
      constructor
      · intro i text h
        change (m.onGlobal id type props bound).1.idTypes[i]? = some text at h
        rcases idTypes_onGlobal m id type props bound with same | ⟨kind, inserted⟩
        · rw [same] at h; exact wf.typed i text h
        · rw [inserted] at h
          by_cases hi : id = i
          · subst hi; exact ⟨kind, by simpa using h.symm⟩
          · exact wf.typed i text (by simpa [Std.ExtTreeMap.getElem?_insert, hi] using h)
      · intro kind i object h
        change (m.onGlobal id type props bound).1.record kind i = some object at h
        rw [record_onGlobal] at h
        split at h
        next found hfound =>
          split at h
          next here => cases Option.some.inj h; rw [← here.2]; exact announced_id hfound
          next => exact wf.keyed kind i object h
        next => exact wf.keyed kind i object h
    | globalRemove id =>
      constructor
      · intro i text h
        change (m.onGlobalRemove id).1.idTypes[i]? = some text at h
        rw [idTypes_onGlobalRemove] at h
        by_cases hi : id = i
        · subst hi; simp at h
        · exact wf.typed i text (by simpa [Std.ExtTreeMap.getElem?_erase, hi] using h)
      · intro kind i object h
        change (m.onGlobalRemove id).1.record kind i = some object at h
        rw [record_onGlobalRemove] at h
        split at h
        next => simp at h
        next => exact wf.keyed kind i object h
    | nodeInfo | portInfo | linkInfo | deviceInfo =>
      rw [call_info_null about (by simp) (by simp)]
      exact wf
  · obtain ⟨⟨kind, id⟩, about⟩ := Option.ne_none_iff_exists'.mp about
    cases found : m.record kind id with
    | none => rw [call_info_none about found]; exact wf
    | some old =>
      obtain ⟨new, hnew, _, types, _, records⟩ := call_info_some about found
      constructor
      · rw [types]; exact wf.typed
      · intro k i object h
        rw [records] at h
        split at h
        next here =>
          cases Option.some.inj h
          rw [(update_id_kind hnew).1, here.2]
          exact wf.keyed kind id old found
        next => exact wf.keyed k i object h

theorem wellFormed_replay (calls : List Callback) : (replay calls).WellFormed := by
  induction calls using List.reverseRecOn with
  | nil => exact wellFormed_empty
  | append_singleton calls c ih => rw [replay_append_singleton]; exact wellFormed_call ih c

end RegistryMonitor

end PwDart
