import PwDart.RegistryWellFormed

namespace PwDart

/-- The entry an event is about and what it says of it: the new record, or that it is gone. -/
def GraphEvent.news : GraphEvent → Option ((Kind × UInt32) × Option ObjectInfo)
  | nodeAdded info | nodeInfoChanged info => some ((.node, info.id), some (.node info))
  | nodeRemoved id => some ((.node, id), none)
  | portAdded info => some ((.port, info.id), some (.port info))
  | portRemoved id => some ((.port, id), none)
  | linkAdded info | linkStateChanged info => some ((.link, info.id), some (.link info))
  | linkRemoved id => some ((.link, id), none)
  | paramChanged _ _ _ => none

namespace RegistryMonitor

/-- The entry a callback writes or erases, in the state it finds. -/
def target (m : RegistryMonitor) : Callback → Option (Kind × UInt32)
  | .global id type props _ => (announced id type props).map fun object => (object.kind, id)
  | .globalRemove id => (m.idTypes[id]?.bind Kind.ofText).map fun kind => (kind, id)
  | c => c.infoTarget.filter fun key => (m.record key.1 key.2).isSome

theorem events_onGlobalRemove {m : RegistryMonitor} {id : UInt32} {kind : Kind}
    (typed : m.idTypes[id]? = some kind.text) :
    (kind = .device ∧ (m.onGlobalRemove id).2 = []) ∨
      (kind ≠ .device ∧ ∃ event, (m.onGlobalRemove id).2 = [event] ∧
        event.news = some ((kind, id), none)) := by
  simp only [onGlobalRemove, typed]
  cases kind <;> simp [eraseRecord, Kind.text, GraphEvent.news]

theorem infoEvent_news {old new : ObjectInfo} (same : new.kind = old.kind) :
    (new.kind = .device ∧ old.infoEvent new = []) ∨
      (new.kind ≠ .device ∧ ∃ event, old.infoEvent new = [event] ∧
        event.news = some ((new.kind, new.id), some new)) := by
  cases old <;> cases new <;>
    simp only [ObjectInfo.kind, reduceCtorEq] at same <;>
    simp only [ObjectInfo.kind, ObjectInfo.infoEvent] <;> grind [GraphEvent.news, ObjectInfo.id]

theorem target_info {m : RegistryMonitor} {c : Callback} {kind : Kind} {id : UInt32}
    (about : c.infoTarget = some (kind, id)) :
    m.target c = if (m.record kind id).isSome then some (kind, id) else none := by
  have targeted : m.target c = c.infoTarget.filter fun key => (m.record key.1 key.2).isSome := by
    cases c with
    | global | globalRemove => simp [Callback.infoTarget] at about
    | nodeInfo | portInfo | linkInfo | deviceInfo => rfl
  simp [targeted, about, Option.filter_some]

/-- What a callback does to the records and what it posts. -/
theorem call_effect {m : RegistryMonitor} (wf : m.WellFormed) (c : Callback) :
    (m.target c = none ∧ (m.call c).2 = [] ∧ ∀ k i, (m.call c).1.record k i = m.record k i) ∨
      ∃ kind id, m.target c = some (kind, id) ∧
        (∀ k i, ¬(k = kind ∧ i = id) → (m.call c).1.record k i = m.record k i) ∧
        (((m.call c).2 = [] ∧ (kind = .device ∨
            (c.infoTarget = none ∧ ((m.call c).1.record kind id).isSome))) ∨
          ∃ event, (m.call c).2 = [event] ∧
            event.news = some ((kind, id), (m.call c).1.record kind id)) := by
  by_cases about : c.infoTarget = none
  · cases c with
    | global id type props bound =>
      have records := record_onGlobal m id type props bound
      cases found : announced id type props with
      | none => exact Or.inl ⟨by simp [target, found], rfl, fun k i => by simp [call, records, found]⟩
      | some object =>
        refine Or.inr ⟨object.kind, id, by simp [target, found], fun k i other => ?_,
          Or.inl ⟨rfl, Or.inr ⟨rfl, by simp [call, records, found]⟩⟩⟩
        simp only [call, records, found]
        exact if_neg fun here => other ⟨here.1.symm, here.2.symm⟩
    | globalRemove id =>
      have records := record_onGlobalRemove m id
      cases hid : m.idTypes[id]? with
      | none => exact Or.inl ⟨by simp [target, hid], by simp [call, onGlobalRemove, hid],
          fun k i => by simp [call, records, hid]⟩
      | some text =>
        obtain ⟨kind, rfl⟩ := wf.typed id text hid
        refine Or.inr ⟨kind, id, by simp [target, hid, Kind.ofText_text], fun k i other => ?_, ?_⟩
        · simp only [call, records, hid, Option.some.injEq]
          refine if_neg fun here => other ⟨?_, here.2.symm⟩
          exact (Option.some.inj (by rw [← Kind.ofText_text kind, here.1, Kind.ofText_text])).symm
        · have gone : (m.onGlobalRemove id).1.record kind id = none := by simp [records, hid]
          simp only [call, gone]
          rcases events_onGlobalRemove hid with ⟨device, none⟩ | ⟨_, event, posted, news⟩
          · exact Or.inl ⟨none, Or.inl device⟩
          · exact Or.inr ⟨event, posted, news⟩
    | nodeInfo | portInfo | linkInfo | deviceInfo =>
      refine Or.inl ⟨by simp [target, about], ?_⟩
      rw [call_info_null about (by simp) (by simp)]
      simp
  · obtain ⟨⟨kind, id⟩, about⟩ := Option.ne_none_iff_exists'.mp about
    have targeted := target_info (m := m) about
    cases found : m.record kind id with
    | none =>
      refine Or.inl ⟨by simp [targeted, found], ?_⟩
      rw [call_info_none about found]
      simp
    | some old =>
      obtain ⟨new, hnew, posted, _, _, records⟩ := call_info_some about found
      obtain ⟨sameId, sameKind⟩ := update_id_kind hnew
      have here : (m.call c).1.record kind id = some new := by simp [records]
      have hkind : new.kind = kind := record_kind here
      have hid : new.id = id := by rw [sameId]; exact wf.keyed kind id old found
      refine Or.inr ⟨kind, id, by simp [targeted, found],
        fun k i other => by rw [records]; exact if_neg other, ?_⟩
      rw [posted, here]
      rcases infoEvent_news sameKind with ⟨device, none⟩ | ⟨_, event, one, news⟩
      · exact Or.inl ⟨none, Or.inl (hkind ▸ device)⟩
      · exact Or.inr ⟨event, one, by rw [news, hkind, hid]⟩

/-- Only a global makes a record where there was none. -/
theorem record_unannounced {m : RegistryMonitor} {kind : Kind} {id : UInt32} {c : Callback}
    (gone : m.record kind id = none) (unannounced : ∀ type props bound, c ≠ .global id type props bound) :
    (m.call c).1.record kind id = none := by
  cases about : c.infoTarget with
  | some key =>
    obtain ⟨k, i⟩ := key
    cases found : m.record k i with
    | none => rw [call_info_none about found]; exact gone
    | some old =>
      obtain ⟨new, _, _, _, _, records⟩ := call_info_some about found
      rw [records, if_neg, gone]
      rintro ⟨rfl, rfl⟩
      simp [gone] at found
  | none =>
    cases c with
    | global i type props bound =>
      have apart : i ≠ id := fun same => unannounced type props bound (by rw [same])
      simp only [call, record_onGlobal, apart, and_false, if_false]
      split <;> exact gone
    | globalRemove i => simp [call, record_onGlobalRemove, gone]
    | nodeInfo | portInfo | linkInfo | deviceInfo =>
      rw [call_info_null about (by simp) (by simp)]
      exact gone

theorem target_about {m : RegistryMonitor} {c : Callback} {kind : Kind} {id : UInt32}
    (h : m.target c = some (kind, id)) :
    c.infoTarget = some (kind, id) ∨ c.lifetimeOf = some id := by
  cases about : c.infoTarget with
  | some key =>
    obtain ⟨k, i⟩ := key
    rw [target_info about] at h
    split at h
    next => exact Or.inl h
    next => simp at h
  | none =>
    right
    cases c with
    | global i type props bound =>
      obtain ⟨object, _, same⟩ := Option.map_eq_some_iff.mp h
      exact congrArg some (Prod.mk.inj same).2
    | globalRemove i =>
      obtain ⟨k, _, same⟩ := Option.map_eq_some_iff.mp h
      exact congrArg some (Prod.mk.inj same).2
    | nodeInfo | portInfo | linkInfo | deviceInfo =>
      simp [target, about] at h

/-- An info callback writes its entry whenever the entry is there afterwards. -/
theorem target_of_info {m : RegistryMonitor} {c : Callback} {kind : Kind} {id : UInt32}
    (about : c.infoTarget = some (kind, id)) (present : ((m.call c).1.record kind id).isSome) :
    m.target c = some (kind, id) := by
  rw [target_info about, if_pos]
  cases found : m.record kind id with
  | some _ => rfl
  | none => rw [call_info_none about found, found] at present; simp at present

/-- A callback about other entries leaves a record as it was. -/
theorem record_unrelated {m : RegistryMonitor} (wf : m.WellFormed) {c : Callback} {kind : Kind}
    {id : UInt32} (notInfo : c.infoTarget ≠ some (kind, id)) (sameLife : c.lifetimeOf ≠ some id) :
    (m.call c).1.record kind id = m.record kind id := by
  rcases call_effect wf c with ⟨_, _, same⟩ | ⟨k, i, key, others, _⟩
  · exact same kind id
  · refine others kind id ?_
    rintro ⟨rfl, rfl⟩
    exact (target_about key).elim notInfo sameLife

theorem record_after_global (pre : List Callback) {id : UInt32} {type : Option String}
    {props : Option SpaDict} {made : ObjectInfo} (announces : announced id type props = some made)
    (bound : Option PwProxy) :
    (replay (pre ++ [.global id type props bound])).record made.kind id = some made := by
  rw [replay_append_singleton]
  simp [call, record_onGlobal, announces]

theorem replay_append_append_singleton (before x : List Callback) (c : Callback) :
    replay (before ++ (x ++ [c])) = ((replay (before ++ x)).call c).1 := by
  rw [← List.append_assoc, replay_append_singleton]

end RegistryMonitor

end PwDart
