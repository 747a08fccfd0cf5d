import PwDart.TeardownHeld

namespace PwDart

open ObjectTrace

theorem ledger_destroyCalls {holds listens : PwObject → Prop} {next : Nat} {trace : List PwCall}
    {heap : Heap PwObject PwObject} (h : Ledger holds listens next trace heap) {data : ProxyData}
    (hooked : data.listener = data.proxy.isSome)
    (held : ∀ p, data.proxy = some p → holds ⟨.proxy, p⟩ ∧ listens ⟨.proxy, p⟩ ∧ p < next) :
    ∃ heap', Ledger (fun o => holds o ∧ ¬data.Has o) (fun o => listens o ∧ ¬data.Has o) next
      (trace ++ data.destroyCalls) heap' := by
  cases bound : data.proxy with
  | none =>
    refine ⟨heap, (h.congr (fun o _ => ?_) fun o here => here.1).trace_eq ?_⟩
    · simp [ProxyData.Has, bound]
    · simp [ProxyData.destroyCalls, bound]
  | some p =>
    rw [bound] at hooked
    obtain ⟨here, listening, old⟩ := held p bound
    have live := (h.live ⟨.proxy, p⟩ (by simp)).mpr here
    have last : ∀ q, holds q → goesBefore q ⟨.proxy, p⟩ = false := by
      rintro ⟨kind, number⟩ _
      cases kind <;> rfl
    have unlinked := h.hookRemove live listening
    have gone := unlinked.destroy live (by simp) last
    have freed := gone.freeHook listening old (Or.inl (by simp))
    have other (o : PwObject) : data.Has o ↔ o = ⟨.proxy, p⟩ := by
      obtain ⟨kind, number⟩ := o
      simp [ProxyData.Has, bound, eq_comm]
    refine ⟨_, (freed.congr (fun o _ => ?_) fun o still => ?_).trace_eq ?_⟩
    · rw [other]
    · rw [other] at still
      exact still
    · simp [ProxyData.destroyCalls, bound, hooked]

theorem ledger_destroyAll {datas : List ProxyData} (apart : datas.Pairwise fun a b => a.proxy = b.proxy → a.proxy = none)
    (hooked : ∀ data ∈ datas, data.listener = data.proxy.isSome) {holds listens : PwObject → Prop} {next : Nat}
    {trace : List PwCall} {heap : Heap PwObject PwObject} (h : Ledger holds listens next trace heap)
    (held : ∀ data ∈ datas, ∀ p, data.proxy = some p → holds ⟨.proxy, p⟩ ∧ listens ⟨.proxy, p⟩ ∧ p < next) :
    ∃ heap', Ledger (fun o => holds o ∧ ∀ data ∈ datas, ¬data.Has o) (fun o => listens o ∧ ∀ data ∈ datas, ¬data.Has o)
      next (trace ++ datas.flatMap ProxyData.destroyCalls) heap' := by
  induction datas generalizing holds listens trace heap with
  | nil =>
    refine ⟨heap, (h.congr (fun o _ => ?_) fun o here => here.1).trace_eq (by simp)⟩
    simp
  | cons data datas ih =>
    obtain ⟨others, apart⟩ := List.pairwise_cons.mp apart
    obtain ⟨mid, first⟩ := ledger_destroyCalls h (hooked data (List.mem_cons_self ..))
      (held data (List.mem_cons_self ..))
    have still : ∀ d ∈ datas, ∀ p, d.proxy = some p → ¬data.Has ⟨.proxy, p⟩ := by
      rintro d hd p bound ⟨_, same⟩
      have none := others d hd (same.trans bound.symm)
      rw [none] at same
      cases same
    obtain ⟨heap', rest⟩ := ih apart (fun d hd => hooked d (List.mem_cons_of_mem _ hd)) first (by
      intro d hd p bound
      obtain ⟨here, listening, old⟩ := held d (List.mem_cons_of_mem _ hd) p bound
      exact ⟨⟨here, still d hd p bound⟩, ⟨listening, still d hd p bound⟩, old⟩)
    refine ⟨heap', (rest.congr (fun o _ => ?_) fun o here => ?_).trace_eq (by simp)⟩
    · simp only [List.forall_mem_cons, and_assoc]
    · simpa only [List.forall_mem_cons, and_assoc] using here

/-- What `on_global` does to `proxies_`, and to `id_types_` with it. -/
theorem proxies_onGlobal (m : RegistryMonitor) (id : UInt32) (type : Option String) (props : Option SpaDict)
    (bound : Option PwProxy) :
    (bindsType type = false → (m.onGlobal id type props bound).1.proxies = m.proxies) ∧
      ((m.onGlobal id type props bound).2 ≠ none → (m.onGlobal id type props bound).1.proxies = m.proxies) ∧
      (bindsType type = true → (m.onGlobal id type props bound).2 = none → ∃ text,
        (m.onGlobal id type props bound).1.proxies = m.proxies.insert id (newProxyData id text bound) ∧
          (m.onGlobal id type props bound).1.idTypes = m.idTypes.insert id text) := by
  unfold bindsType RegistryMonitor.onGlobal
  split
  next node => simpa [node] using ⟨"node", rfl, rfl⟩
  next node =>
    split
    next port =>
      split
      next => simp [port]
      next => simpa [port] using ⟨"port", rfl, rfl⟩
    next port =>
      split
      next link =>
        split
        next => simp [link]
        next => simpa [link] using ⟨"link", rfl, rfl⟩
      next link =>
        split
        next device => simpa [device] using ⟨"device", rfl, rfl⟩
        next device => simp [node, port, link, device]

theorem boundProxies_empty (next : Nat) : BoundProxies {} next where
  older id data p h := by simp at h
  apart id other data data' h := by simp at h
  hooked id data h := by simp at h

theorem BoundProxies.mono {m : RegistryMonitor} {next next' : Nat} (h : BoundProxies m next) (le : next ≤ next') :
    BoundProxies m next' :=
  { h with older := fun id data p held own => Nat.lt_of_lt_of_le (h.older id data p held own) le }

theorem boundProxies_of_sub {m m' : RegistryMonitor} {next : Nat} (h : BoundProxies m next)
    (sub : ∀ (id : UInt32) (data : ProxyData), m'.proxies[id]? = some data → m.proxies[id]? = some data) :
    BoundProxies m' next where
  older id data p held := h.older id data p (sub id data held)
  apart id other data data' held held' := h.apart id other data data' (sub id data held) (sub other data' held')
  hooked id data held := h.hooked id data (sub id data held)

theorem boundProxies_insert {m m' : RegistryMonitor} {next : Nat} (h : BoundProxies m next) {id : UInt32}
    {text : String} {bound : Option PwProxy} (fresh : bound = none ∨ bound = some next)
    (inserted : m'.proxies = m.proxies.insert id (newProxyData id text bound)) : BoundProxies m' (next + 1) := by
  have entry {i : UInt32} {data : ProxyData} (held : m'.proxies[i]? = some data) :
      (i = id ∧ data = newProxyData id text bound) ∨ m.proxies[i]? = some data := by
    rw [inserted, Std.ExtTreeMap.getElem?_insert] at held
    split at held
    next same =>
      have eq : id = i := by simpa using same
      exact Or.inl ⟨eq.symm, (Option.some.inj held).symm⟩
    next => exact Or.inr held
  have new {i : UInt32} {data : ProxyData} (held : m.proxies[i]? = some data) (some : data.proxy ≠ none) :
      data.proxy ≠ bound := by
    rcases fresh with rfl | rfl
    · exact some
    · intro own
      exact absurd (h.older i data next held own) (Nat.lt_irrefl _)
  refine ⟨?_, ?_, ?_⟩
  · intro i data p held own
    rcases entry held with ⟨_, rfl⟩ | old
    · rcases fresh with rfl | rfl
      · cases own
      · cases Option.some.inj own
        exact Nat.lt_succ_self next
    · exact Nat.lt_succ_of_lt (h.older i data p old own)
  · intro i j data data' held held' same some
    rcases entry held with ⟨rfl, rfl⟩ | old
    · rcases entry held' with ⟨rfl, rfl⟩ | old'
      · rfl
      · exact absurd same.symm (new old' (by rw [← same]; exact some))
    · rcases entry held' with ⟨rfl, rfl⟩ | old'
      · exact absurd same (new old some)
      · exact h.apart i j data data' old old' same some
  · intro i data held
    rcases entry held with ⟨_, rfl⟩ | old
    · rfl
    · exact h.hooked i data old

theorem boundProxies_onGlobal {m : RegistryMonitor} {next : Nat} (h : BoundProxies m next) (id : UInt32)
    (type : Option String) (props : Option SpaDict) {bound : Option PwProxy}
    (fresh : bound = none ∨ bound = some next) : BoundProxies (m.onGlobal id type props bound).1 (next + 1) := by
  obtain ⟨other, threw, inserted⟩ := proxies_onGlobal m id type props bound
  cases binds : bindsType type with
  | false => exact boundProxies_of_sub (h.mono (Nat.le_succ _)) (by rw [other binds]; simp)
  | true =>
    by_cases ok : (m.onGlobal id type props bound).2 = none
    · obtain ⟨text, inserted, _⟩ := inserted binds ok
      exact boundProxies_insert h fresh inserted
    · exact boundProxies_of_sub (h.mono (Nat.le_succ _)) (by rw [threw ok]; simp)

theorem boundProxies_onGlobalRemove {m : RegistryMonitor} {next : Nat} (h : BoundProxies m next) (id : UInt32) :
    BoundProxies (m.onGlobalRemove id).1 next := by
  refine boundProxies_of_sub h fun i data held => ?_
  rw [RegistryMonitor.proxies_onGlobalRemove] at held
  split at held
  next =>
    rw [Std.ExtTreeMap.getElem?_erase] at held
    split at held
    next => cases held
    next => exact held
  next => exact held

namespace TracedClient

theorem holds_of_entry {s : TracedClient} {m : RegistryMonitor} (monitor : s.monitor = some m)
    (bound : BoundProxies m s.next) {id : UInt32} {data : ProxyData} (held : m.proxies[id]? = some data) :
    ∀ p, data.proxy = some p → s.Holds ⟨.proxy, p⟩ ∧ s.Listens ⟨.proxy, p⟩ ∧ p < s.next := by
  intro p own
  have has : s.HasProxy ⟨.proxy, p⟩ := ⟨m, monitor, id, data, held, rfl, own⟩
  exact ⟨has, has, bound.older id data p held own⟩

theorem apart_entries {m : RegistryMonitor} {next : Nat} (bound : BoundProxies m next) :
    (m.proxies.toList.map Prod.snd).Pairwise fun a b => a.proxy = b.proxy → a.proxy = none := by
  rw [List.pairwise_map]
  refine (Std.ExtTreeMap.distinct_keys_toList (t := m.proxies)).imp_of_mem ?_
  intro a b ha hb distinct sameProxy
  by_contra some
  have sameId := bound.apart a.1 b.1 a.2 b.2 (Std.ExtTreeMap.mem_toList_iff_getElem?_eq_some.mp ha)
    (Std.ExtTreeMap.mem_toList_iff_getElem?_eq_some.mp hb) sameProxy some
  exact distinct (Std.LawfulEqCmp.compare_eq_iff_eq.mpr sameId)

theorem mem_entries {m : RegistryMonitor} {data : ProxyData} :
    data ∈ m.proxies.toList.map Prod.snd ↔ ∃ id : UInt32, m.proxies[id]? = some data := by
  simp only [List.mem_map, Prod.exists, Std.ExtTreeMap.mem_toList_iff_getElem?_eq_some, exists_eq_right]

theorem holds_of_proxy {s : TracedClient} {o : PwObject} (proxy : o.kind = .proxy) : s.Holds o ↔ s.HasProxy o := by
  simp [Holds, proxy]

theorem listens_of_proxy {s : TracedClient} {o : PwObject} (proxy : o.kind = .proxy) : s.Listens o ↔ s.HasProxy o := by
  simp [Listens, proxy]

/-- Only the proxies of the client have changed, to what the ledger says of them. -/
theorem tidy_of_proxies {s t : TracedClient} {heap : Heap PwObject PwObject} {holds listens : PwObject → Prop}
    (h : Ledger holds listens t.next t.trace heap)
    (frame : { t with monitor := s.monitor, next := s.next, trace := s.trace } = s)
    (others : ∀ o, o.kind ≠ .proxy → (holds o ↔ s.Holds o) ∧ (listens o ↔ s.Listens o))
    (proxies : ∀ o, o.kind = .proxy → (holds o ↔ t.HasProxy o) ∧ (t.HasProxy o → listens o)) : t.Tidy := by
  refine ⟨heap, h.congr (fun o _ => ?_) fun o here => ?_⟩
  · by_cases proxy : o.kind = .proxy
    · exact (holds_of_proxy proxy).trans (proxies o proxy).1.symm
    · have same : t.Holds o ↔ s.Holds o := by
        rw [← frame]
        cases kind : o.kind <;> simp_all [Holds]
      exact same.trans (others o proxy).1.symm
  · by_cases proxy : o.kind = .proxy
    · exact (proxies o proxy).2 ((listens_of_proxy proxy).mp here)
    · have same : t.Listens o ↔ s.Listens o := by
        rw [← frame]
        cases kind : o.kind <;> simp_all [Listens]
      exact (others o proxy).2.mpr (same.mp here)

/-- `proxies_.clear()`. -/
theorem tidy_clear {s : TracedClient} (h : s.Tidy) {m : RegistryMonitor} (monitor : s.monitor = some m)
    (bound : BoundProxies m s.next) :
    Tidy { s.emit (m.proxies.toList.flatMap fun entry => entry.2.destroyCalls) with monitor := none } := by
  obtain ⟨heap, h⟩ := h
  have hooked : ∀ data ∈ m.proxies.toList.map Prod.snd, data.listener = data.proxy.isSome := by
    intro data hd
    obtain ⟨id, held⟩ := mem_entries.mp hd
    exact bound.hooked id data held
  have held : ∀ data ∈ m.proxies.toList.map Prod.snd, ∀ p, data.proxy = some p →
      s.Holds ⟨.proxy, p⟩ ∧ s.Listens ⟨.proxy, p⟩ ∧ p < s.next := by
    intro data hd
    obtain ⟨id, held⟩ := mem_entries.mp hd
    exact holds_of_entry monitor bound held
  obtain ⟨heap', cleared⟩ := ledger_destroyAll (apart_entries bound) hooked h held
  have none (o : PwObject) (proxy : s.HasProxy o) : ¬∀ data ∈ m.proxies.toList.map Prod.snd, ¬data.Has o := by
    obtain ⟨m', same, id, data, here, has⟩ := proxy
    cases monitor.symm.trans same
    exact fun all => all data (mem_entries.mpr ⟨id, here⟩) has
  refine tidy_of_proxies (s := s) (cleared.trace_eq (by simp [emit, List.flatMap_map])) rfl ?_ fun o proxy => ⟨?_, ?_⟩
  · intro o notProxy
    simp [ProxyData.Has, notProxy]
  · refine iff_of_false (fun here => none o ((holds_of_proxy proxy).mp here.1) here.2) ?_
    rintro ⟨_, ⟨⟩, _⟩
  · rintro ⟨_, ⟨⟩, _⟩

/-- `~RegistryMonitor`. -/
theorem tidy_dropMonitor {s : TracedClient} (h : s.Tidy) (bound : ∀ m, s.monitor = some m → BoundProxies m s.next)
    (same : s.monitor ≠ none → s.registryListener = s.registryPw)
    (numbered : ∀ n, s.registryPw = some n → n < s.next) : s.dropMonitor.Tidy := by
  unfold dropMonitor
  cases monitor : s.monitor with
  | none => exact h
  | some m =>
    have cleared := tidy_clear h monitor (bound m monitor)
    have listener := same (by simp [monitor])
    cases held : s.registryPw with
    | none =>
      rw [held] at listener
      obtain ⟨heap, cleared⟩ := cleared
      refine ⟨heap, (cleared.congr ?_ ?_).trace_eq (by simp [emit, object, listener])⟩
      · rintro ⟨kind, number⟩ _
        cases kind <;> simp [Holds, HasProxy, emit]
      · rintro ⟨kind, number⟩
        cases kind <;> simp [Listens, HasProxy, emit]
    | some n =>
      rw [held] at listener
      refine tidy_releaseHook cleared (o := ⟨.registry, n⟩) (by simp) held listener (numbered n held) ?_ rfl ?_ ?_
      · simp [emit, object, listener]
      · rintro ⟨kind, number⟩
        cases kind <;> simp [Holds, HasProxy, emit]
      · rintro ⟨kind, number⟩
        cases kind <;> simp [Listens, HasProxy, emit]

/-- A new `ProxyData` with its listener. -/
theorem ledger_bind {s : TracedClient} {heap : Heap PwObject PwObject}
    (h : Ledger s.Holds s.Listens s.next s.trace heap) {registry : Nat} (held : s.registryPw = some registry)
    {bound : Option PwProxy} (fresh : bound = none ∨ bound = some s.next) (id : UInt32) (text : String) :
    ∃ heap', Ledger (fun o => s.Holds o ∨ (newProxyData id text bound).Has o)
      (fun o => s.Listens o ∨ (newProxyData id text bound).Has o) (s.next + 1)
      (s.trace ++ bindCalls registry bound) heap' := by
  have live : ⟨.registry, registry⟩ ∈ heap.live := (h.live _ (by simp)).mpr held
  rcases fresh with rfl | rfl
  · refine ⟨heap, ((h.use live).mono (Nat.le_succ _)).congr ?_ ?_⟩
    · rintro o _
      simp [ProxyData.Has, newProxyData]
    · rintro o
      simp [ProxyData.Has, newProxyData]
  · have made := h.create ⟨.proxy, s.next⟩ [⟨.registry, registry⟩] rfl (by simpa using live)
    have free : (⟨.proxy, s.next⟩ : PwObject) ∉ heap.freed := by
      intro freed
      exact absurd (h.freed _ freed) (Nat.lt_irrefl _)
    have linked := made.addListener (o := ⟨.proxy, s.next⟩) (by simp) free
    refine ⟨_, (linked.congr ?_ ?_).trace_eq (by simp [bindCalls])⟩
    · rintro ⟨kind, number⟩ _
      simp [ProxyData.Has, newProxyData, eq_comm]
    · rintro ⟨kind, number⟩
      simp [ProxyData.Has, newProxyData, eq_comm]

theorem unheld_of_fresh {s : TracedClient} {m : RegistryMonitor} (monitor : s.monitor = some m)
    (bound : BoundProxies m s.next) {answer : Option PwProxy} (fresh : answer = none ∨ answer = some s.next)
    {id : UInt32} {text : String} {o : PwObject} (has : (newProxyData id text answer).Has o) : ¬s.HasProxy o := by
  rintro ⟨m', same, i, data, held, _, own⟩
  cases monitor.symm.trans same
  obtain ⟨_, new⟩ := has
  rcases fresh with rfl | rfl
  · cases new
  · have number : s.next = o.number := Option.some.inj new
    have lt := bound.older i data o.number held own
    rw [number] at lt
    exact absurd lt (Nat.lt_irrefl _)

/-- The new entry takes the place of the old one of the id. -/
theorem hasProxy_insert {s t : TracedClient} {m m' : RegistryMonitor} (monitor : s.monitor = some m)
    (monitor' : t.monitor = some m') (bound : BoundProxies m s.next) {answer : Option PwProxy}
    (fresh : answer = none ∨ answer = some s.next) {id : UInt32} {text : String}
    (inserted : m'.proxies = m.proxies.insert id (newProxyData id text answer)) (o : PwObject) :
    t.HasProxy o ↔ (s.HasProxy o ∨ (newProxyData id text answer).Has o) ∧
      ∀ old, m.proxies[id]? = some old → ¬old.Has o := by
  constructor
  · rintro ⟨m'', same, i, data, held, has⟩
    cases monitor'.symm.trans same
    rw [inserted, Std.ExtTreeMap.getElem?_insert] at held
    split at held
    next =>
      cases Option.some.inj held
      refine ⟨Or.inr has, fun old before own => ?_⟩
      exact unheld_of_fresh monitor bound fresh has ⟨m, monitor, id, old, before, own⟩
    next other =>
      refine ⟨Or.inl ⟨m, monitor, i, data, held, has⟩, fun old before own => ?_⟩
      have sameProxy : data.proxy = old.proxy := has.2.trans own.2.symm
      have some : data.proxy ≠ none := by simp [has.2]
      have eq := bound.apart i id data old held before sameProxy some
      simp [eq] at other
  · rintro ⟨⟨m'', same, i, data, held, has⟩ | has, gone⟩
    · cases monitor.symm.trans same
      have other : ¬id = i := by
        rintro rfl
        exact gone data held has
      refine ⟨m', monitor', i, data, ?_, has⟩
      rw [inserted, Std.ExtTreeMap.getElem?_insert, if_neg (by simpa using other)]
      exact held
    · refine ⟨m', monitor', id, newProxyData id text answer, ?_, has⟩
      rw [inserted, Std.ExtTreeMap.getElem?_insert_self]

/-- The proxies are those they were. -/
theorem tidy_of_same {s t : TracedClient} {heap : Heap PwObject PwObject} (h : Ledger s.Holds s.Listens t.next t.trace heap)
    (frame : { t with monitor := s.monitor, next := s.next, trace := s.trace } = s)
    (same : ∀ o, t.HasProxy o ↔ s.HasProxy o) : t.Tidy :=
  tidy_of_proxies h frame (fun _ _ => ⟨Iff.rfl, Iff.rfl⟩) fun o proxy =>
    ⟨(holds_of_proxy proxy).trans (same o).symm, fun here => (listens_of_proxy proxy).mpr ((same o).mp here)⟩

theorem hasProxy_congr {s t : TracedClient} {m m' : RegistryMonitor} (monitor : s.monitor = some m)
    (monitor' : t.monitor = some m') (same : m'.proxies = m.proxies) (o : PwObject) : t.HasProxy o ↔ s.HasProxy o := by
  simp [HasProxy, monitor, monitor', same]

theorem pairwise_entry (m : RegistryMonitor) (id : UInt32) :
    m.proxies[id]?.toList.Pairwise fun a b => a.proxy = b.proxy → a.proxy = none := by
  cases m.proxies[id]? <;> simp

/-- The object is bound and takes the place of the old one of its id. -/
theorem tidy_bound {s t : TracedClient} (h : s.Tidy) {m m' : RegistryMonitor} (monitor : s.monitor = some m)
    (monitor' : t.monitor = some m') (bound : BoundProxies m s.next) {registry : Nat} (held : s.registryPw = some registry)
    {answer : Option PwProxy} (fresh : answer = none ∨ answer = some s.next) {id : UInt32} {text : String}
    (inserted : m'.proxies = m.proxies.insert id (newProxyData id text answer))
    (frame : { t with monitor := s.monitor, next := s.next, trace := s.trace } = s) (next : t.next = s.next + 1)
    (trace : t.trace = s.trace ++ bindCalls registry answer ++ m.proxies[id]?.toList.flatMap ProxyData.destroyCalls) :
    t.Tidy := by
  obtain ⟨heap, h⟩ := h
  obtain ⟨mid, made⟩ := ledger_bind h held fresh id text
  have old : ∀ data ∈ m.proxies[id]?.toList, ∀ p, data.proxy = some p →
      (s.Holds ⟨.proxy, p⟩ ∨ (newProxyData id text answer).Has ⟨.proxy, p⟩) ∧
        (s.Listens ⟨.proxy, p⟩ ∨ (newProxyData id text answer).Has ⟨.proxy, p⟩) ∧ p < s.next + 1 := by
    intro data before p own
    obtain ⟨holds, listens, lt⟩ := holds_of_entry monitor bound (Option.mem_toList.mp before) p own
    exact ⟨Or.inl holds, Or.inl listens, Nat.lt_succ_of_lt lt⟩
  have hooked : ∀ data ∈ m.proxies[id]?.toList, data.listener = data.proxy.isSome :=
    fun data before => bound.hooked id data (Option.mem_toList.mp before)
  obtain ⟨heap', replaced⟩ := ledger_destroyAll (pairwise_entry m id) hooked made old
  have proxies := hasProxy_insert monitor monitor' bound fresh inserted
  rw [← next] at replaced
  refine tidy_of_proxies (replaced.trace_eq trace) frame ?_ fun o proxy => ⟨?_, fun here => ?_⟩
  · intro o notProxy
    simp [ProxyData.Has, notProxy]
  · rw [holds_of_proxy proxy, proxies]
    simp
  · rw [listens_of_proxy proxy]
    simpa using (proxies o).mp here

/-- The registration threw: what was bound is gone again. -/
theorem tidy_unwound {s t : TracedClient} (h : s.Tidy) {m m' : RegistryMonitor} (monitor : s.monitor = some m)
    (monitor' : t.monitor = some m') (bound : BoundProxies m s.next) {registry : Nat} (held : s.registryPw = some registry)
    {answer : Option PwProxy} (fresh : answer = none ∨ answer = some s.next) (id : UInt32)
    (same : m'.proxies = m.proxies) (frame : { t with monitor := s.monitor, next := s.next, trace := s.trace } = s)
    (next : t.next = s.next + 1)
    (trace : t.trace = s.trace ++ bindCalls registry answer ++ (newProxyData id "" answer).destroyCalls) : t.Tidy := by
  obtain ⟨heap, h⟩ := h
  obtain ⟨mid, made⟩ := ledger_bind h held fresh id ""
  have own : ∀ p, (newProxyData id "" answer).proxy = some p →
      (s.Holds ⟨.proxy, p⟩ ∨ (newProxyData id "" answer).Has ⟨.proxy, p⟩) ∧
        (s.Listens ⟨.proxy, p⟩ ∨ (newProxyData id "" answer).Has ⟨.proxy, p⟩) ∧ p < s.next + 1 := by
    intro p own
    have has : (newProxyData id "" answer).Has ⟨.proxy, p⟩ := ⟨rfl, own⟩
    refine ⟨Or.inr has, Or.inr has, ?_⟩
    rcases fresh with rfl | rfl
    · cases own
    · cases Option.some.inj own
      exact Nat.lt_succ_self _
  have hooked : (newProxyData id "" answer).listener = (newProxyData id "" answer).proxy.isSome := rfl
  obtain ⟨heap', unwound⟩ := ledger_destroyCalls made hooked own
  rw [← next] at unwound
  have kept (o : PwObject) : t.HasProxy o ↔ s.HasProxy o := hasProxy_congr monitor monitor' same o
  have apart (o : PwObject) (here : s.HasProxy o) : ¬(newProxyData id "" answer).Has o :=
    fun has => unheld_of_fresh monitor bound fresh has here
  refine tidy_of_proxies (unwound.trace_eq trace) frame ?_ fun o proxy => ⟨?_, fun here => ?_⟩
  · intro o notProxy
    simp [ProxyData.Has, notProxy]
  · rw [holds_of_proxy proxy, kept]
    exact ⟨fun here => here.1.resolve_right here.2, fun here => ⟨Or.inl here, apart o here⟩⟩
  · rw [listens_of_proxy proxy]
    exact ⟨Or.inl ((kept o).mp here), apart o ((kept o).mp here)⟩

theorem tidy_global {s : TracedClient} (h : s.Tidy) {m : RegistryMonitor} (monitor : s.monitor = some m)
    (bound : BoundProxies m s.next) {registry : Nat} (held : s.registryPw = some registry) (id : UInt32)
    (type : Option String) (props : Option SpaDict) {answer : Option PwProxy}
    (fresh : answer = none ∨ answer = some s.next) :
    Tidy { s.emit (m.globalCalls registry id type props answer) with
      monitor := some (m.onGlobal id type props answer).1
      next := s.next + 1 } := by
  obtain ⟨other, threw, inserted⟩ := proxies_onGlobal m id type props answer
  cases binds : bindsType type with
  | false =>
    obtain ⟨heap, h⟩ := h
    have trace : s.trace = s.trace ++ m.globalCalls registry id type props answer := by
      simp [RegistryMonitor.globalCalls, binds]
    exact tidy_of_same ((h.mono (Nat.le_succ _)).trace_eq trace.symm) rfl (hasProxy_congr monitor rfl (other binds))
  | true =>
    by_cases ok : (m.onGlobal id type props answer).2 = none
    · obtain ⟨text, inserted, _⟩ := inserted binds ok
      exact tidy_bound h monitor rfl bound held fresh inserted rfl rfl
        (by simp [emit, RegistryMonitor.globalCalls, binds, ok])
    · exact tidy_unwound h monitor rfl bound held fresh id (threw ok) rfl rfl
        (by simp [emit, RegistryMonitor.globalCalls, binds, ok])

/-- The entry of the id leaves the proxies. -/
theorem hasProxy_erase {s t : TracedClient} {m m' : RegistryMonitor} (monitor : s.monitor = some m)
    (monitor' : t.monitor = some m') (bound : BoundProxies m s.next) {id : UInt32}
    (erased : m'.proxies = m.proxies.erase id) (o : PwObject) :
    t.HasProxy o ↔ s.HasProxy o ∧ ∀ data ∈ m.proxies[id]?.toList, ¬data.Has o := by
  constructor
  · rintro ⟨m'', same, i, data, held, has⟩
    cases monitor'.symm.trans same
    rw [erased, Std.ExtTreeMap.getElem?_erase] at held
    split at held
    next => cases held
    next other =>
      refine ⟨⟨m, monitor, i, data, held, has⟩, fun old before own => ?_⟩
      have sameProxy : data.proxy = old.proxy := has.2.trans own.2.symm
      have some : data.proxy ≠ none := by simp [has.2]
      have eq := bound.apart i id data old held (Option.mem_toList.mp before) sameProxy some
      simp [eq] at other
  · rintro ⟨⟨m'', same, i, data, held, has⟩, none⟩
    cases monitor.symm.trans same
    have other : ¬id = i := by
      rintro rfl
      exact none data (by simp [held]) has
    refine ⟨m', monitor', i, data, ?_, has⟩
    rw [erased, Std.ExtTreeMap.getElem?_erase, if_neg (by simpa using other)]
    exact held

theorem tidy_globalRemove {s : TracedClient} (h : s.Tidy) {m : RegistryMonitor} (monitor : s.monitor = some m)
    (bound : BoundProxies m s.next) (id : UInt32) :
    Tidy { s.emit (m.globalRemoveCalls id) with monitor := some (m.onGlobalRemove id).1 } := by
  obtain ⟨heap, h⟩ := h
  have erased := RegistryMonitor.proxies_onGlobalRemove m id
  cases known : (m.idTypes[id]?).isSome with
  | false =>
    rw [known, if_neg Bool.false_ne_true] at erased
    have trace : s.trace = s.trace ++ m.globalRemoveCalls id := by
      simp [RegistryMonitor.globalRemoveCalls, known]
    exact tidy_of_same (h.trace_eq trace.symm) rfl (hasProxy_congr monitor rfl erased)
  | true =>
    rw [known, if_pos rfl] at erased
    have hooked : ∀ data ∈ m.proxies[id]?.toList, data.listener = data.proxy.isSome :=
      fun data before => bound.hooked id data (Option.mem_toList.mp before)
    obtain ⟨heap', gone⟩ := ledger_destroyAll (pairwise_entry m id) hooked h fun data before =>
      holds_of_entry monitor bound (Option.mem_toList.mp before)
    have trace : s.trace ++ m.globalRemoveCalls id = s.trace ++ m.proxies[id]?.toList.flatMap ProxyData.destroyCalls := by
      simp [RegistryMonitor.globalRemoveCalls, known]
    have proxies := hasProxy_erase (t := { s.emit (m.globalRemoveCalls id) with
      monitor := some (m.onGlobalRemove id).1 }) monitor rfl bound erased
    refine tidy_of_proxies (s := s) (gone.trace_eq trace) rfl ?_ fun o proxy => ⟨?_, fun here => ?_⟩
    · intro o notProxy
      simp [ProxyData.Has, notProxy]
    · rw [holds_of_proxy proxy, proxies]
    · rw [listens_of_proxy proxy]
      exact (proxies o).mp here

theorem tidy_info {s : TracedClient} (h : s.Tidy) {m m' : RegistryMonitor} (monitor : s.monitor = some m)
    (same : m'.proxies = m.proxies) : Tidy { s with monitor := some m' } := by
  obtain ⟨heap, h⟩ := h
  exact tidy_of_same (t := { s with monitor := some m' }) h rfl (hasProxy_congr monitor rfl same)

end TracedClient

end PwDart
