import PwDart.Handshake
import PwDart.GraphConvergence

namespace PwDart

open RegistryMonitor

theorem newObject_of_kind {object : ServerObject} {kind : Kind} (known : object.kind = some kind) :
    ∃ made, announced object.id object.type object.props = some made ∧ made.kind = kind := by
  have parses := object.parses
  unfold ServerObject.kind at known
  unfold onGlobal at parses
  unfold announced
  split at known
  next h => cases Option.some.inj known; exact ⟨_, if_pos h, rfl⟩
  next h =>
    rw [if_neg h] at parses ⊢
    split at known
    next h =>
      cases Option.some.inj known
      rw [if_pos h] at parses ⊢
      cases parsed : newPortInfo object.id object.props with
      | error e => rw [parsed] at parses; simp at parses
      | ok info => exact ⟨.port info, rfl, rfl⟩
    next h =>
      rw [if_neg h] at parses ⊢
      split at known
      next h =>
        cases Option.some.inj known
        rw [if_pos h] at parses ⊢
        cases parsed : newLinkInfo object.id object.props with
        | error e => rw [parsed] at parses; simp at parses
        | ok info => exact ⟨.link info, rfl, rfl⟩
      next h =>
        rw [if_neg h]
        split at known
        next h => cases Option.some.inj known; exact ⟨_, if_pos h, rfl⟩
        next => cases known

theorem onGlobal_of_kind {object : ServerObject} {kind : Kind} (known : object.kind = some kind)
    (m : RegistryMonitor) (proxy : PwProxy) :
    (m.onGlobal object.id object.type object.props (some proxy)).1.idTypes =
        m.idTypes.insert object.id kind.text ∧
      (m.onGlobal object.id object.type object.props (some proxy)).1.proxies =
        m.proxies.insert object.id (newProxyData object.id kind.text (some proxy)) := by
  obtain ⟨made, announces, rfl⟩ := newObject_of_kind known
  exact onGlobal_announced announces m (some proxy)

theorem onGlobal_of_unknown {object : ServerObject} (unknown : object.kind = none)
    (m : RegistryMonitor) (bound : Option PwProxy) :
    (m.onGlobal object.id object.type object.props bound).1 = m := by
  unfold ServerObject.kind at unknown
  unfold onGlobal
  grind

/-- The monitor holds every object in the client's view, behind the proxy that was bound for it. -/
structure Tracks (m : RegistryMonitor) (view : List (ServerObject × PwProxy)) (next : PwProxy) :
    Prop where
  wellFormed : m.WellFormed
  held : ∀ object proxy, (object, proxy) ∈ view → ∀ kind, object.kind = some kind →
    m.idTypes[object.id]? = some kind.text ∧ (m.record kind object.id).isSome ∧
      ∃ data, m.proxies[object.id]? = some data ∧ data.proxy = some proxy
  older : ∀ (id : UInt32) (data : ProxyData) (proxy : PwProxy),
    m.proxies[id]? = some data → data.proxy = some proxy → proxy < next
  apart : ∀ (id other : UInt32) (data data' : ProxyData), m.proxies[id]? = some data →
    m.proxies[other]? = some data' → data.proxy = data'.proxy → data.proxy ≠ none → id = other
  bound : ∀ object proxy, (object, proxy) ∈ view → proxy < next
  ids : (view.map fun entry => entry.1.id).Nodup

theorem tracks_empty (next : PwProxy) : Tracks {} [] next where
  wellFormed := wellFormed_empty
  held object proxy h := by cases h
  older id data proxy h := by simp at h
  apart id other data data' h := by simp at h
  bound object proxy h := by cases h
  ids := List.nodup_nil

theorem Tracks.same_entry {m : RegistryMonitor} {view : List (ServerObject × PwProxy)} {next : PwProxy}
    (h : Tracks m view next) {a b : ServerObject × PwProxy} (ha : a ∈ view) (hb : b ∈ view)
    (same : a.1.id = b.1.id) : a = b :=
  List.inj_on_of_nodup_map h.ids ha hb same

theorem tracks_global {m : RegistryMonitor} {view : List (ServerObject × PwProxy)} {next : PwProxy}
    (h : Tracks m view next) {object : ServerObject} (free : ∀ entry ∈ view, entry.1.id ≠ object.id) :
    Tracks (m.call (.global object.id object.type object.props (some next))).1
      (view ++ [(object, next)]) (next + 1) := by
  have wf := wellFormed_call h.wellFormed (.global object.id object.type object.props (some next))
  have ids : ((view ++ [(object, next)]).map fun entry => entry.1.id).Nodup := by
    rw [List.map_append, List.map_singleton, List.nodup_append]
    refine ⟨h.ids, List.nodup_singleton _, ?_⟩
    rintro id hid _ hsingle rfl
    obtain ⟨entry, hentry, same⟩ := List.mem_map.mp hid
    exact free entry hentry (same.trans (List.mem_singleton.mp hsingle))
  have bound (o : ServerObject) (p : PwProxy) (hmem : (o, p) ∈ view ++ [(object, next)]) :
      p < next + 1 := by
    rcases List.mem_append.mp hmem with hmem | hmem
    · exact Nat.lt_succ_of_lt (h.bound o p hmem)
    · cases List.mem_singleton.mp hmem
      exact Nat.lt_succ_self next
  have kept (o : ServerObject) (p : PwProxy) (hmem : (o, p) ∈ view) (k : Kind) :
      (m.call (.global object.id object.type object.props (some next))).1.record k o.id =
        m.record k o.id :=
    record_unrelated h.wellFormed (by simp [Callback.infoTarget])
      (by simpa [Callback.lifetimeOf] using (free (o, p) hmem).symm)
  cases known : object.kind with
  | none =>
    have same : (m.call (.global object.id object.type object.props (some next))).1 = m :=
      onGlobal_of_unknown known m (some next)
    rw [same] at wf ⊢
    refine ⟨wf, fun o p hmem k hk => ?_, fun id data p hd hp => Nat.lt_succ_of_lt (h.older id data p hd hp),
      h.apart, bound, ids⟩
    rcases List.mem_append.mp hmem with hmem | hmem
    · exact h.held o p hmem k hk
    · cases List.mem_singleton.mp hmem
      rw [known] at hk
      cases hk
  | some kind =>
    obtain ⟨made, announces, sameKind⟩ := newObject_of_kind known
    obtain ⟨types, proxies⟩ := onGlobal_of_kind known m next
    refine ⟨wf, fun o p hmem k hk => ?_, fun id data p hd hp => ?_, fun id other data data' hd hd' same some => ?_,
      bound, ids⟩
    · rcases List.mem_append.mp hmem with hmem | hmem
      · obtain ⟨type, present, data, hdata, hproxy⟩ := h.held o p hmem k hk
        have apart : ¬object.id = o.id := (free (o, p) hmem).symm
        refine ⟨?_, by rw [kept o p hmem]; exact present, data, ?_, hproxy⟩
        · simpa [call, types, Std.ExtTreeMap.getElem?_insert, apart] using type
        · simpa [call, proxies, Std.ExtTreeMap.getElem?_insert, apart] using hdata
      · cases List.mem_singleton.mp hmem
        cases known.symm.trans hk
        refine ⟨by simp [call, types], ?_, newProxyData object.id kind.text (some next),
          by simp [call, proxies], rfl⟩
        simp [call, record_onGlobal, announces, sameKind]
    · simp only [call, proxies] at hd
      by_cases hid : object.id = id
      · subst hid
        rw [Std.ExtTreeMap.getElem?_insert_self] at hd
        cases Option.some.inj hd
        cases Option.some.inj hp
        exact Nat.lt_succ_self next
      · rw [Std.ExtTreeMap.getElem?_insert, if_neg (by simpa using hid)] at hd
        exact Nat.lt_succ_of_lt (h.older id data p hd hp)
    · simp only [call, proxies, Std.ExtTreeMap.getElem?_insert] at hd hd'
      by_cases hid : object.id = id <;> by_cases hother : object.id = other
      · exact hid.symm.trans hother
      · rw [if_pos (by simpa using hid)] at hd
        rw [if_neg (by simpa using hother)] at hd'
        cases Option.some.inj hd
        exact absurd (h.older other data' next hd' same.symm) (Nat.lt_irrefl _)
      · rw [if_neg (by simpa using hid)] at hd
        rw [if_pos (by simpa using hother)] at hd'
        cases Option.some.inj hd'
        exact absurd (h.older id data next hd same) (Nat.lt_irrefl _)
      · rw [if_neg (by simpa using hid)] at hd
        rw [if_neg (by simpa using hother)] at hd'
        exact h.apart id other data data' hd hd' same some

theorem tracks_remove {m : RegistryMonitor} {view : List (ServerObject × PwProxy)} {next proxy : PwProxy}
    (h : Tracks m view next) {object : ServerObject} (present : (object, proxy) ∈ view) :
    Tracks (m.call (.globalRemove object.id)).1 (view.filter fun entry => entry.1 ≠ object) next := by
  have sub {o : ServerObject} {p : PwProxy} (hmem : (o, p) ∈ view.filter fun entry => entry.1 ≠ object) :
      (o, p) ∈ view ∧ o.id ≠ object.id := by
    obtain ⟨hmem, other⟩ := List.mem_filter.mp hmem
    refine ⟨hmem, fun same => ?_⟩
    cases h.same_entry hmem present same
    simp at other
  have proxies (id : UInt32) (data : ProxyData)
      (hd : (m.call (.globalRemove object.id)).1.proxies[id]? = some data) : m.proxies[id]? = some data := by
    simp only [call, proxies_onGlobalRemove] at hd
    split at hd
    next =>
      rw [Std.ExtTreeMap.getElem?_erase] at hd
      split at hd
      next => cases hd
      next => exact hd
    next => exact hd
  refine ⟨wellFormed_call h.wellFormed _, fun o p hmem k hk => ?_,
    fun id data p hd hp => h.older id data p (proxies id data hd) hp,
    fun id other data data' hd hd' => h.apart id other data data' (proxies id data hd)
      (proxies other data' hd'),
    fun o p hmem => h.bound o p (sub hmem).1, h.ids.sublist (List.filter_sublist.map _)⟩
  obtain ⟨hmem, apart⟩ := sub hmem
  obtain ⟨type, present, data, hdata, hproxy⟩ := h.held o p hmem k hk
  have apart' : ¬object.id = o.id := Ne.symm apart
  refine ⟨?_, ?_, data, ?_, hproxy⟩
  · simpa [call, idTypes_onGlobalRemove, Std.ExtTreeMap.getElem?_erase, apart'] using type
  · simpa [call, record_onGlobalRemove, apart'] using present
  · simp only [call, proxies_onGlobalRemove]
    split
    · simpa [Std.ExtTreeMap.getElem?_erase, apart'] using hdata
    · exact hdata

theorem tracks_info {m : RegistryMonitor} {view : List (ServerObject × PwProxy)} {next : PwProxy}
    (h : Tracks m view next) {c : Callback} {kind : Kind} {id : UInt32}
    (about : c.infoTarget = some (kind, id)) : Tracks (m.call c).1 view next := by
  cases found : m.record kind id with
  | none => rw [call_info_none about found]; exact h
  | some old =>
    obtain ⟨new, _, _, types, proxies, records⟩ := call_info_some about found
    refine ⟨wellFormed_call h.wellFormed c, fun o p hmem k hk => ?_, by rw [proxies]; exact h.older,
      by rw [proxies]; exact h.apart, h.bound, h.ids⟩
    rw [types, proxies, records]
    obtain ⟨type, present, data⟩ := h.held o p hmem k hk
    refine ⟨type, ?_, data⟩
    split
    · rfl
    · exact present

/-- An info on the proxy of an object in the view reaches the object. -/
theorem proxyId_eq {m : RegistryMonitor} {view : List (ServerObject × PwProxy)} {next : PwProxy}
    (h : Tracks m view next) {object : ServerObject} {proxy : PwProxy} {kind : Kind}
    (hmem : (object, proxy) ∈ view) (known : object.kind = some kind) :
    m.proxyId proxy = some object.id := by
  obtain ⟨_, _, data, hdata, hproxy⟩ := h.held object proxy hmem kind known
  unfold proxyId
  cases found : m.proxies.toList.find? fun entry => entry.2.proxy = some proxy with
  | none =>
    have := List.find?_eq_none.mp found (object.id, data)
      (Std.ExtTreeMap.mem_toList_iff_getElem?_eq_some.mpr hdata)
    simp [hproxy] at this
  | some entry =>
    have held := Std.ExtTreeMap.mem_toList_iff_getElem?_eq_some.mp (List.mem_of_find?_eq_some found)
    have same : entry.2.proxy = some proxy := by simpa using List.find?_some found
    rw [Option.map_some, h.apart entry.1 object.id entry.2 data held hdata (same.trans hproxy.symm)
      (by simp [same])]

end PwDart
