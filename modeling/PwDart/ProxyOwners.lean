import PwDart.TeardownGrowth

namespace PwDart

open LabelledRun ObjectTrace

namespace TracedClient

/-- The proxy is `registry_pw_` or that of an entry of `proxies_`. `LinkManager` has no member but its
client. -/
def Owns (s : TracedClient) (o : PwObject) : Prop :=
  (o.kind = .registry ∧ s.registryPw = some o.number) ∨ (o.kind = .proxy ∧ s.HasProxy o)

end TracedClient

/-- The object is destroyed, or the core it was made by is disconnected. -/
def Ended (trace : List PwCall) (o : PwObject) : Prop :=
  .destroy o ∈ trace ∨
    ∃ call ∈ trace, o ∈ call.makes ∧ ∃ core ∈ call.names, core.kind = .core ∧ .destroy core ∈ trace

instance (trace : List PwCall) (o : PwObject) : Decidable (Ended trace o) := inferInstanceAs (Decidable (_ ∨ _))

/-- The client with a note of the ids its proxies were made for, until these are removed. -/
structure ProxyOwners where
  client : TracedClient := {}
  madeFor : List (PwObject × UInt32) := []
  gone : List PwObject := []

inductive OwnerStep
  | client (l : TracedStep)
  /-- The server gives the link of a created proxy its id. -/
  | boundId (link : Nat) (id : UInt32)

namespace ProxyOwners

/-- The proxy a callback has bound. -/
def boundBy : TracedStep → List (PwObject × UInt32)
  | .callback (.global id type _ (some p)) => if bindsType type then [(⟨.proxy, p⟩, id)] else []
  | _ => []

def next (s : ProxyOwners) : OwnerStep → Option ProxyOwners
  | .client (.callback (.globalRemove id)) =>
    (s.client.callback (.globalRemove id)).map fun client =>
      { client := client
        madeFor := s.madeFor.filter fun entry => entry.2 ≠ id
        gone := s.gone ++ (s.madeFor.filter fun entry => entry.2 = id).map Prod.fst }
  | .client l => (s.client.take l).map fun client => { s with client := client, madeFor := s.madeFor ++ boundBy l }
  | .boundId link id =>
    if ⟨.link, link⟩ ∈ made s.client.trace then some { s with madeFor := s.madeFor ++ [(⟨.link, link⟩, id)] }
    else none

structure NoOrphans (s : ProxyOwners) : Prop where
  owned : ∀ o ∈ made s.client.trace, o.kind = .registry ∨ o.kind = .proxy ∨ o.kind = .link →
    ¬Ended s.client.trace o → s.client.Owns o
  gone : ∀ o ∈ s.gone, Ended s.client.trace o

/-- Not a `CreateLinkCmd` of a connected client that gets a proxy. -/
def Linkless (s : ProxyOwners) : OwnerStep → Prop
  | .client (.command (.createLink _ _ _) .proxy) => s.client.connected = false
  | _ => True

end ProxyOwners

/-- Every proxy has the type of its id. -/
def RegistryMonitor.Typed (m : RegistryMonitor) : Prop :=
  ∀ (id : UInt32) (data : ProxyData), m.proxies[id]? = some data → (m.idTypes[id]?).isSome = true

theorem typed_onGlobal {m : RegistryMonitor} (h : m.Typed) (id : UInt32) (type : Option String)
    (props : Option SpaDict) (bound : Option PwProxy) : (m.onGlobal id type props bound).1.Typed := by
  have types (i : UInt32) (known : (m.idTypes[i]?).isSome = true) :
      ((m.onGlobal id type props bound).1.idTypes[i]?).isSome = true := by
    rcases RegistryMonitor.idTypes_onGlobal m id type props bound with same | ⟨kind, inserted⟩
    · rw [same]
      exact known
    · rw [inserted, Std.ExtTreeMap.getElem?_insert]
      split
      next => rfl
      next => exact known
  obtain ⟨other, threw, inserted⟩ := proxies_onGlobal m id type props bound
  intro i data held
  cases binds : bindsType type with
  | false =>
    rw [other binds] at held
    exact types i (h i data held)
  | true =>
    by_cases ok : (m.onGlobal id type props bound).2 = none
    · obtain ⟨text, inserted, typed⟩ := inserted binds ok
      rw [inserted, Std.ExtTreeMap.getElem?_insert] at held
      split at held
      next same =>
        have eq : id = i := by simpa using same
        rw [typed, eq, Std.ExtTreeMap.getElem?_insert_self]
        rfl
      next => exact types i (h i data held)
    · rw [threw ok] at held
      exact types i (h i data held)

theorem typed_onGlobalRemove {m : RegistryMonitor} (h : m.Typed) (id : UInt32) : (m.onGlobalRemove id).1.Typed := by
  intro i data held
  rw [RegistryMonitor.proxies_onGlobalRemove] at held
  rw [RegistryMonitor.idTypes_onGlobalRemove, Std.ExtTreeMap.getElem?_erase]
  split at held
  next =>
    rw [Std.ExtTreeMap.getElem?_erase] at held
    split at held
    next => cases held
    next other =>
      rw [if_neg other]
      exact h i data held
  next unknown =>
    have known := h i data held
    split
    next same =>
      have eq : id = i := by simpa using same
      rw [eq] at unknown
      exact absurd known unknown
    next => exact known

namespace ProxyOwners

/-- What is noted of a proxy is where the client has it. -/
structure Filed (s : ProxyOwners) : Prop where
  sound : s.client.Sound
  typed : ∀ m, s.client.monitor = some m → m.Typed
  known : ∀ entry ∈ s.madeFor, entry.1 ∈ made s.client.trace
  kinds : ∀ entry ∈ s.madeFor, entry.1.kind = .proxy ∨ entry.1.kind = .link
  filed : ∀ entry ∈ s.madeFor, ∀ m (id : UInt32) data, s.client.monitor = some m → m.proxies[id]? = some data →
    data.Has entry.1 → id = entry.2

theorem filed_start : Filed {} where
  sound := TracedClient.sound_start
  typed m h := by cases h
  known entry h := by cases h
  kinds entry h := by cases h
  filed entry h := by cases h

theorem filed_boundId {s : ProxyOwners} (h : s.Filed) {link : Nat} (id : UInt32)
    (here : ⟨.link, link⟩ ∈ made s.client.trace) :
    Filed { s with madeFor := s.madeFor ++ [(⟨.link, link⟩, id)] } := by
  refine ⟨h.sound, h.typed, ?_, ?_, ?_⟩
  · intro entry noted
    rcases List.mem_append.mp noted with before | new
    · exact h.known entry before
    · cases List.mem_singleton.mp new
      exact here
  · intro entry noted
    rcases List.mem_append.mp noted with before | new
    · exact h.kinds entry before
    · cases List.mem_singleton.mp new
      exact Or.inr rfl
  · intro entry noted m i data monitor held has
    rcases List.mem_append.mp noted with before | new
    · exact h.filed entry before m i data monitor held has
    · cases List.mem_singleton.mp new
      cases has.1

theorem made_of_grows {s t : TracedClient} (grows : s.trace <+: t.trace) {o : PwObject} (here : o ∈ made s.trace) :
    o ∈ made t.trace := by
  obtain ⟨calls, same⟩ := grows
  rw [← same, made_append]
  exact List.mem_append_left _ here

theorem ended_of_grows {s t : TracedClient} (grows : s.trace <+: t.trace) {o : PwObject} (ended : Ended s.trace o) :
    Ended t.trace o := by
  rcases ended with destroyed | ⟨call, called, makes, core, named, isCore, gone⟩
  · exact Or.inl (grows.subset destroyed)
  · exact Or.inr ⟨call, grows.subset called, makes, core, named, isCore, grows.subset gone⟩

/-- A step after which the monitor has no new proxies. -/
theorem filed_of_sub {s t : ProxyOwners} (h : s.Filed) (sound : t.client.Sound)
    (grows : s.client.trace <+: t.client.trace) (notes : ∀ entry ∈ t.madeFor, entry ∈ s.madeFor)
    (typed : ∀ m, t.client.monitor = some m → m.Typed)
    (sub : ∀ m' (id : UInt32) data, t.client.monitor = some m' → m'.proxies[id]? = some data →
      ∃ m, s.client.monitor = some m ∧ m.proxies[id]? = some data) : t.Filed := by
  refine ⟨sound, typed, fun entry noted => made_of_grows grows (h.known entry (notes entry noted)),
    fun entry noted => h.kinds entry (notes entry noted), ?_⟩
  intro entry noted m' id data monitor held has
  obtain ⟨m, monitor, held⟩ := sub m' id data monitor held
  exact h.filed entry (notes entry noted) m id data monitor held has

theorem filed_quiet {s : ProxyOwners} (h : s.Filed) {l : TracedStep} {client : TracedClient}
    (step : s.client.take l = some client) (notCallback : ∀ c, l ≠ .callback c) :
    Filed { s with client := client } := by
  have monitors := @TracedClient.monitor_take s.client client l step notCallback
  refine filed_of_sub h (TracedClient.sound_take h.sound step) (TracedClient.grows_take step) (fun _ noted => noted) ?_ ?_
  · intro m monitor
    rcases monitors monitor with kept | rfl
    · exact h.typed m kept
    · intro id data held
      simp at held
  · intro m id data monitor held
    rcases monitors monitor with kept | rfl
    · exact ⟨m, kept, held⟩
    · simp at held

theorem made_globalCalls {m : RegistryMonitor} {registry : Nat} {id : UInt32} {type : Option String}
    {props : Option SpaDict} {p : PwProxy} (binds : bindsType type = true) :
    ⟨.proxy, p⟩ ∈ made (m.globalCalls registry id type props (some p)) := by
  rw [RegistryMonitor.globalCalls, if_pos binds, made_append]
  exact List.mem_append_left _ (by simp [bindCalls, made, Call.makes])

/-- The proxy of an old entry is not the one just bound. -/
theorem older_entry {s : ProxyOwners} (h : s.Filed) {m : RegistryMonitor} (monitor : s.client.monitor = some m)
    {id : UInt32} {data : ProxyData} (held : m.proxies[id]? = some data) {o : PwObject} (has : data.Has o) :
    o.number ≠ s.client.next :=
  Nat.ne_of_lt ((h.sound.bound m monitor).older id data o.number held has.2)

theorem filed_global {s : ProxyOwners} (h : s.Filed) {id : UInt32} {type : Option String} {props : Option SpaDict}
    {bound : Option PwProxy} {client : TracedClient} (step : s.client.callback (.global id type props bound) = some client) :
    Filed { s with client := client, madeFor := s.madeFor ++ boundBy (.callback (.global id type props bound)) } := by
  have sound := TracedClient.sound_callback h.sound step
  have grows : s.client.trace <+: client.trace := TracedClient.grows_callback step
  unfold TracedClient.callback at step
  split at step
  next m registry monitor _ =>
    obtain ⟨fresh, same⟩ := Option.ite_none_right_eq_some.mp step
    obtain ⟨other, threw, inserted⟩ := proxies_onGlobal m id type props bound
    have noted {entry : PwObject × UInt32} (new : entry ∈ boundBy (.callback (.global id type props bound))) :
        bindsType type = true ∧ bound = some s.client.next ∧ entry = (⟨.proxy, s.client.next⟩, id) := by
      rcases fresh with rfl | rfl
      · cases new
      · simp only [boundBy] at new
        split at new
        next binds => exact ⟨binds, rfl, List.mem_singleton.mp new⟩
        next => cases new
    have entries {i : UInt32} {data : ProxyData}
        (held : (m.onGlobal id type props bound).1.proxies[i]? = some data) :
        m.proxies[i]? = some data ∨ (i = id ∧ data.proxy = bound) := by
      cases binds : bindsType type with
      | false =>
        rw [other binds] at held
        exact Or.inl held
      | true =>
        by_cases ok : (m.onGlobal id type props bound).2 = none
        · obtain ⟨text, inserted, _⟩ := inserted binds ok
          rw [inserted, Std.ExtTreeMap.getElem?_insert] at held
          split at held
          next same =>
            have eq : id = i := by simpa using same
            cases Option.some.inj held
            exact Or.inr ⟨eq.symm, rfl⟩
          next => exact Or.inl held
        · rw [threw ok] at held
          exact Or.inl held
    cases Option.some.inj same
    refine ⟨sound, ?_, ?_, ?_, ?_⟩
    · rintro _ ⟨⟩
      exact typed_onGlobal (h.typed m monitor) id type props bound
    · intro entry here
      rcases List.mem_append.mp here with before | new
      · exact made_of_grows grows (h.known entry before)
      · obtain ⟨binds, rfl, rfl⟩ := noted new
        rw [TracedClient.emit, made_append]
        exact List.mem_append_right _ (made_globalCalls binds)
    · intro entry here
      rcases List.mem_append.mp here with before | new
      · exact h.kinds entry before
      · obtain ⟨_, _, rfl⟩ := noted new
        exact Or.inl rfl
    · rintro entry here _ i data ⟨⟩ held has
      rcases List.mem_append.mp here with before | new
      · rcases entries held with old | ⟨_, own⟩
        · exact h.filed entry before m i data monitor old has
        · have lt := h.sound.older_of_made (h.known entry before)
          rcases fresh with rfl | rfl
          · cases own.symm.trans has.2
          · have eq : s.client.next = entry.1.number := Option.some.inj (own.symm.trans has.2)
            omega
      · obtain ⟨_, _, rfl⟩ := noted new
        rcases entries held with old | ⟨eq, _⟩
        · exact absurd rfl (older_entry h monitor old has)
        · exact eq
  next => cases step

theorem callback_monitor {s t : TracedClient} {c : Callback} (step : s.callback c = some t) :
    ∃ m, s.monitor = some m ∧ t.monitor = some (m.call c).1 := by
  unfold TracedClient.callback at step
  split at step
  next m registry monitor _ =>
    refine ⟨m, monitor, ?_⟩
    split at step
    next id type props bound =>
      obtain ⟨_, same⟩ := Option.ite_none_right_eq_some.mp step
      cases Option.some.inj same
      rfl
    next id =>
      cases Option.some.inj step
      rfl
    next =>
      cases Option.some.inj step
      rfl
  next => cases step

theorem filed_info {s : ProxyOwners} (h : s.Filed) {c : Callback} {client : TracedClient}
    (notGlobal : ∀ id type props bound, c ≠ .global id type props bound) (notRemove : ∀ id, c ≠ .globalRemove id)
    (taken : s.client.take (.callback c) = some client) : Filed { s with client := client } := by
  have step : s.client.callback c = some client := taken
  obtain ⟨m, monitor, monitor'⟩ := callback_monitor step
  obtain ⟨types, proxies⟩ := RegistryMonitor.keys_info (m := m) notGlobal notRemove
  refine filed_of_sub h (TracedClient.sound_callback h.sound step) (TracedClient.grows_callback step)
    (fun _ noted => noted) ?_ ?_
  · intro m' same id data held
    cases Option.some.inj (monitor'.symm.trans same)
    rw [proxies] at held
    rw [types]
    exact h.typed m monitor id data held
  · intro m' id data same held
    cases Option.some.inj (monitor'.symm.trans same)
    rw [proxies] at held
    exact ⟨m, monitor, held⟩

theorem filed_globalRemove {s : ProxyOwners} (h : s.Filed) {id : UInt32} {client : TracedClient}
    (step : s.client.callback (.globalRemove id) = some client) (gone : List PwObject) :
    Filed { client := client, madeFor := s.madeFor.filter fun entry => entry.2 ≠ id, gone := gone } := by
  obtain ⟨m, monitor, monitor'⟩ := callback_monitor step
  refine filed_of_sub h (TracedClient.sound_callback h.sound step) (TracedClient.grows_callback step)
    (fun _ noted => (List.mem_filter.mp noted).1) ?_ ?_
  · intro m' same
    cases Option.some.inj (monitor'.symm.trans same)
    exact typed_onGlobalRemove (h.typed m monitor) id
  · intro m' i data same held
    cases Option.some.inj (monitor'.symm.trans same)
    change (m.onGlobalRemove id).1.proxies[i]? = some data at held
    rw [RegistryMonitor.proxies_onGlobalRemove] at held
    refine ⟨m, monitor, ?_⟩
    split at held
    next =>
      rw [Std.ExtTreeMap.getElem?_erase] at held
      split at held
      next => cases held
      next => exact held
    next => exact held

theorem filed_next {s t : ProxyOwners} {l : OwnerStep} (h : s.Filed) (step : s.next l = some t) : t.Filed := by
  cases l with
  | boundId link id =>
    obtain ⟨here, same⟩ := Option.ite_none_right_eq_some.mp step
    cases Option.some.inj same
    exact filed_boundId h id here
  | client l =>
    cases l with
    | callback c =>
      cases c with
      | global id type props bound =>
        obtain ⟨client, taken, rfl⟩ := Option.map_eq_some_iff.mp step
        exact filed_global h taken
      | globalRemove id =>
        obtain ⟨client, taken, rfl⟩ := Option.map_eq_some_iff.mp step
        exact filed_globalRemove h taken _
      | nodeInfo | portInfo | linkInfo | deviceInfo =>
        obtain ⟨client, taken, rfl⟩ := Option.map_eq_some_iff.mp step
        simpa [boundBy] using filed_info h (by simp) (by simp) taken
    | connect | sync | iterate | settled | command | disconnect | teardown | destruct =>
      obtain ⟨client, taken, rfl⟩ := Option.map_eq_some_iff.mp step
      simpa [boundBy] using filed_quiet h taken (by simp)

/-- What a client without proxies of created links has not destroyed it owns. -/
theorem owned_of_extends {s t : TracedClient} (sound : t.Sound) (more : Extends s t)
    (owned : ∀ o ∈ made s.trace, o.kind = .registry ∨ o.kind = .proxy ∨ o.kind = .link → ¬Ended s.trace o → s.Owns o) :
    ∀ o ∈ made t.trace, o.kind = .registry ∨ o.kind = .proxy ∨ o.kind = .link → ¬Ended t.trace o → t.Owns o := by
  rintro ⟨kind, number⟩ here proxy alive
  obtain ⟨calls, same, free⟩ := more
  have held (notLink : kind ≠ .link) : t.Holds ⟨kind, number⟩ := by
    by_contra unheld
    exact alive (Or.inl (sound.destroyed_of_unheld here notLink unheld))
  rcases proxy with isRegistry | isProxy | isLink
  · cases isRegistry
    exact Or.inl ⟨rfl, held (by decide)⟩
  · cases isProxy
    exact Or.inr ⟨rfl, held (by decide)⟩
  · cases isLink
    have before : (⟨.link, number⟩ : PwObject) ∈ made s.trace := by
      rw [same, made_append] at here
      rcases List.mem_append.mp here with before | new
      · exact before
      · exact absurd rfl (free _ new)
    have alive' : ¬Ended s.trace ⟨.link, number⟩ := fun ended => alive (ended_of_grows ⟨calls, same.symm⟩ ended)
    rcases owned _ before (Or.inr (Or.inr rfl)) alive' with ⟨no, _⟩ | ⟨no, _⟩
    · cases no
    · cases no

/-- A link that is removed takes its proxies with it, when no proxy is without an owner. -/
theorem ended_of_removed {s : ProxyOwners} (h : s.Filed) (ok : s.NoOrphans) {id : UInt32} {client : TracedClient}
    (step : s.client.callback (.globalRemove id) = some client) {o : PwObject} (noted : (o, id) ∈ s.madeFor) :
    Ended client.trace o := by
  obtain ⟨m, monitor, monitor'⟩ := callback_monitor step
  have grows := TracedClient.grows_callback step
  have here := h.known _ noted
  rcases h.kinds _ noted with isProxy | isLink
  · have sound := TracedClient.sound_callback h.sound step
    refine Or.inl (sound.destroyed_of_unheld (made_of_grows grows here) (by rw [isProxy]; decide) ?_)
    obtain ⟨kind, number⟩ := o
    cases isProxy
    rintro ⟨m', same, i, data, held, has⟩
    cases Option.some.inj (monitor'.symm.trans same)
    change (m.onGlobalRemove id).1.proxies[i]? = some data at held
    rw [RegistryMonitor.proxies_onGlobalRemove] at held
    split at held
    next =>
      rw [Std.ExtTreeMap.getElem?_erase] at held
      split at held
      next => cases held
      next other =>
        have eq := h.filed _ noted m i data monitor held has
        simp [eq] at other
    next unknown =>
      have eq := h.filed _ noted m i data monitor held has
      have known := h.typed m monitor i data held
      rw [eq] at known
      exact unknown known
  · by_contra alive
    have alive' : ¬Ended s.client.trace o := fun ended => alive (ended_of_grows grows ended)
    rcases ok.owned o here (Or.inr (Or.inr isLink)) alive' with ⟨no, _⟩ | ⟨no, _⟩
    · cases isLink.symm.trans no
    · cases isLink.symm.trans no

/-- A `create_link` that gets a proxy leaves it without an owner. -/
theorem orphan_of_createLink {s : TracedClient} (h : s.Sound) {output input : UInt32} {request : Int64}
    (on : s.connected = true) {t : TracedClient} (step : s.take (.command (.createLink output input request) .proxy) = some t) :
    ⟨.link, s.next⟩ ∈ made t.trace ∧ ¬Ended t.trace ⟨.link, s.next⟩ := by
  have sound := TracedClient.sound_take h step
  obtain ⟨stage, same⟩ := Option.ite_none_right_eq_some.mp step
  cases Option.some.inj same
  obtain ⟨core, held⟩ : ∃ core, s.core = some core := by
    have staged := h.staged
    rw [TracedClient.Staged] at staged
    rcases stage with connected | disconnecting
    · rw [connected] at staged
      exact staged.1.core
    · rw [disconnecting] at staged
      exact staged.1.core
  have trace := s.extends_createLink output input request on held
  have here : ⟨.link, s.next⟩ ∈ made (s.command .proxy (.createLink output input request)).trace := by
    rw [trace, made_append]
    exact List.mem_append_right _ (by simp [made, Call.makes])
  refine ⟨here, ?_⟩
  rintro (destroyed | ⟨call, called, makes, p, named, isCore, gone⟩)
  · exact sound.undestroyed_of_link here rfl destroyed
  · rw [trace] at called
    have same : p = ⟨.core, core⟩ := by
      rcases List.mem_append.mp called with before | new
      · exact absurd (h.older_of_made (List.mem_flatMap.mpr ⟨call, before, makes⟩)) (Nat.lt_irrefl _)
      · rcases List.mem_pair.mp new with rfl | rfl
        · exact List.mem_singleton.mp named
        · cases makes
    have live : (s.command .proxy (.createLink output input request)).Holds ⟨.core, core⟩ := by
      simp [TracedClient.Holds, TracedClient.command, on, held, TracedClient.emit]
    rw [same] at gone
    exact sound.undestroyed_of_held (by simp) live gone

/-- All that a step makes is owned, and ends with its object, exactly if it makes no proxy for a link. -/
theorem noOrphans_next {s t : ProxyOwners} {l : OwnerStep} (h : s.Filed) (ok : s.NoOrphans)
    (step : s.next l = some t) : t.NoOrphans ↔ s.Linkless l := by
  have quiet {l : TracedStep} {client : TracedClient} (taken : s.client.take l = some client)
      (linkless : ∀ output input request, l = .command (.createLink output input request) .proxy →
        s.client.connected = false) (madeFor : List (PwObject × UInt32)) :
      NoOrphans { client := client, madeFor := madeFor, gone := s.gone } := by
    have grows := TracedClient.grows_take taken
    refine ⟨owned_of_extends (TracedClient.sound_take h.sound taken) (TracedClient.extends_take taken linkless) ok.owned,
      fun o gone => ended_of_grows grows (ok.gone o gone)⟩
  cases l with
  | boundId link id =>
    obtain ⟨here, same⟩ := Option.ite_none_right_eq_some.mp step
    cases Option.some.inj same
    exact iff_of_true ⟨ok.owned, ok.gone⟩ trivial
  | client l =>
    cases l with
    | callback c =>
      cases c with
      | globalRemove id =>
        obtain ⟨client, taken, rfl⟩ := Option.map_eq_some_iff.mp step
        have owned := (quiet (l := .callback (.globalRemove id)) taken (by simp) s.madeFor).owned
        refine iff_of_true ⟨owned, fun o gone => ?_⟩ trivial
        rcases List.mem_append.mp gone with before | new
        · exact ended_of_grows (TracedClient.grows_callback taken) (ok.gone o before)
        · obtain ⟨entry, noted, rfl⟩ := List.mem_map.mp new
          obtain ⟨noted, about⟩ := List.mem_filter.mp noted
          have same : entry.2 = id := by simpa using about
          refine ended_of_removed h ok taken ?_
          rw [← same]
          exact noted
      | global | nodeInfo | portInfo | linkInfo | deviceInfo =>
        obtain ⟨client, taken, rfl⟩ := Option.map_eq_some_iff.mp step
        exact iff_of_true (quiet taken (by simp) _) trivial
    | command cmd answer =>
      obtain ⟨client, taken, rfl⟩ := Option.map_eq_some_iff.mp step
      by_cases linkless : ∀ output input request,
          TracedStep.command cmd answer = .command (.createLink output input request) .proxy → s.client.connected = false
      · refine iff_of_true (quiet taken linkless _) ?_
        unfold Linkless
        split
        next output input request same =>
          cases same
          exact linkless output input request rfl
        next => trivial
      · push Not at linkless
        obtain ⟨output, input, request, same, on⟩ := linkless
        cases same
        obtain ⟨here, alive⟩ := orphan_of_createLink h.sound (by simpa using on) taken
        refine iff_of_false ?_ on
        intro none
        rcases none.owned _ here (Or.inr (Or.inr rfl)) alive with ⟨no, _⟩ | ⟨no, _⟩
        · cases no
        · cases no
    | connect | sync | iterate | settled | disconnect | teardown | destruct =>
      obtain ⟨client, taken, rfl⟩ := Option.map_eq_some_iff.mp step
      exact iff_of_true (quiet taken (by simp) _) trivial

theorem noOrphans_start : NoOrphans {} := by
  refine ⟨?_, ?_⟩
  · intro o here
    simp [made] at here
  · intro o here
    cases here

/-- No proxy is ever without an owner exactly if no `create_link` gets one. -/
theorem orphans_iff {s : ProxyOwners} {ls : List OwnerStep} (run : Run (Takes next) {} ls s) :
    (∀ pre t, pre <+: ls → Run (Takes next) {} pre t → t.NoOrphans) ↔ Run (Guarded next Linkless) {} ls s :=
  always_iff_guarded filed_start (fun _ _ _ => filed_next) noOrphans_start (fun _ _ _ => noOrphans_next) run

def connectedSteps : List OwnerStep :=
  [.client (.connect ⟨true, true, true, true, true⟩), .client .settled]

/-- A link that another client has made comes and goes; a `create_link` gets no proxy. -/
def foreignLink : List OwnerStep :=
  connectedSteps ++
    [.client (.command (.createLink 30 31 0) .noProxy), .client (.callback (.global 40 (some interfaceLink) none (some 5))),
      .client (.callback (.globalRemove 40))]

theorem orphans_iff_foreignLink : ∃ s, Run (Takes next) {} foreignLink s ∧ s.NoOrphans ∧ s.gone = [⟨.proxy, 5⟩] := by
  have run : Run (Takes next) {} foreignLink _ := run_takes_iff.mpr rfl
  have connecting : Run (Guarded next Linkless) {} (foreignLink.take 1) _ := Run.single ⟨trivial, rfl⟩
  have connected : Run (Guarded next Linkless) {} (foreignLink.take 2) _ := Run.next connecting ⟨trivial, rfl⟩
  have refused : Run (Guarded next Linkless) {} (foreignLink.take 3) _ := Run.next connected ⟨trivial, rfl⟩
  have bound : Run (Guarded next Linkless) {} (foreignLink.take 4) _ := Run.next refused ⟨trivial, rfl⟩
  have removed : Run (Guarded next Linkless) {} foreignLink _ := Run.next bound ⟨trivial, rfl⟩
  exact ⟨_, run, (orphans_iff run).mpr removed _ _ (List.prefix_refl _) run, rfl⟩

/-- A link is made, announced and removed. -/
def ownLink : List OwnerStep :=
  connectedSteps ++
    [.client (.command (.createLink 30 31 0) .proxy), .boundId 5 40,
      .client (.callback (.global 40 (some interfaceLink) none (some 6))), .client (.callback (.globalRemove 40))]

/-- The proxy from `pw_core_create_object` is still there, and nobody has it. -/
theorem created_proxy_orphaned : ∃ s, Run (Takes next) {} ownLink s ∧ s.client.stage = .connected ∧
    ⟨.link, 5⟩ ∈ made s.client.trace ∧ ¬Ended s.client.trace ⟨.link, 5⟩ ∧ ¬s.client.Owns ⟨.link, 5⟩ ∧
      ⟨.link, 5⟩ ∈ s.gone := by
  refine ⟨_, run_takes_iff.mpr rfl, rfl, by decide +kernel, by decide +kernel, ?_, by decide +kernel⟩
  rintro (⟨no, _⟩ | ⟨no, _⟩)
  · cases no
  · cases no

end ProxyOwners

end PwDart
