import PwDart.TeardownLedger
import PwDart.RegistryWellFormed

namespace PwDart

open ObjectTrace

/-- The object is the proxy of this `ProxyData`. -/
def ProxyData.Has (data : ProxyData) (o : PwObject) : Prop := o.kind = .proxy ∧ data.proxy = some o.number

/-- The proxies of a monitor are its own, each with a hook. -/
structure BoundProxies (m : RegistryMonitor) (next : Nat) : Prop where
  older : ∀ (id : UInt32) (data : ProxyData) (p : PwProxy), m.proxies[id]? = some data → data.proxy = some p → p < next
  apart : ∀ (id other : UInt32) (data data' : ProxyData), m.proxies[id]? = some data →
    m.proxies[other]? = some data' → data.proxy = data'.proxy → data.proxy ≠ none → id = other
  hooked : ∀ (id : UInt32) (data : ProxyData), m.proxies[id]? = some data → data.listener = data.proxy.isSome

namespace TracedClient

def HasProxy (s : TracedClient) (o : PwObject) : Prop :=
  ∃ m, s.monitor = some m ∧ ∃ (id : UInt32) (data : ProxyData), m.proxies[id]? = some data ∧ data.Has o

/-- The client has a pointer to the object. -/
def Holds (s : TracedClient) (o : PwObject) : Prop :=
  match o.kind with
  | .loop => s.loop = some o.number
  | .context => s.context = some o.number
  | .core => s.core = some o.number
  | .registry => s.registryPw = some o.number
  | .source => s.loopEventSource = some o.number
  | .proxy => s.HasProxy o
  | .link => False

/-- The client has the hook of the object. -/
def Listens (s : TracedClient) (h : PwObject) : Prop :=
  match h.kind with
  | .core => s.coreListener = some h.number
  | .registry => s.registryListener = some h.number
  | .proxy => s.HasProxy h
  | _ => False

def Tidy (s : TracedClient) : Prop := ∃ heap, Ledger s.Holds s.Listens s.next s.trace heap

theorem tidy_start : Tidy {} := by
  refine ⟨{}, Ledger.start.congr ?_ ?_⟩
  · rintro ⟨kind, number⟩ _
    cases kind <;> simp [Holds, HasProxy]
  · rintro ⟨kind, number⟩
    cases kind <;> simp [Listens, HasProxy]

theorem tidy_newLoop {s : TracedClient} (h : s.Tidy) (unset : s.loop = none) : s.newLoop.Tidy := by
  obtain ⟨heap, h⟩ := h
  have made := h.create ⟨.loop, s.next⟩ [] rfl (by simp)
  refine ⟨_, made.congr ?_ fun _ same => same⟩
  rintro ⟨kind, number⟩ _
  cases kind <;> simp [Holds, HasProxy, newLoop, emit, unset, eq_comm]

theorem tidy_newContext {s : TracedClient} (h : s.Tidy) {loop : Nat} (held : s.loop = some loop)
    (unset : s.context = none) : s.newContext.Tidy := by
  obtain ⟨heap, h⟩ := h
  have live : ⟨.loop, loop⟩ ∈ heap.live := (h.live _ (by simp)).mpr held
  have made := h.create ⟨.context, s.next⟩ (object .loop s.loop) rfl (by simpa [object, held] using live)
  refine ⟨_, made.congr ?_ fun _ same => same⟩
  rintro ⟨kind, number⟩ _
  cases kind <;> simp [Holds, HasProxy, newContext, emit, unset, eq_comm]

/-- The core and its listener. -/
theorem tidy_newCore {s : TracedClient} (h : s.Tidy) {context : Nat} (held : s.context = some context)
    (unset : s.core = none) (numbered : ∀ n, s.coreListener = some n → n < s.next) :
    s.newCore.newCoreListener.Tidy := by
  obtain ⟨heap, h⟩ := h
  have live : ⟨.context, context⟩ ∈ heap.live := (h.live _ (by simp)).mpr held
  have made := h.create ⟨.core, s.next⟩ (object .context s.context) rfl (by simpa [object, held] using live)
  have free : (⟨.core, s.next⟩ : PwObject) ∉ heap.freed := by
    intro freed
    exact absurd (h.freed _ freed) (Nat.lt_irrefl _)
  cases old : s.coreListener with
  | none =>
    have linked := made.addListener (o := ⟨.core, s.next⟩) (by simp) free
    refine ⟨_, (linked.congr ?_ ?_).trace_eq (by simp [newCore, newCoreListener, emit, object, old])⟩
    · rintro ⟨kind, number⟩ _
      cases kind <;> simp [Holds, HasProxy, newCore, newCoreListener, emit, unset, eq_comm]
    · rintro ⟨kind, number⟩
      cases kind <;> simp [Listens, HasProxy, newCore, newCoreListener, emit, old, eq_comm]
  | some n =>
    have listening : s.Listens ⟨.core, n⟩ := old
    have dead : (⟨.core, n⟩ : PwObject) ∉ heap.live := by
      rw [h.live _ (by simp)]
      simp [Holds, unset]
    have apart : n ≠ s.next := Nat.ne_of_lt (numbered n old)
    have freed := made.freeHook listening (Nat.lt_succ_of_lt (numbered n old)) (Or.inr (by simp [dead, apart]))
    have linked := freed.addListener (o := ⟨.core, s.next⟩) (by simp) (by simp [free, Ne.symm apart])
    refine ⟨_, (linked.congr ?_ ?_).trace_eq (by simp [newCore, newCoreListener, emit, object, old])⟩
    · rintro ⟨kind, number⟩ _
      cases kind <;> simp [Holds, HasProxy, newCore, newCoreListener, emit, unset, eq_comm]
    · rintro ⟨kind, number⟩
      cases kind <;> simp [Listens, HasProxy, newCore, newCoreListener, emit, old, eq_comm]

/-- The registry and the monitor that listens to it. -/
theorem tidy_newRegistry {s : TracedClient} (h : s.Tidy) {core : Nat} (held : s.core = some core)
    (unset : s.registryPw = none) (fresh : s.monitor = none) :
    s.newRegistry.newMonitor.Tidy := by
  obtain ⟨heap, h⟩ := h
  have live : ⟨.core, core⟩ ∈ heap.live := (h.live _ (by simp)).mpr held
  have made := h.create ⟨.registry, s.next⟩ (object .core s.core) rfl (by simpa [object, held] using live)
  have free : (⟨.registry, s.next⟩ : PwObject) ∉ heap.freed := by
    intro freed
    exact absurd (h.freed _ freed) (Nat.lt_irrefl _)
  have linked := made.addListener (o := ⟨.registry, s.next⟩) (by simp) free
  refine ⟨_, (linked.congr ?_ ?_).trace_eq (by simp [newRegistry, newMonitor, emit, object])⟩
  · rintro ⟨kind, number⟩ _
    cases kind <;> simp [Holds, HasProxy, newRegistry, newMonitor, emit, unset, fresh, eq_comm]
  · rintro ⟨kind, number⟩
    cases kind <;> simp +contextual [Listens, HasProxy, newRegistry, newMonitor, emit]

theorem tidy_useAll {s : TracedClient} (h : s.Tidy) {kind : PwKind} (notLink : kind ≠ .link) (pointer : Option Nat)
    (held : ∀ n, pointer = some n → s.Holds ⟨kind, n⟩) : (s.useAll (object kind pointer)).Tidy := by
  obtain ⟨heap, h⟩ := h
  cases pointer with
  | none => exact ⟨heap, (h.congr (fun _ _ => Iff.rfl) fun _ same => same).trace_eq (by simp [useAll, emit, object])⟩
  | some n =>
    have live : ⟨kind, n⟩ ∈ heap.live := (h.live _ notLink).mpr (held n rfl)
    exact ⟨heap, (h.use live).trace_eq (by simp [useAll, emit, object])⟩

theorem tidy_newSource {s : TracedClient} (h : s.Tidy) {loop : Nat} (held : s.loop = some loop)
    (unset : s.loopEventSource = none) (made : Bool) : (s.newSource made).Tidy := by
  cases made with
  | true =>
    obtain ⟨heap, h⟩ := h
    have live : ⟨.loop, loop⟩ ∈ heap.live := (h.live _ (by simp)).mpr held
    have made := h.create ⟨.source, s.next⟩ (object .loop s.loop) rfl (by simpa [object, held] using live)
    refine ⟨_, made.congr ?_ fun _ same => same⟩
    rintro ⟨kind, number⟩ _
    cases kind <;> simp [Holds, HasProxy, newSource, emit, unset, eq_comm]
  | false =>
    obtain ⟨heap, h⟩ := tidy_useAll h (by decide) s.loop fun n (same : s.loop = some n) => show s.Holds ⟨.loop, n⟩ from same
    refine ⟨heap, h.congr ?_ fun _ same => same⟩
    rintro ⟨kind, number⟩ _
    cases kind <;> simp [Holds, HasProxy, newSource, useAll, emit, unset]

/-- A pointer whose object is destroyed, with all gone that goes before. -/
theorem tidy_drop {s t : TracedClient} (h : s.Tidy) {kind : PwKind} {pointer : Option Nat} (notLink : kind ≠ .link)
    (held : ∀ n, s.Holds ⟨kind, n⟩ ↔ pointer = some n) (last : ∀ n p, s.Holds p → goesBefore p ⟨kind, n⟩ = false)
    (trace : t.trace = s.trace ++ (object kind pointer).map Call.destroy) (next : t.next = s.next)
    (holds : ∀ o, t.Holds o ↔ s.Holds o ∧ o.kind ≠ kind) (listens : ∀ o, t.Listens o → s.Listens o) : t.Tidy := by
  obtain ⟨heap, h⟩ := h
  unfold Tidy
  rw [next]
  cases pointer with
  | none =>
    refine ⟨heap, (h.congr (fun o _ => ?_) listens).trace_eq (by simp [trace, object])⟩
    rw [holds, and_iff_left_iff_imp]
    rintro here rfl
    simpa using (held o.number).mp here
  | some n =>
    have live : ⟨kind, n⟩ ∈ heap.live := (h.live _ notLink).mpr ((held n).mpr rfl)
    refine ⟨_, ((h.destroy live notLink (last n)).congr (fun o _ => ?_) listens).trace_eq (by simp [trace, object])⟩
    rw [holds]
    refine and_congr_right fun here => not_congr ⟨?_, fun same => by rw [same]⟩
    rintro rfl
    have same : n = o.number := Option.some.inj ((held o.number).mp here)
    rw [same]

/-- The loop goes last. -/
theorem tidy_dropLoop {s : TracedClient} (h : s.Tidy) (context : s.context = none) (core : s.core = none)
    (registry : s.registryPw = none) (monitor : s.monitor = none) (source : s.loopEventSource = none) :
    s.dropLoop.Tidy := by
  refine tidy_drop h (by decide) (fun n => Iff.rfl) ?_ rfl rfl ?_ fun _ same => same
  · rintro n ⟨kind, number⟩ holds
    cases kind <;> simp_all [Holds, HasProxy, goesBefore, PwKind.goesBefore]
  · rintro ⟨kind, number⟩
    cases kind <;> simp [Holds, HasProxy, dropLoop, emit]

theorem tidy_dropContext {s : TracedClient} (h : s.Tidy) (core : s.core = none) (registry : s.registryPw = none)
    (monitor : s.monitor = none) : s.dropContext.Tidy := by
  refine tidy_drop h (by decide) (fun n => Iff.rfl) ?_ rfl rfl ?_ fun _ same => same
  · rintro n ⟨kind, number⟩ holds
    cases kind <;> simp_all [Holds, HasProxy, goesBefore, PwKind.goesBefore]
  · rintro ⟨kind, number⟩
    cases kind <;> simp [Holds, HasProxy, dropContext, emit]

theorem tidy_dropCore {s : TracedClient} (h : s.Tidy) (registry : s.registryPw = none)
    (monitor : s.monitor = none) : s.dropCore.Tidy := by
  refine tidy_drop h (by decide) (fun n => Iff.rfl) ?_ rfl rfl ?_ fun _ same => same
  · rintro n ⟨kind, number⟩ holds
    cases kind <;> simp_all [Holds, HasProxy, goesBefore, PwKind.goesBefore]
  · rintro ⟨kind, number⟩
    cases kind <;> simp [Holds, HasProxy, dropCore, emit]

theorem tidy_dropRegistry {s : TracedClient} (h : s.Tidy) (monitor : s.monitor = none) : s.dropRegistry.Tidy := by
  refine tidy_drop h (by decide) (fun n => Iff.rfl) ?_ rfl rfl ?_ fun _ same => same
  · rintro n ⟨kind, number⟩ holds
    cases kind <;> simp_all [Holds, HasProxy, goesBefore, PwKind.goesBefore]
  · rintro ⟨kind, number⟩
    cases kind <;> simp [Holds, HasProxy, dropRegistry, emit]

theorem tidy_dropSource {s : TracedClient} (h : s.Tidy) : s.dropSource.Tidy := by
  unfold dropSource
  split
  next n loop source held =>
    have used := tidy_useAll h (by decide) (some loop) fun n (same : some loop = some n) =>
      show s.Holds ⟨.loop, n⟩ from held.trans same
    have pointer (m : Nat) : (s.useAll (object .loop (some loop))).Holds ⟨.source, m⟩ ↔ some n = some m := by
      simp [Holds, useAll, emit, source]
    refine tidy_drop used (by decide) pointer ?_ ?_ rfl ?_ fun _ same => same
    · rintro m ⟨kind, number⟩ _
      cases kind <;> rfl
    · simp [useAll, emit, object]
    · rintro ⟨kind, number⟩
      cases kind <;> simp [Holds, HasProxy, useAll, emit]
  next => exact h

/-- A hook of a live object, unlinked and freed. -/
theorem tidy_releaseHook {s t : TracedClient} (h : s.Tidy) {o : PwObject} (notLink : o.kind ≠ .link) (live : s.Holds o)
    (listening : s.Listens o) (old : o.number < s.next)
    (trace : t.trace = s.trace ++ [.hookRemove o, .freeHook o]) (next : t.next = s.next)
    (holds : ∀ p, t.Holds p ↔ s.Holds p) (listens : ∀ p, t.Listens p → s.Listens p ∧ p ≠ o) : t.Tidy := by
  obtain ⟨heap, h⟩ := h
  have there := (h.live o notLink).mpr live
  have removed := h.hookRemove there listening
  have freed := removed.freeHook listening old (Or.inl (by simp))
  unfold Tidy
  rw [next]
  exact ⟨_, (freed.congr (fun p _ => holds p) listens).trace_eq (by simp [trace])⟩

theorem tidy_dropCoreListener {s : TracedClient} (h : s.Tidy) (same : s.coreListener = s.core)
    (numbered : ∀ n, s.core = some n → n < s.next) : s.dropCoreListener.Tidy := by
  cases held : s.core with
  | none =>
    rw [held] at same
    obtain ⟨heap, h⟩ := h
    refine ⟨heap, (h.congr ?_ ?_).trace_eq (by simp [dropCoreListener, emit, object, same])⟩
    · rintro ⟨kind, number⟩ _
      cases kind <;> simp [Holds, HasProxy, dropCoreListener, emit]
    · rintro ⟨kind, number⟩
      cases kind <;> simp [Listens, HasProxy, dropCoreListener, emit]
  | some n =>
    rw [held] at same
    refine tidy_releaseHook h (o := ⟨.core, n⟩) (by simp) held same (numbered n held) ?_ rfl ?_ ?_
    · simp [dropCoreListener, emit, object, same]
    · rintro ⟨kind, number⟩
      cases kind <;> simp [Holds, HasProxy, dropCoreListener, emit]
    · rintro ⟨kind, number⟩
      cases kind <;> simp +contextual [Listens, HasProxy, dropCoreListener, emit]

end TracedClient

end PwDart
