import PwDart.LabelledRun
import PwDart.TeardownProxies

namespace PwDart

open LabelledRun ObjectTrace

namespace TracedClient

/-- No pointer is set; the listener of an earlier core may be left. -/
structure Unset (s : TracedClient) : Prop where
  connected : s.connected = false
  loop : s.loop = none
  context : s.context = none
  core : s.core = none
  registryPw : s.registryPw = none
  monitor : s.monitor = none
  source : s.loopEventSource = none

/-- All pointers are set, except that there may be no event source. -/
structure Complete (s : TracedClient) : Prop where
  loop : ∃ n, s.loop = some n
  context : ∃ n, s.context = some n
  core : ∃ n, s.core = some n
  registryPw : ∃ n, s.registryPw = some n
  monitor : ∃ m, s.monitor = some m
  coreListener : s.coreListener = s.core
  registryListener : s.registryListener = s.registryPw

def Staged (s : TracedClient) : Prop :=
  match s.stage with
  | .idle => s.Unset
  | .destroyed => s.Unset
  | .settling => s.Complete ∧ s.connected = false
  | .connected => s.Complete ∧ s.connected = true
  | .disconnecting => s.Complete ∧ s.connected = false

theorem Unset.later {s t : TracedClient} (h : s.Unset) (same : t = { s with next := t.next, trace := t.trace }) :
    t.Unset := by
  rw [same]
  exact ⟨h.connected, h.loop, h.context, h.core, h.registryPw, h.monitor, h.source⟩

theorem Complete.later_monitor {s t : TracedClient} (h : s.Complete) {m : RegistryMonitor}
    (same : t = { s with
      stage := t.stage, connected := t.connected, monitor := some m, next := t.next, trace := t.trace }) :
    t.Complete := by
  rw [same]
  exact ⟨h.loop, h.context, h.core, h.registryPw, ⟨m, rfl⟩, h.coreListener, h.registryListener⟩

theorem Complete.later {s t : TracedClient} (h : s.Complete)
    (same : t = { s with stage := t.stage, connected := t.connected, next := t.next, trace := t.trace }) :
    t.Complete := by
  obtain ⟨m, monitor⟩ := h.monitor
  refine h.later_monitor (m := m) ?_
  rw [← monitor]
  exact same

structure Sound (s : TracedClient) : Prop where
  tidy : s.Tidy
  staged : s.Staged
  bound : ∀ m, s.monitor = some m → BoundProxies m s.next
  coreListener : ∀ n, s.coreListener = some n → n < s.next
  core : ∀ n, s.core = some n → n < s.next
  registryPw : ∀ n, s.registryPw = some n → n < s.next

theorem sound_start : Sound {} where
  tidy := tidy_start
  staged := ⟨rfl, rfl, rfl, rfl, rfl, rfl, rfl⟩
  bound m h := by cases h
  coreListener n h := by cases h
  core n h := by cases h
  registryPw n h := by cases h

theorem Tidy.congr {s t : TracedClient} (h : s.Tidy) (holds : ∀ o, t.Holds o ↔ s.Holds o)
    (listens : ∀ o, t.Listens o → s.Listens o) (next : t.next = s.next) (trace : t.trace = s.trace) : t.Tidy := by
  obtain ⟨heap, h⟩ := h
  unfold Tidy
  rw [next, trace]
  exact ⟨heap, h.congr (fun o _ => holds o) listens⟩

/-- A client that is still without a registry. -/
structure Bare (s : TracedClient) : Prop where
  tidy : s.Tidy
  idle : s.stage = .idle
  connected : s.connected = false
  registryPw : s.registryPw = none
  monitor : s.monitor = none
  source : s.loopEventSource = none
  coreListener : ∀ n, s.coreListener = some n → n < s.next

/-- What `connect` leaves when it fails. -/
theorem Bare.sound {s : TracedClient} (h : s.Bare) (loop : s.loop = none) (context : s.context = none)
    (core : s.core = none) : s.Sound where
  tidy := h.tidy
  staged := by
    rw [Staged, h.idle]
    exact ⟨h.connected, loop, context, core, h.registryPw, h.monitor, h.source⟩
  bound m same := by
    rw [h.monitor] at same
    cases same
  coreListener := h.coreListener
  core n same := by
    rw [core] at same
    cases same
  registryPw n same := by
    rw [h.registryPw] at same
    cases same

theorem Bare.useAll {s : TracedClient} (h : s.Bare) (kind : PwKind) (notLink : kind ≠ .link) (pointer : Option Nat)
    (held : ∀ n, pointer = some n → s.Holds ⟨kind, n⟩) : (s.useAll (object kind pointer)).Bare :=
  ⟨tidy_useAll h.tidy notLink pointer held, h.idle, h.connected, h.registryPw, h.monitor, h.source, h.coreListener⟩

theorem Bare.dropLoop {s : TracedClient} (h : s.Bare) (context : s.context = none) (core : s.core = none) :
    s.dropLoop.Bare :=
  ⟨tidy_dropLoop h.tidy context core h.registryPw h.monitor h.source, h.idle, h.connected, h.registryPw, h.monitor,
    h.source, h.coreListener⟩

theorem Bare.dropContext {s : TracedClient} (h : s.Bare) (core : s.core = none) : s.dropContext.Bare :=
  ⟨tidy_dropContext h.tidy core h.registryPw h.monitor, h.idle, h.connected, h.registryPw, h.monitor, h.source,
    h.coreListener⟩

theorem Bare.dropCore {s : TracedClient} (h : s.Bare) : s.dropCore.Bare :=
  ⟨tidy_dropCore h.tidy h.registryPw h.monitor, h.idle, h.connected, h.registryPw, h.monitor, h.source,
    h.coreListener⟩

theorem sound_failContext {s : TracedClient} (h : s.Bare) (context : s.context = none) (core : s.core = none) :
    s.failContext.Sound := by
  have used := h.useAll .loop (by decide) s.loop fun n same => same
  have same : { s.useAll (object .loop s.loop) with context := none } = s.useAll (object .loop s.loop) := by
    simp [useAll, emit, ← context]
  rw [failContext, same]
  exact (used.dropLoop context core).sound rfl context core

theorem sound_failCore {s : TracedClient} (h : s.Bare) (core : s.core = none) : s.failCore.Sound := by
  have used := h.useAll .context (by decide) s.context fun n same => same
  have same : { s.useAll (object .context s.context) with core := none } = s.useAll (object .context s.context) := by
    simp [useAll, emit, ← core]
  rw [failCore, same]
  exact ((used.dropContext core).dropLoop rfl core).sound rfl rfl core

theorem sound_failRegistry {s : TracedClient} (h : s.Bare) : s.failRegistry.Sound := by
  have used := h.useAll .core (by decide) s.core fun n same => same
  have same : { s.useAll (object .core s.core) with registryPw := none } = s.useAll (object .core s.core) := by
    simp [useAll, emit, ← h.registryPw]
  rw [failRegistry, same]
  exact ((used.dropCore.dropContext rfl).dropLoop rfl rfl).sound rfl rfl rfl

theorem bare_of_sound {s : TracedClient} (h : s.Sound) (unset : s.Unset) (idle : s.stage = .idle) : s.Bare :=
  ⟨h.tidy, idle, unset.connected, unset.registryPw, unset.monitor, unset.source, h.coreListener⟩

theorem bare_newLoop {s : TracedClient} (h : s.Bare) (unset : s.loop = none) : s.newLoop.Bare :=
  ⟨tidy_newLoop h.tidy unset, h.idle, h.connected, h.registryPw, h.monitor, h.source, fun n same =>
    Nat.lt_succ_of_lt (h.coreListener n same)⟩

theorem bare_newContext {s : TracedClient} (h : s.Bare) {loop : Nat} (held : s.loop = some loop)
    (unset : s.context = none) : s.newContext.Bare :=
  ⟨tidy_newContext h.tidy held unset, h.idle, h.connected, h.registryPw, h.monitor, h.source, fun n same =>
    Nat.lt_succ_of_lt (h.coreListener n same)⟩

theorem bare_newCore {s : TracedClient} (h : s.Bare) {context : Nat} (held : s.context = some context)
    (unset : s.core = none) : s.newCore.newCoreListener.Bare := by
  refine ⟨tidy_newCore h.tidy held unset h.coreListener, h.idle, h.connected, h.registryPw, h.monitor, h.source, ?_⟩
  intro n same
  cases Option.some.inj same
  exact Nat.lt_succ_self s.next

theorem newSource_frame (s : TracedClient) (made : Bool) :
    (s.newSource made).loop = s.loop ∧ (s.newSource made).context = s.context ∧ (s.newSource made).core = s.core ∧
      (s.newSource made).registryPw = s.registryPw ∧ (s.newSource made).monitor = s.monitor ∧
      (s.newSource made).coreListener = s.coreListener ∧
      (s.newSource made).registryListener = s.registryListener ∧ (s.newSource made).connected = s.connected ∧
      s.next ≤ (s.newSource made).next := by
  cases made with
  | true => exact ⟨rfl, rfl, rfl, rfl, rfl, rfl, rfl, rfl, Nat.le_succ s.next⟩
  | false => exact ⟨rfl, rfl, rfl, rfl, rfl, rfl, rfl, rfl, Nat.le_refl s.next⟩

/-- The end of a `connect` that has got everything up to the core. -/
theorem sound_settling {s : TracedClient} (h : s.Bare) {loop context core : Nat} (held : s.loop = some loop)
    (holds : s.context = some context) (live : s.core = some core) (older : core < s.next)
    (listening : s.coreListener = s.core) (made : Bool) :
    Sound { s.newRegistry.newMonitor.newSource made with stage := .settling } := by
  have listened := tidy_newRegistry h.tidy live h.registryPw h.monitor
  have tidy := tidy_newSource listened held h.source made
  obtain ⟨loop', context', core', registry', monitor', coreListener', registryListener', connected', next'⟩ :=
    newSource_frame s.newRegistry.newMonitor made
  have grown : s.next + 1 ≤ (s.newRegistry.newMonitor.newSource made).next := next'
  have numbered : ∀ n, s.core = some n → n < (s.newRegistry.newMonitor.newSource made).next := by
    intro n same
    cases live.symm.trans same
    omega
  refine ⟨tidy.congr (fun _ => Iff.rfl) (fun _ same => same) rfl rfl, ?_, ?_, ?_, ?_, ?_⟩
  · refine ⟨⟨⟨loop, loop'.trans held⟩, ⟨context, context'.trans holds⟩, ⟨core, core'.trans live⟩, ⟨s.next, registry'⟩,
      ⟨{}, monitor'⟩, ?_, ?_⟩, connected'.trans h.connected⟩
    · exact (coreListener'.trans listening).trans core'.symm
    · exact registryListener'.trans registry'.symm
  · intro m same
    cases Option.some.inj (monitor'.symm.trans same)
    exact boundProxies_empty _
  · intro n same
    exact numbered n (listening.symm.trans (coreListener'.symm.trans same))
  · intro n same
    exact numbered n (core'.symm.trans same)
  · intro n same
    cases Option.some.inj (registry'.symm.trans same)
    exact grown

theorem sound_connect {s : TracedClient} (h : s.Sound) (idle : s.stage = .idle) (answers : ConnectAnswers) :
    (s.connect answers).Sound := by
  have unset : s.Unset := by
    have staged := h.staged
    rwa [Staged, idle] at staged
  have start := bare_of_sound h unset idle
  have looped := bare_newLoop start unset.loop
  have contexted := bare_newContext looped rfl unset.context
  have cored := bare_newCore contexted rfl unset.core
  unfold connect
  split
  next => exact h
  next =>
    split
    next =>
      have same : { s with loop := none } = s := by simp [← unset.loop]
      rw [same]
      exact h
    next =>
      split
      next => exact sound_failContext looped unset.context unset.core
      next =>
        split
        next => exact sound_failCore contexted unset.core
        next =>
          split
          next => exact sound_failRegistry cored
          next => exact sound_settling cored rfl rfl rfl (Nat.lt_succ_self _) rfl answers.addEvent

/-- Callbacks come while all pointers are set. -/
theorem Staged.complete {s : TracedClient} (h : s.Staged) {m : RegistryMonitor} (monitor : s.monitor = some m) :
    s.Complete := by
  have notUnset : ¬s.Unset := by
    intro unset
    cases monitor.symm.trans unset.monitor
  unfold Staged at h
  split at h
  next => exact absurd h notUnset
  next => exact absurd h notUnset
  next => exact h.1
  next => exact h.1
  next => exact h.1

theorem Staged.later_monitor {s t : TracedClient} (h : s.Staged) {m k : RegistryMonitor} (monitor : s.monitor = some m)
    (same : t = { s with monitor := some k, next := t.next, trace := t.trace }) : t.Staged := by
  have stage : t.stage = s.stage := by rw [same]
  have connected : t.connected = s.connected := by rw [same]
  have complete : t.Complete := by
    refine (h.complete monitor).later_monitor (m := k) ?_
    rw [stage, connected]
    exact same
  rw [Staged] at h ⊢
  rw [stage, connected]
  cases here : s.stage with
  | idle | destroyed =>
    rw [here] at h
    cases monitor.symm.trans h.monitor
  | settling | connected | disconnecting =>
    rw [here] at h
    exact ⟨complete, h.2⟩

theorem Staged.later {s t : TracedClient} (h : s.Staged) (same : t = { s with next := t.next, trace := t.trace }) :
    t.Staged := by
  have pointers : t.monitor = s.monitor := by rw [same]
  cases monitor : s.monitor with
  | some m =>
    refine h.later_monitor (k := m) monitor ?_
    rw [← monitor]
    exact same
  | none =>
    have incomplete : ¬s.Complete := by
      intro complete
      obtain ⟨m, some⟩ := complete.monitor
      cases monitor.symm.trans some
    have stage : t.stage = s.stage := by rw [same]
    rw [Staged] at h ⊢
    rw [stage]
    cases here : s.stage with
    | idle | destroyed =>
      rw [here] at h
      exact h.later same
    | settling | connected | disconnecting =>
      rw [here] at h
      exact absurd h.1 incomplete

theorem Sound.useAll {s : TracedClient} (h : s.Sound) (kind : PwKind) (notLink : kind ≠ .link) (pointer : Option Nat)
    (held : ∀ n, pointer = some n → s.Holds ⟨kind, n⟩) : (s.useAll (object kind pointer)).Sound :=
  ⟨tidy_useAll h.tidy notLink pointer held, h.staged.later rfl, h.bound, h.coreListener, h.core, h.registryPw⟩

/-- A step of a client that is set up to another of its stages. -/
theorem Sound.restage {s : TracedClient} (h : s.Sound) (complete : s.Complete) {connected : Bool}
    {stage : ClientStage} (staged : ∀ t : TracedClient, t.stage = stage → t.connected = connected → t.Complete → t.Staged) :
    Sound { s with connected := connected, stage := stage } := by
  exact ⟨h.tidy.congr (fun _ => Iff.rfl) (fun _ same => same) rfl rfl, staged _ rfl rfl (complete.later rfl), h.bound,
    h.coreListener, h.core, h.registryPw⟩

theorem sound_callback {s t : TracedClient} (h : s.Sound) {c : Callback} (step : s.callback c = some t) : t.Sound := by
  unfold callback at step
  split at step
  next m registry monitor held =>
    have bound := h.bound m monitor
    split at step
    next id type props answer =>
      obtain ⟨fresh, same⟩ := Option.ite_none_right_eq_some.mp step
      cases Option.some.inj same
      refine ⟨tidy_global h.tidy monitor bound held id type props fresh, h.staged.later_monitor monitor rfl, ?_, ?_, ?_, ?_⟩
      · rintro _ ⟨⟩
        exact boundProxies_onGlobal bound id type props fresh
      · exact fun n same => Nat.lt_succ_of_lt (h.coreListener n same)
      · exact fun n same => Nat.lt_succ_of_lt (h.core n same)
      · exact fun n same => Nat.lt_succ_of_lt (h.registryPw n same)
    next id =>
      cases Option.some.inj step
      refine ⟨tidy_globalRemove h.tidy monitor bound id, h.staged.later_monitor monitor rfl, ?_, h.coreListener, h.core,
        h.registryPw⟩
      rintro _ ⟨⟩
      exact boundProxies_onGlobalRemove bound id
    next notGlobal notRemove =>
      cases Option.some.inj step
      obtain ⟨_, same⟩ := RegistryMonitor.keys_info (m := m) notGlobal notRemove
      refine ⟨tidy_info h.tidy monitor same, h.staged.later_monitor monitor rfl, ?_, h.coreListener, h.core, h.registryPw⟩
      rintro _ ⟨⟩
      exact boundProxies_of_sub bound (by rw [same]; simp)
  next => cases step

theorem sound_createLink {s : TracedClient} (h : s.Sound) {core : Nat} (held : s.core = some core) :
    Sound { s.emit [.create ⟨.link, s.next⟩ [⟨.core, core⟩], .use ⟨.link, s.next⟩] with next := s.next + 1 } := by
  have grown {p : Option Nat} (older : ∀ n, p = some n → n < s.next) : ∀ n, p = some n → n < s.next + 1 :=
    fun n same => Nat.lt_succ_of_lt (older n same)
  refine ⟨?_, h.staged.later rfl, fun m same => (h.bound m same).mono (Nat.le_succ _), grown h.coreListener, grown h.core,
    grown h.registryPw⟩
  obtain ⟨heap, ledger⟩ := h.tidy
  have live : ⟨.core, core⟩ ∈ heap.live := (ledger.live _ (by simp)).mpr held
  have made := ledger.create ⟨.link, s.next⟩ [⟨.core, core⟩] rfl (by simpa using live)
  have used := made.use (o := ⟨.link, s.next⟩) (by simp)
  refine ⟨_, (used.congr (fun o notLink => ?_) fun _ same => same).trace_eq (by simp [emit])⟩
  have other : o ≠ ⟨.link, s.next⟩ := by
    rintro rfl
    exact notLink rfl
  simp only [other, or_false]
  exact Iff.rfl

theorem sound_command {s : TracedClient} (h : s.Sound) (cmd : Command) (answer : LinkAnswer) :
    (s.command answer cmd).Sound := by
  cases cmd with
  | createLink output input request =>
    simp only [command]
    split
    next =>
      split
      next core held =>
        have used := h.useAll .core (by decide) (some core) fun n same => held.trans same
        simpa [TracedClient.useAll, object] using used
      next core held => exact sound_createLink h held
      next => exact h
    next => exact h
  | destroyLink link request =>
    simp only [command]
    split
    next => exact h.useAll .registry (by decide) s.registryPw fun n same => same
    next => exact h
  | disconnect => exact h.useAll .loop (by decide) s.loop fun n same => same
  | setParam node json request => exact h
  | enumParams node request => exact h
  | getSnapshot request => exact h

theorem dropMonitor_frame (s : TracedClient) :
    s.dropMonitor.monitor = none ∧ s.dropMonitor.loop = s.loop ∧ s.dropMonitor.core = s.core ∧
      s.dropMonitor.coreListener = s.coreListener ∧ s.dropMonitor.connected = s.connected ∧ s.dropMonitor.next = s.next := by
  unfold dropMonitor
  split
  next none => exact ⟨none, rfl, rfl, rfl, rfl, rfl⟩
  next => exact ⟨rfl, rfl, rfl, rfl, rfl, rfl⟩

theorem dropSource_frame (s : TracedClient) {loop : Nat} (held : s.loop = some loop) :
    s.dropSource.loopEventSource = none ∧ s.dropSource.monitor = s.monitor ∧ s.dropSource.core = s.core ∧
      s.dropSource.coreListener = s.coreListener ∧ s.dropSource.connected = s.connected ∧
      s.dropSource.next = s.next := by
  unfold dropSource
  rw [held]
  cases source : s.loopEventSource with
  | none => exact ⟨source, rfl, rfl, rfl, rfl, rfl⟩
  | some n => exact ⟨rfl, rfl, rfl, rfl, rfl, rfl⟩

theorem sound_idle {s : TracedClient} (tidy : s.Tidy) (unset : s.Unset) (unlistened : s.coreListener = none) :
    Sound { s with stage := .idle } where
  tidy := tidy.congr (fun _ => Iff.rfl) (fun _ same => same) rfl rfl
  staged := ⟨unset.connected, unset.loop, unset.context, unset.core, unset.registryPw, unset.monitor, unset.source⟩
  bound m same := by cases unset.monitor.symm.trans same
  coreListener n same := by cases unlistened.symm.trans same
  core n same := by cases unset.core.symm.trans same
  registryPw n same := by cases unset.registryPw.symm.trans same

theorem sound_dropContext {s : TracedClient} (tidy : s.Tidy) (off : s.connected = false) (core : s.core = none)
    (listener : s.coreListener = none) (registry : s.registryPw = none) (monitor : s.monitor = none)
    (source : s.loopEventSource = none) : Sound { s.dropContext.dropLoop with stage := .idle } := by
  have uncontexted := tidy_dropContext tidy core registry monitor
  have unlooped := tidy_dropLoop uncontexted rfl core registry monitor source
  exact sound_idle unlooped ⟨off, rfl, rfl, core, registry, monitor, source⟩ listener

theorem sound_dropCore {s : TracedClient} (tidy : s.Tidy) (off : s.connected = false) (registry : s.registryPw = none)
    (monitor : s.monitor = none) (source : s.loopEventSource = none) (listening : s.coreListener = s.core)
    (numbered : ∀ n, s.core = some n → n < s.next) :
    Sound { s.dropCoreListener.dropCore.dropContext.dropLoop with stage := .idle } := by
  have unlistened := tidy_dropCoreListener tidy listening numbered
  have uncored := tidy_dropCore unlistened registry monitor
  exact sound_dropContext uncored off rfl rfl registry monitor source

/-- The end of the teardown, from the registry on. -/
theorem sound_dropRegistry {s : TracedClient} (tidy : s.Tidy) (off : s.connected = false) (monitor : s.monitor = none)
    (source : s.loopEventSource = none) (listening : s.coreListener = s.core)
    (numbered : ∀ n, s.core = some n → n < s.next) :
    Sound { s.dropRegistry.dropCoreListener.dropCore.dropContext.dropLoop with stage := .idle } := by
  have unregistered := tidy_dropRegistry tidy monitor
  exact sound_dropCore unregistered off rfl monitor source listening numbered

theorem sound_teardown {s : TracedClient} (h : s.Sound) (complete : s.Complete) (off : s.connected = false) :
    Sound { s.teardown with stage := .idle } := by
  obtain ⟨loop, held⟩ := complete.loop
  obtain ⟨monitor₁, loop₁, core₁, listener₁, connected₁, next₁⟩ := s.dropMonitor_frame
  obtain ⟨source₂, monitor₂, core₂, listener₂, connected₂, next₂⟩ := s.dropMonitor.dropSource_frame (loop₁.trans held)
  have unmonitored := tidy_dropMonitor h.tidy h.bound (fun _ => complete.registryListener) h.registryPw
  refine sound_dropRegistry (tidy_dropSource unmonitored) ?_ ?_ source₂ ?_ ?_
  · exact connected₂.trans (connected₁.trans off)
  · exact monitor₂.trans monitor₁
  · rw [listener₂, listener₁, core₂, core₁]
    exact complete.coreListener
  · rw [core₂, core₁, next₂, next₁]
    exact h.core

theorem sound_destruct {s : TracedClient} (h : s.Sound) (unset : s.Unset) :
    Sound { s.destruct with stage := .destroyed } := by
  have kept : s.dropMonitor = s := by rw [dropMonitor, unset.monitor]
  rw [destruct, kept]
  refine ⟨?_, ⟨unset.connected, unset.loop, unset.context, unset.core, unset.registryPw, unset.monitor, unset.source⟩,
    h.bound, ?_, h.core, h.registryPw⟩
  · obtain ⟨heap, ledger⟩ := h.tidy
    cases old : s.coreListener with
    | none =>
      refine ⟨heap, (ledger.congr (fun _ _ => Iff.rfl) ?_).trace_eq (by simp [emit, object])⟩
      rintro ⟨kind, number⟩
      cases kind <;> simp [Listens, HasProxy, emit, old]
    | some n =>
      have dead : (⟨.core, n⟩ : PwObject) ∉ heap.live := by
        rw [ledger.live _ (by simp)]
        simp [Holds, unset.core]
      have freed := ledger.freeHook (o := ⟨.core, n⟩) old (h.coreListener n old) (Or.inr dead)
      refine ⟨_, (freed.congr (fun _ _ => Iff.rfl) ?_).trace_eq (by simp [emit, object])⟩
      rintro ⟨kind, number⟩
      cases kind <;> simp +contextual [Listens, HasProxy, emit]
  · rintro n ⟨⟩

theorem sound_take {s t : TracedClient} {l : TracedStep} (h : s.Sound) (step : s.take l = some t) : t.Sound := by
  have staged := h.staged
  unfold Staged at staged
  cases l with
  | connect answers =>
    obtain ⟨stage, same⟩ := Option.ite_none_right_eq_some.mp step
    cases Option.some.inj same
    rcases stage with idle | connected
    · exact sound_connect h idle answers
    · rw [connected] at staged
      rw [TracedClient.connect, if_pos staged.2]
      exact h
  | sync =>
    obtain ⟨stage, same⟩ := Option.ite_none_right_eq_some.mp step
    cases Option.some.inj same
    exact h.useAll .core (by decide) s.core fun n same => same
  | iterate =>
    obtain ⟨stage, same⟩ := Option.ite_none_right_eq_some.mp step
    cases Option.some.inj same
    exact h.useAll .loop (by decide) s.loop fun n same => same
  | settled =>
    obtain ⟨stage, same⟩ := Option.ite_none_right_eq_some.mp step
    cases Option.some.inj same
    rw [stage] at staged
    have used := h.useAll .loop (by decide) s.loop fun n same => same
    refine used.restage (staged.1.later rfl) fun t stage on complete => ?_
    rw [Staged, stage]
    exact ⟨complete, on⟩
  | callback c => exact sound_callback h step
  | command cmd answer =>
    obtain ⟨stage, same⟩ := Option.ite_none_right_eq_some.mp step
    cases Option.some.inj same
    exact sound_command h cmd answer
  | disconnect =>
    simp only [take] at step
    split at step
    next =>
      cases Option.some.inj step
      exact h
    next =>
      obtain ⟨stage, same⟩ := Option.ite_none_right_eq_some.mp step
      cases Option.some.inj same
      rw [stage] at staged
      have used := h.useAll .loop (by decide) s.loop fun n same => same
      refine used.restage (staged.1.later rfl) fun t stage off complete => ?_
      rw [Staged, stage]
      exact ⟨complete, off⟩
  | teardown =>
    obtain ⟨stage, same⟩ := Option.ite_none_right_eq_some.mp step
    cases Option.some.inj same
    rw [stage] at staged
    exact sound_teardown h staged.1 staged.2
  | destruct =>
    obtain ⟨stage, same⟩ := Option.ite_none_right_eq_some.mp step
    cases Option.some.inj same
    rw [stage] at staged
    exact sound_destruct h staged

theorem sound_run {s : TracedClient} {ls : List TracedStep} (run : Run (Takes take) {} ls s) : s.Sound :=
  run.invariant sound_start fun _ _ _ => sound_take

theorem Sound.destroyed_of_unheld {s : TracedClient} (h : s.Sound) {o : PwObject} (here : o ∈ made s.trace)
    (notLink : o.kind ≠ .link) (unheld : ¬s.Holds o) : .destroy o ∈ s.trace := by
  obtain ⟨heap, ledger⟩ := h.tidy
  obtain ⟨_, records⟩ := lawful_of_accept ledger.accepted
  by_contra undestroyed
  have live := (records.live o).mpr ⟨(records.created o).mpr (mem_made.mp here), undestroyed⟩
  exact unheld ((ledger.live o notLink).mp live)

theorem Sound.undestroyed_of_held {s : TracedClient} (h : s.Sound) {o : PwObject} (notLink : o.kind ≠ .link)
    (held : s.Holds o) : .destroy o ∉ s.trace := by
  obtain ⟨heap, ledger⟩ := h.tidy
  obtain ⟨_, records⟩ := lawful_of_accept ledger.accepted
  exact records.undestroyed ((ledger.live o notLink).mpr held)

/-- The proxies of created links stay. -/
theorem Sound.undestroyed_of_link {s : TracedClient} (h : s.Sound) {o : PwObject} (here : o ∈ made s.trace)
    (isLink : o.kind = .link) : .destroy o ∉ s.trace := by
  obtain ⟨heap, ledger⟩ := h.tidy
  obtain ⟨_, records⟩ := lawful_of_accept ledger.accepted
  exact records.undestroyed (ledger.links o ((records.created o).mpr (mem_made.mp here)) isLink)

theorem Sound.older_of_made {s : TracedClient} (h : s.Sound) {o : PwObject} (here : o ∈ made s.trace) :
    o.number < s.next := by
  obtain ⟨heap, ledger⟩ := h.tidy
  obtain ⟨_, records⟩ := lawful_of_accept ledger.accepted
  exact ledger.created o ((records.created o).mpr (mem_made.mp here))

/-- The trace law: nothing is touched after its end, things go in their order, and once the client is
destroyed everything it made is destroyed once, but for the proxies of its links. -/
theorem teardown_lawful {s : TracedClient} {ls : List TracedStep} (run : Run (Takes take) {} ls s) :
    Lawful goesBefore s.trace ∧
      (s.stage = .destroyed → ∀ o through, o.kind ≠ .link → .create o through ∈ s.trace →
        s.trace.count (.destroy o) = 1) := by
  have sound := sound_run run
  have lawful : Lawful goesBefore s.trace := by
    obtain ⟨heap, ledger⟩ := sound.tidy
    exact (lawful_of_accept ledger.accepted).1
  refine ⟨lawful, ?_⟩
  rintro ended ⟨kind, number⟩ through notLink made
  have unset : s.Unset := by
    have staged := sound.staged
    rwa [Staged, ended] at staged
  have unheld : ¬s.Holds ⟨kind, number⟩ := by
    cases kind with
    | proxy =>
      rintro ⟨m, same, _⟩
      cases unset.monitor.symm.trans same
    | link => exact id
    | loop | context | core | registry | source =>
      simp [Holds, unset.loop, unset.context, unset.core, unset.registryPw, unset.source]
  exact lawful.destroyed_once (sound.destroyed_of_unheld (mem_made.mpr ⟨through, made⟩) notLink unheld)

/-- A first `connect` fails at the registry. The second one binds a node and a port that goes, whose
bind gave nothing. -/
def failedThenWhole : List TracedStep :=
  [.connect ⟨true, true, true, false, true⟩, .connect ⟨true, true, true, true, true⟩, .sync,
    .callback (.global 30 (some interfaceNode) none (some 8)), .callback (.global 31 (some interfacePort) none none),
    .iterate, .settled, .callback (.globalRemove 31), .disconnect, .teardown, .destruct]

theorem teardown_lawful_failedThenWhole :
    ∃ s, Run (Takes take) {} failedThenWhole s ∧ Lawful goesBefore s.trace ∧
      s.trace.count (.destroy ⟨.proxy, 8⟩) = 1 ∧ s.trace.count (.destroy ⟨.core, 2⟩) = 1 := by
  have run : Run (Takes take) {} failedThenWhole _ := run_takes_iff.mpr rfl
  obtain ⟨lawful, once⟩ := teardown_lawful run
  refine ⟨_, run, lawful, ?_, ?_⟩
  · exact once rfl ⟨.proxy, 8⟩ [⟨.registry, 6⟩] (by decide) (by decide +kernel)
  · exact once rfl ⟨.core, 2⟩ [⟨.context, 1⟩] (by decide) (by decide +kernel)

end TracedClient

end PwDart
