import PwDart.TeardownLaw

namespace PwDart

open ObjectTrace

/-- The calls that are added make no links. -/
def Extends (s t : TracedClient) : Prop :=
  ∃ calls, t.trace = s.trace ++ calls ∧ ∀ o ∈ made calls, o.kind ≠ .link

namespace Extends

variable {s t u : TracedClient}

theorem refl (same : t.trace = s.trace) : Extends s t := ⟨[], by simp [same], by simp [made]⟩

theorem trans (first : Extends s t) (second : Extends t u) : Extends s u := by
  obtain ⟨calls, same, free⟩ := first
  obtain ⟨more, same', free'⟩ := second
  refine ⟨calls ++ more, by rw [same', same, List.append_assoc], fun o here => ?_⟩
  rw [made_append] at here
  rcases List.mem_append.mp here with before | after
  · exact free o before
  · exact free' o after

theorem of_calls {calls : List PwCall} (trace : t.trace = s.trace ++ calls) (free : ∀ o ∈ made calls, o.kind ≠ .link) :
    Extends s t :=
  ⟨calls, trace, free⟩

end Extends

theorem made_destroyCalls (data : ProxyData) : made data.destroyCalls = [] := by
  unfold ProxyData.destroyCalls
  cases data.proxy with
  | none => rfl
  | some p => cases data.listener <;> rfl

theorem made_destroyAll (datas : List ProxyData) : made (datas.flatMap ProxyData.destroyCalls) = [] := by
  induction datas with
  | nil => rfl
  | cons data datas ih => rw [List.flatMap_cons, made_append, made_destroyCalls, ih, List.nil_append]

theorem made_uses (objects : List PwObject) : made (objects.map Call.use : List PwCall) = [] := by
  simp [made, Call.makes]

theorem made_destroys (objects : List PwObject) : made (objects.map Call.destroy : List PwCall) = [] := by
  simp [made, Call.makes]

theorem made_releases (hooks : List PwObject) :
    made (hooks.flatMap fun h => [.hookRemove h, .freeHook h] : List PwCall) = [] := by
  induction hooks with
  | nil => rfl
  | cons h hooks ih => rw [List.flatMap_cons, made_append, ih, List.append_nil]; rfl

namespace TracedClient

theorem extends_useAll (s : TracedClient) (objects : List PwObject) : Extends s (s.useAll objects) :=
  .of_calls rfl (by simp [made_uses])

theorem extends_newLoop (s : TracedClient) : Extends s s.newLoop := .of_calls rfl (by simp [made, Call.makes])

theorem extends_newContext (s : TracedClient) : Extends s s.newContext := .of_calls rfl (by simp [made, Call.makes])

theorem extends_newCore (s : TracedClient) : Extends s s.newCore.newCoreListener := by
  have core : Extends s s.newCore := .of_calls rfl (by simp [made, Call.makes])
  exact core.trans (.of_calls rfl (by simp [made, Call.makes]))

theorem extends_newRegistry (s : TracedClient) : Extends s s.newRegistry.newMonitor := by
  have registry : Extends s s.newRegistry := .of_calls rfl (by simp [made, Call.makes])
  exact registry.trans (.of_calls rfl (by simp [made, Call.makes]))

theorem extends_newSource (s : TracedClient) (made : Bool) : Extends s (s.newSource made) := by
  cases made with
  | true => exact .of_calls rfl (by simp [ObjectTrace.made, Call.makes])
  | false => exact (s.extends_useAll _).trans (.refl rfl)

theorem extends_dropLoop (s : TracedClient) : Extends s s.dropLoop := .of_calls rfl (by simp [made_destroys])

theorem extends_dropContext (s : TracedClient) : Extends s s.dropContext := .of_calls rfl (by simp [made_destroys])

theorem extends_dropCore (s : TracedClient) : Extends s s.dropCore := .of_calls rfl (by simp [made_destroys])

theorem extends_dropRegistry (s : TracedClient) : Extends s s.dropRegistry := .of_calls rfl (by simp [made_destroys])

theorem extends_dropCoreListener (s : TracedClient) : Extends s s.dropCoreListener :=
  .of_calls rfl (by rw [made_releases]; simp)

theorem extends_dropMonitor (s : TracedClient) : Extends s s.dropMonitor := by
  unfold dropMonitor
  split
  next => exact .refl rfl
  next m _ =>
    refine .of_calls rfl ?_
    have proxies := made_destroyAll (m.proxies.toList.map Prod.snd)
    rw [List.flatMap_map] at proxies
    rw [made_append, made_releases, proxies]
    simp

theorem extends_dropSource (s : TracedClient) : Extends s s.dropSource := by
  unfold dropSource
  split
  next => exact .of_calls rfl (by simp [made, Call.makes])
  next => exact .refl rfl

theorem extends_failContext (s : TracedClient) : Extends s s.failContext := by
  have used := s.extends_useAll (object .loop s.loop)
  exact used.trans (Extends.trans (.refl rfl) (extends_dropLoop _))

theorem extends_failCore (s : TracedClient) : Extends s s.failCore := by
  have used := s.extends_useAll (object .context s.context)
  exact used.trans (Extends.trans (.refl rfl) ((extends_dropContext _).trans (extends_dropLoop _)))

theorem extends_failRegistry (s : TracedClient) : Extends s s.failRegistry := by
  have used := s.extends_useAll (object .core s.core)
  have dropped := (extends_dropCore { s.useAll (object .core s.core) with registryPw := none }).trans
    ((extends_dropContext _).trans (extends_dropLoop _))
  exact used.trans (Extends.trans (.refl rfl) dropped)

theorem extends_connect (s : TracedClient) (answers : ConnectAnswers) : Extends s (s.connect answers) := by
  unfold connect
  have looped := s.extends_newLoop
  have contexted := looped.trans s.newLoop.extends_newContext
  have cored := contexted.trans s.newLoop.newContext.extends_newCore
  split
  next => exact .refl rfl
  next =>
    split
    next => exact .refl rfl
    next =>
      split
      next => exact looped.trans (extends_failContext _)
      next =>
        split
        next => exact contexted.trans (extends_failCore _)
        next =>
          split
          next => exact cored.trans (extends_failRegistry _)
          next =>
            have monitored := cored.trans (extends_newRegistry _)
            exact (monitored.trans (extends_newSource _ answers.addEvent)).trans (.refl rfl)

theorem extends_teardown (s : TracedClient) : Extends s s.teardown := by
  have first := s.extends_dropMonitor.trans (extends_dropSource _)
  have registry := first.trans (extends_dropRegistry _)
  have core := (registry.trans (extends_dropCoreListener _)).trans (extends_dropCore _)
  exact (core.trans (extends_dropContext _)).trans (extends_dropLoop _)

theorem extends_destruct (s : TracedClient) : Extends s s.destruct := by
  refine s.extends_dropMonitor.trans (.of_calls rfl ?_)
  intro o here
  have none : made ((object .core s.coreListener).map Call.freeHook : List PwCall) = [] := by
    simp [made, Call.makes]
  rw [none] at here
  cases here

theorem made_bindCalls (registry : Nat) (bound : Option PwProxy) :
    ∀ o ∈ made (bindCalls registry bound), o.kind ≠ .link := by
  cases bound <;> simp [bindCalls, made, Call.makes]

theorem extends_callback {s t : TracedClient} {c : Callback} (step : s.callback c = some t) : Extends s t := by
  unfold callback at step
  split at step
  next m registry _ _ =>
    split at step
    next id type props bound =>
      obtain ⟨_, same⟩ := Option.ite_none_right_eq_some.mp step
      cases Option.some.inj same
      refine .of_calls rfl ?_
      unfold RegistryMonitor.globalCalls
      split
      next =>
        intro o here
        rw [made_append] at here
        rcases List.mem_append.mp here with bind | replaced
        · exact made_bindCalls registry bound o bind
        · split at replaced
          · rw [made_destroyAll] at replaced
            cases replaced
          · rw [made_destroyCalls] at replaced
            cases replaced
      next => simp [made]
    next id =>
      cases Option.some.inj step
      refine .of_calls rfl ?_
      unfold RegistryMonitor.globalRemoveCalls
      split
      next => simp [made_destroyAll]
      next => simp [made]
    next =>
      cases Option.some.inj step
      exact .refl rfl
  next => cases step

/-- Only a `create_link` that gets a proxy makes one for a link. -/
theorem extends_take {s t : TracedClient} {l : TracedStep} (step : s.take l = some t)
    (linkless : ∀ output input request, l = .command (.createLink output input request) .proxy → s.connected = false) :
    Extends s t := by
  cases l with
  | connect answers =>
    obtain ⟨_, same⟩ := Option.ite_none_right_eq_some.mp step
    cases Option.some.inj same
    exact s.extends_connect answers
  | sync | iterate =>
    obtain ⟨_, same⟩ := Option.ite_none_right_eq_some.mp step
    cases Option.some.inj same
    exact s.extends_useAll _
  | settled =>
    obtain ⟨_, same⟩ := Option.ite_none_right_eq_some.mp step
    cases Option.some.inj same
    exact (s.extends_useAll _).trans (.refl rfl)
  | callback c => exact extends_callback step
  | command cmd answer =>
    obtain ⟨_, same⟩ := Option.ite_none_right_eq_some.mp step
    cases Option.some.inj same
    cases cmd with
    | createLink output input request =>
      simp only [command]
      split
      next on =>
        split
        next => exact .of_calls rfl (by simp [made, Call.makes])
        next =>
          have off := linkless output input request rfl
          rw [off] at on
          cases on
        next => exact .refl rfl
      next => exact .refl rfl
    | destroyLink link request =>
      simp only [command]
      split
      next => exact s.extends_useAll _
      next => exact .refl rfl
    | disconnect => exact s.extends_useAll _
    | setParam | enumParams | getSnapshot => exact .refl rfl
  | disconnect =>
    simp only [take] at step
    split at step
    next =>
      cases Option.some.inj step
      exact .refl rfl
    next =>
      obtain ⟨_, same⟩ := Option.ite_none_right_eq_some.mp step
      cases Option.some.inj same
      exact (s.extends_useAll _).trans (.refl rfl)
  | teardown =>
    obtain ⟨_, same⟩ := Option.ite_none_right_eq_some.mp step
    cases Option.some.inj same
    exact s.extends_teardown.trans (.refl rfl)
  | destruct =>
    obtain ⟨_, same⟩ := Option.ite_none_right_eq_some.mp step
    cases Option.some.inj same
    exact s.extends_destruct.trans (.refl rfl)

theorem extends_createLink (s : TracedClient) {core : Nat} (output input : UInt32) (request : Int64)
    (on : s.connected = true) (held : s.core = some core) :
    (s.command .proxy (.createLink output input request)).trace =
      s.trace ++ [.create ⟨.link, s.next⟩ [⟨.core, core⟩], .use ⟨.link, s.next⟩] := by
  simp [command, on, held, emit]

theorem grows_callback {s t : TracedClient} {c : Callback} (step : s.callback c = some t) : s.trace <+: t.trace := by
  obtain ⟨calls, same, _⟩ := extends_callback step
  exact ⟨calls, same.symm⟩

theorem grows_take {s t : TracedClient} {l : TracedStep} (step : s.take l = some t) : s.trace <+: t.trace := by
  by_cases linkless : ∀ output input request, l = .command (.createLink output input request) .proxy →
      s.connected = false
  · obtain ⟨calls, same, _⟩ := extends_take step linkless
    exact ⟨calls, same.symm⟩
  · push Not at linkless
    obtain ⟨output, input, request, rfl, on⟩ := linkless
    obtain ⟨_, same⟩ := Option.ite_none_right_eq_some.mp step
    cases Option.some.inj same
    cases held : s.core with
    | some core =>
      rw [s.extends_createLink output input request (by simpa using on) held]
      exact List.prefix_append _ _
    | none => simp [command, held]

@[simp] theorem monitor_useAll (s : TracedClient) (objects : List PwObject) :
    (s.useAll objects).monitor = s.monitor := rfl

@[simp] theorem monitor_dropLoop (s : TracedClient) : s.dropLoop.monitor = s.monitor := rfl

@[simp] theorem monitor_dropContext (s : TracedClient) : s.dropContext.monitor = s.monitor := rfl

@[simp] theorem monitor_dropCore (s : TracedClient) : s.dropCore.monitor = s.monitor := rfl

@[simp] theorem monitor_dropCoreListener (s : TracedClient) : s.dropCoreListener.monitor = s.monitor := rfl

@[simp] theorem monitor_dropRegistry (s : TracedClient) : s.dropRegistry.monitor = s.monitor := rfl

@[simp] theorem monitor_dropSource (s : TracedClient) : s.dropSource.monitor = s.monitor := by
  unfold dropSource
  split
  next => rfl
  next => rfl

@[simp] theorem monitor_dropMonitor (s : TracedClient) : s.dropMonitor.monitor = none := s.dropMonitor_frame.1

theorem monitor_newCore (s : TracedClient) : s.newLoop.newContext.newCore.newCoreListener.monitor = s.monitor := rfl

theorem monitor_failContext (s : TracedClient) : s.failContext.monitor = s.monitor := rfl

theorem monitor_failCore (s : TracedClient) : s.failCore.monitor = s.monitor := rfl

theorem monitor_failRegistry (s : TracedClient) : s.failRegistry.monitor = s.monitor := rfl

theorem monitor_connect (s : TracedClient) (answers : ConnectAnswers) :
    (s.connect answers).monitor = s.monitor ∨ (s.connect answers).monitor = some {} := by
  unfold connect
  split
  next => exact Or.inl rfl
  next =>
    split
    next => exact Or.inl rfl
    next =>
      split
      next => exact Or.inl (monitor_failContext _)
      next =>
        split
        next => exact Or.inl (monitor_failCore _)
        next =>
          split
          next => exact Or.inl ((monitor_failRegistry _).trans s.monitor_newCore)
          next => exact Or.inr (newSource_frame _ answers.addEvent).2.2.2.2.1

theorem monitor_command (s : TracedClient) (answer : LinkAnswer) (cmd : Command) :
    (s.command answer cmd).monitor = s.monitor := by
  cases cmd with
  | createLink output input request =>
    simp only [command]
    split
    next =>
      split
      next => rfl
      next => rfl
      next => rfl
    next => rfl
  | destroyLink link request =>
    simp only [command]
    split
    next => rfl
    next => rfl
  | disconnect | setParam | enumParams | getSnapshot => rfl

/-- Between the callbacks the monitor stays, is new or goes. -/
theorem monitor_take {s t : TracedClient} {l : TracedStep} (step : s.take l = some t)
    (notCallback : ∀ c, l ≠ .callback c) {m : RegistryMonitor} (monitor : t.monitor = some m) :
    s.monitor = some m ∨ m = {} := by
  cases l with
  | connect answers =>
    obtain ⟨_, same⟩ := Option.ite_none_right_eq_some.mp step
    cases Option.some.inj same
    rcases s.monitor_connect answers with kept | new
    · exact Or.inl (kept.symm.trans monitor)
    · exact Or.inr (Option.some.inj (monitor.symm.trans new))
  | sync | iterate | settled =>
    obtain ⟨_, same⟩ := Option.ite_none_right_eq_some.mp step
    cases Option.some.inj same
    exact Or.inl monitor
  | callback c => exact absurd rfl (notCallback c)
  | command cmd answer =>
    obtain ⟨_, same⟩ := Option.ite_none_right_eq_some.mp step
    cases Option.some.inj same
    rw [monitor_command] at monitor
    exact Or.inl monitor
  | disconnect =>
    simp only [take] at step
    split at step
    next =>
      cases Option.some.inj step
      exact Or.inl monitor
    next =>
      obtain ⟨_, same⟩ := Option.ite_none_right_eq_some.mp step
      cases Option.some.inj same
      exact Or.inl monitor
  | teardown =>
    obtain ⟨_, same⟩ := Option.ite_none_right_eq_some.mp step
    cases Option.some.inj same
    simp [TracedClient.teardown] at monitor
  | destruct =>
    obtain ⟨_, same⟩ := Option.ite_none_right_eq_some.mp step
    cases Option.some.inj same
    simp [TracedClient.destruct, emit] at monitor

end TracedClient

end PwDart
