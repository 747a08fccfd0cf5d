import PwDart.LockedMonitor
import PwDart.LockedRuns

namespace PwDart

open LabelledRun Locked

namespace RegistryMonitor

/-- The events that a history of callbacks posts. -/
def posted (calls : List Callback) : List GraphEvent :=
  (calls.foldl (fun s c => ((s.1.call c).1, s.2 ++ (s.1.call c).2)) (({} : RegistryMonitor), [])).2

theorem posted_append_singleton (calls : List Callback) (c : Callback) :
    posted (calls ++ [c]) = posted calls ++ ((replay calls).call c).2 := by
  have both : (calls.foldl (fun s c => ((s.1.call c).1, s.2 ++ (s.1.call c).2))
      (({} : RegistryMonitor), [])).1 = replay calls := by
    induction calls using List.reverseRecOn with
    | nil => rfl
    | append_singleton calls c ih => rw [List.foldl_append, replay_append_singleton, ← ih]; rfl
  rw [posted, List.foldl_append, ← both]
  rfl

end RegistryMonitor

def MonitorOp.callback? : MonitorOp → Option Callback
  | .callback c => some c
  | .getSnapshot => none

/-- The callbacks among the operations of a thread. -/
def callbacks (ops : List MonitorOp) : List Callback := ops.filterMap MonitorOp.callback?

section

variable (s : Serial NativeThread MonitorMaps LoopMaps)

/-- What a callback in one step leaves, as one monitor. -/
def PerformsCall (t : Serial NativeThread MonitorMaps LoopMaps) (c : Callback) : Prop :=
  t.shared.join (t.memory .loop) = ((s.shared.join (s.memory .loop)).call c).1 ∧
    t.shared.posted = s.shared.posted ++ ((s.shared.join (s.memory .loop)).call c).2

theorem perform_global (id : UInt32) (type : Option String) (props : Option SpaDict) (bound : Option PwProxy) :
    PerformsCall s (s.perform monitorProgram monitorResult (.loop, .callback (.global id type props bound)))
      (.global id type props bound) := by
  simp only [PerformsCall, Serial.perform, monitorProgram, monitorResult, RegistryMonitor.call, RegistryMonitor.raised]
  by_cases node : type = some interfaceNode
  · have text : kindText type = some "node" := if_pos node
    have made (m : RegistryMonitor) := show m.onGlobal id type props bound = _ from if_pos node
    simp [made, text, MonitorMaps.join, MonitorMaps.take]
  by_cases port : type = some interfacePort
  · have text : kindText type = some "port" := (if_neg node).trans (if_pos port)
    have made (m : RegistryMonitor) := show m.onGlobal id type props bound = _ from (if_neg node).trans (if_pos port)
    cases info : newPortInfo id props <;> simp [made, text, info, MonitorMaps.join, MonitorMaps.take]
  by_cases link : type = some interfaceLink
  · have text : kindText type = some "link" := (if_neg node).trans ((if_neg port).trans (if_pos link))
    have made (m : RegistryMonitor) := show m.onGlobal id type props bound = _ from
      (if_neg node).trans ((if_neg port).trans (if_pos link))
    cases info : newLinkInfo id props <;> simp [made, text, info, MonitorMaps.join, MonitorMaps.take]
  by_cases device : type = some interfaceDevice
  · have text : kindText type = some "device" :=
      (if_neg node).trans ((if_neg port).trans ((if_neg link).trans (if_pos device)))
    have made (m : RegistryMonitor) := show m.onGlobal id type props bound = _ from
      (if_neg node).trans ((if_neg port).trans ((if_neg link).trans (if_pos device)))
    simp [made, text, MonitorMaps.join, MonitorMaps.take]
  · have text : kindText type = none := by simp [kindText, node, port, link, device]
    have made (m : RegistryMonitor) : m.onGlobal id type props bound = (m, none) := by
      simp [RegistryMonitor.onGlobal, node, port, link, device]
    simp [made, text, MonitorMaps.join]

theorem perform_globalRemove (id : UInt32) :
    PerformsCall s (s.perform monitorProgram monitorResult (.loop, .callback (.globalRemove id))) (.globalRemove id) := by
  cases typed : (s.memory .loop).idTypes[id]? with
  | none =>
    have free : monitorProgram.locks (.callback (.globalRemove id)) (s.memory .loop) = false := by
      simp only [monitorProgram, typed, Option.isSome_none]
    rw [PerformsCall, Serial.perform_free free]
    simp [monitorProgram, RegistryMonitor.call, RegistryMonitor.onGlobalRemove, MonitorMaps.join, typed]
  | some type =>
    have locks : monitorProgram.locks (.callback (.globalRemove id)) (s.memory .loop) = true := by
      simp only [monitorProgram, typed, Option.isSome_some]
    rw [PerformsCall, Serial.perform_locks rfl locks]
    simp [monitorProgram, monitorResult, RegistryMonitor.call, RegistryMonitor.onGlobalRemove, MonitorMaps.join,
      MonitorMaps.take, typed]

/-- The info callbacks touch only what the lock guards. -/
theorem call_info (m : RegistryMonitor) (c : Callback) (about : c.lifetimeOf = none) :
    (m.call c).1.proxies = m.proxies ∧ (m.call c).1.idTypes = m.idTypes := by
  cases c with
  | global | globalRemove => cases about
  | nodeInfo id info =>
    simp only [RegistryMonitor.call, RegistryMonitor.onNodeInfo]
    split <;> exact ⟨rfl, rfl⟩
  | portInfo id info =>
    simp only [RegistryMonitor.call, RegistryMonitor.onPortInfo]
    split <;> exact ⟨rfl, rfl⟩
  | linkInfo id info =>
    simp only [RegistryMonitor.call, RegistryMonitor.onLinkInfo]
    split <;> exact ⟨rfl, rfl⟩
  | deviceInfo id info =>
    simp only [RegistryMonitor.call, RegistryMonitor.onDeviceInfo]
    split <;> exact ⟨rfl, rfl⟩

/-- An info callback with an info takes the lock for all it does, and one without does nothing. -/
theorem perform_info (c : Callback) (about : c.lifetimeOf = none) :
    PerformsCall s (s.perform monitorProgram monitorResult (.loop, .callback c)) c := by
  have same : monitorProgram.before (.callback c) (s.memory .loop) = s.memory .loop := by
    cases c <;> first | rfl | cases about
  cases locks : monitorProgram.locks (.callback c) (s.memory .loop) with
  | false =>
    have nothing : (s.shared.join (s.memory .loop)).call c = (s.shared.join (s.memory .loop), []) := by
      cases c <;> try cases about
      all_goals
        simp only [monitorProgram, Option.isSome_eq_false_iff, Option.isNone_iff_eq_none] at locks
        subst locks
        rfl
    rw [PerformsCall, Serial.perform_free (by rw [same]; exact locks), nothing]
    simp [same]
  | true =>
    have kept (r : MonitorResult) : monitorProgram.after (.callback c) r (s.memory .loop) = s.memory .loop := by
      cases c <;> first | rfl | cases about
    have untouched := call_info (s.shared.join (s.memory .loop)) c about
    rw [PerformsCall, Serial.perform_locks same.symm locks]
    simp only [monitorResult, kept, Function.update_self]
    refine ⟨?_, rfl⟩
    rw [MonitorMaps.join, MonitorMaps.take, show (s.memory .loop).proxies = _ from untouched.1.symm,
      show (s.memory .loop).idTypes = _ from untouched.2.symm]

theorem perform_callback (c : Callback) :
    PerformsCall s (s.perform monitorProgram monitorResult (.loop, .callback c)) c := by
  cases c with
  | global id type props bound => exact perform_global s id type props bound
  | globalRemove id => exact perform_globalRemove s id
  | nodeInfo id info => exact perform_info s _ rfl
  | portInfo id info => exact perform_info s _ rfl
  | linkInfo id info => exact perform_info s _ rfl
  | deviceInfo id info => exact perform_info s _ rfl

end

/-- When no operation is cut, the monitor has gone through the callbacks of the log. -/
theorem serial_monitor {log : List (NativeThread × MonitorOp)}
    (allowed : ∀ e ∈ log, monitorProgram.allowed e.1 e.2 = true) :
    (serial monitorProgram monitorResult {} (fun _ => {}) log).shared.join
        ((serial monitorProgram monitorResult {} (fun _ => {}) log).memory .loop) =
      RegistryMonitor.replay (callbacks (logged .loop log)) ∧
    (serial monitorProgram monitorResult {} (fun _ => {}) log).shared.posted =
      RegistryMonitor.posted (callbacks (logged .loop log)) := by
  induction log using List.reverseRecOn with
  | nil => exact ⟨rfl, rfl⟩
  | append_singleton log e ih =>
    obtain ⟨maps, events⟩ := ih fun e mem => allowed e (List.mem_append_left _ mem)
    have may := allowed e (List.mem_append_right _ (List.mem_singleton_self e))
    rw [serial_append_singleton]
    obtain ⟨t, o⟩ := e
    cases t with
    | dart k =>
      cases o with
      | callback c => cases may
      | getSnapshot =>
        rw [logged_append_singleton, if_neg NativeThread.noConfusion, ← maps, ← events]
        exact ⟨rfl, rfl⟩
    | loop =>
      cases o with
      | getSnapshot => cases may
      | callback c =>
        obtain ⟨joined, posted⟩ : PerformsCall _ _ c := perform_callback
          (serial monitorProgram monitorResult {} (fun _ => {}) log) c
        have list : callbacks (logged .loop log ++ [.callback c]) = callbacks (logged .loop log) ++ [c] := by
          simp [callbacks, MonitorOp.callback?]
        rw [logged_append_singleton, if_pos rfl, list, RegistryMonitor.replay_append_singleton,
          RegistryMonitor.posted_append_singleton, ← maps, ← events]
        exact ⟨joined, posted⟩

theorem callbacks_mono {ops more : List MonitorOp} (h : ops <+: more) : callbacks ops <+: callbacks more :=
  h.filterMap _

def monitorStart : State NativeThread MonitorMaps LoopMaps MonitorOp MonitorSection MonitorResult :=
  State.first {} fun _ => {}

/-- At rest the monitor has gone through all callbacks. -/
theorem monitor_at_rest {ls : List (Label NativeThread MonitorOp)}
    {s : State NativeThread MonitorMaps LoopMaps MonitorOp MonitorSection MonitorResult}
    (run : Run (Takes monitorProgram.next) monitorStart ls s) (free : s.holder = none)
    (idle : (s.threads .loop).phase = .idle) :
    s.shared.join (s.threads .loop).memory = RegistryMonitor.replay (callbacks (started .loop ls)) ∧
      s.shared.posted = RegistryMonitor.posted (callbacks (started .loop ls)) := by
  have linearized := Linearized.run monitorProgram_performs run
  have own := linearized.thread .loop
  simp only [Thread.Accords, idle] at own
  have all : started .loop ls = logged .loop s.log := by
    rw [run_started run .loop, idle]
    exact List.append_nil _
  rw [linearized.shared free, own, all]
  exact serial_monitor linearized.allowed

/-- The lock blocks no thread for good: from every reachable state the operations in flight can be brought to their end,
none cut short and none started, and then the monitor has gone through all callbacks. -/
theorem monitor_comes_to_rest {ls : List (Label NativeThread MonitorOp)}
    {s : State NativeThread MonitorMaps LoopMaps MonitorOp MonitorSection MonitorResult}
    (run : Run (Takes monitorProgram.next) monitorStart ls s) :
    ∃ more u, (∀ t, started t more = []) ∧ Run (Takes monitorProgram.next) s more u ∧
      (∀ t, (u.threads t).phase = .idle) ∧
      u.shared.join (u.threads .loop).memory = RegistryMonitor.replay (callbacks (started .loop ls)) ∧
      u.shared.posted = RegistryMonitor.posted (callbacks (started .loop ls)) := by
  obtain ⟨more, u, quiet, rest, free, idle⟩ := rests_of_run monitorProgram_performs run
  have ended := monitor_at_rest (run.trans rest) free (idle .loop)
  rw [started_append, quiet, List.append_nil] at ended
  exact ⟨more, u, quiet, rest, idle, ended⟩

/-- The record of node 5 is half made, and a Dart thread waits. -/
theorem monitor_comes_to_rest_between :
    ∃ u : State NativeThread MonitorMaps LoopMaps MonitorOp MonitorSection MonitorResult,
      (∀ t, (u.threads t).phase = .idle) ∧ u.shared.join (u.threads .loop).memory =
        RegistryMonitor.replay [.global 5 (some interfaceNode) none (some 1)] := by
  obtain ⟨_, u, _, _, idle, joined, _⟩ := @monitor_comes_to_rest
    [.start .loop (.callback (.global 5 (some interfaceNode) none (some 1))), .acquire .loop, .micro .loop, .micro .loop,
      .start (.dart 0) .getSnapshot] _ (run_takes_iff.mpr rfl)
  exact ⟨u, idle, joined⟩

/-- Every snapshot that a Dart thread gets is the whole monitor after some callbacks: all that had returned when it was
asked for, and none that had not begun when it was given. The events posted before are theirs. -/
theorem snapshots_linearize {before after : List (Label NativeThread MonitorOp)}
    {a b s : State NativeThread MonitorMaps LoopMaps MonitorOp MonitorSection MonitorResult} {k : Nat}
    {o : MonitorOp} {r : MonitorResult} (earlier : Run (Takes monitorProgram.next) monitorStart before a)
    (asks : monitorProgram.next a (.start (.dart k) .getSnapshot) = some b)
    (later : Run (Takes monitorProgram.next) b after s) (once : started (.dart k) after = [])
    (leaves : (s.threads (.dart k)).phase = .leaving o r) :
    (∃ calls, r = .copied (RegistryMonitor.replay calls).getSnapshot (RegistryMonitor.posted calls) ∧
      calls <+: callbacks (started .loop (before ++ after)) ∧
      callbacks (started .loop before).dropLast <+: calls ∧
      ((a.threads .loop).phase = .idle → callbacks (started .loop before) <+: calls)) ∧
    (s.holder = none → (s.threads .loop).phase = .idle →
      s.shared.join (s.threads .loop).memory =
        RegistryMonitor.replay (callbacks (started .loop (before ++ after))) ∧
      s.shared.posted = RegistryMonitor.posted (callbacks (started .loop (before ++ after)))) := by
  have whole := Run.trans (Run.next earlier asks) later
  have same : started NativeThread.loop (before ++ [.start (.dart k) .getSnapshot] ++ after) =
      started .loop (before ++ after) := by
    simp [started, Label.starts]
  refine ⟨?_, same ▸ monitor_at_rest whole⟩
  obtain ⟨rfl, log, rest, split, answer, bound, since, all⟩ :=
    answered_between monitorProgram_performs (v := .dart k) (w := .loop) NativeThread.noConfusion earlier asks later
      once leaves
  have allowed := (Linearized.run monitorProgram_performs whole).allowed
  rw [split] at allowed
  have gone := serial_monitor fun e mem => allowed e (List.mem_append_left _ mem)
  refine ⟨callbacks (logged .loop log), ?_, callbacks_mono bound, callbacks_mono since,
    fun idle => callbacks_mono (all idle)⟩
  rw [answer, ← gone.1, ← gone.2]
  rfl

/-- The snapshot is asked for while the record of node 5 is made but not yet assigned. -/
theorem snapshots_linearize_between : ∃ calls,
    GraphSnapshot.mk [newNodeInfo 5 none] [] [] [] = (RegistryMonitor.replay calls).getSnapshot ∧
      calls <+: [.global 5 (some interfaceNode) none (some 1)] := by
  obtain ⟨⟨calls, same, bound, _⟩, _⟩ := @snapshots_linearize
    [.start .loop (.callback (.global 5 (some interfaceNode) none (some 1))), .acquire .loop, .micro .loop, .micro .loop]
    [.micro .loop, .micro .loop, .acquire (.dart 0), .micro (.dart 0), .micro (.dart 0), .micro (.dart 0),
      .micro (.dart 0), .micro (.dart 0)] _ _ _ 0 _ _ (run_takes_iff.mpr rfl) rfl (run_takes_iff.mpr rfl) rfl rfl
  exact ⟨calls, (MonitorResult.copied.inj same).1, bound⟩

end PwDart
