import PwDart.LabelledRun

namespace PwDart

open LabelledRun

/-- Functions queued for the loop thread: the one `disconnect` hands to `pw_loop_invoke`, and the one
`pw_main_loop_quit` hands on. -/
inductive Invocation
  | callQuit
  | doStop
deriving DecidableEq

inductive DisconnectAt
  | notCalled
  | cleared
  | quitting
  | invoked
  | joining
  | joined
deriving DecidableEq

/-- How far the loop thread is: `loop_func` reaches `pw_main_loop_run`, which sets `running`, enters
the loop, iterates and leaves. -/
inductive LoopThreadAt
  | started
  | runningSet
  | entered
  | left
deriving DecidableEq

structure LoopQuit where
  connected : Bool := true
  running : Bool := false
  invocations : List Invocation := []
  caller : DisconnectAt := .notCalled
  loopThread : LoopThreadAt := .started
deriving DecidableEq

inductive QuitStep
  | disconnect
  | loopInvoke
  | mainLoopQuit
  | requestStop
  | join
  | setRunning
  | enter
  | iterate
  | leave
deriving DecidableEq

namespace LoopQuit

/-- Without a thread in the loop `pw_loop_invoke` runs the function at once, here and inside
`pw_main_loop_quit`; otherwise it queues it for that thread. The stop token that `requestStop` sets
is read nowhere. -/
def next (s : LoopQuit) : QuitStep → Option LoopQuit
  | .disconnect =>
    if s.caller = .notCalled ∧ s.connected then some { s with connected := false, caller := .cleared }
    else none
  | .loopInvoke =>
    if s.caller = .cleared then
      if s.loopThread = .entered then
        some { s with invocations := s.invocations ++ [.callQuit], caller := .invoked }
      else some { s with caller := .quitting }
    else none
  | .mainLoopQuit =>
    if s.caller = .quitting then
      if s.loopThread = .entered then
        some { s with invocations := s.invocations ++ [.doStop], caller := .invoked }
      else some { s with running := false, caller := .invoked }
    else none
  | .requestStop => if s.caller = .invoked then some { s with caller := .joining } else none
  | .join =>
    if s.caller = .joining ∧ s.loopThread = .left then some { s with caller := .joined } else none
  | .setRunning =>
    if s.loopThread = .started then some { s with running := true, loopThread := .runningSet }
    else none
  | .enter => if s.loopThread = .runningSet then some { s with loopThread := .entered } else none
  | .iterate =>
    if s.loopThread = .entered ∧ s.running then
      match s.invocations with
      | [] => some s
      | .callQuit :: rest => some { s with invocations := rest ++ [.doStop] }
      | .doStop :: rest => some { s with invocations := rest, running := false }
    else none
  | .leave =>
    if s.loopThread = .entered ∧ s.running = false then some { s with loopThread := .left } else none

/-- `disconnect` waits for a loop thread that runs on with nothing that tells it to quit. -/
def QuitLost (s : LoopQuit) : Prop :=
  s.caller = .joining ∧ (s.loopThread = .runningSet ∨ s.loopThread = .entered) ∧ s.running ∧
    s.invocations = []

/-- `disconnect` does not come to run `pw_main_loop_quit` itself before the loop thread has set
`running`. -/
def InTime (s : LoopQuit) (l : QuitStep) : Prop := l = .mainLoopQuit → s.loopThread ≠ .started

/-- The steps that are in time. -/
def TimelyStep (s : LoopQuit) (l : QuitStep) (t : LoopQuit) : Prop := Takes next s l t ∧ InTime s l

/-- Once `disconnect` has handed over its request, it has been heeded or is queued. -/
def Requested (s : LoopQuit) : Prop :=
  s.caller = .invoked ∨ s.caller = .joining ∨ s.caller = .joined →
    (s.running = false ∧ s.loopThread ≠ .started) ∨ s.invocations ≠ []

theorem requested_step {s t : LoopQuit} {l : QuitStep} (h : Requested s) (step : TimelyStep s l t) :
    Requested t := by
  obtain ⟨step, inTime⟩ := step
  unfold Requested at h ⊢
  cases l with
  | disconnect =>
    obtain ⟨_, same⟩ := Option.ite_none_right_eq_some.mp step
    cases Option.some.inj same
    simp
  | loopInvoke =>
    obtain ⟨_, same⟩ := Option.ite_none_right_eq_some.mp step
    split at same
    next => cases Option.some.inj same; simp
    next => cases Option.some.inj same; simp
  | mainLoopQuit =>
    obtain ⟨_, same⟩ := Option.ite_none_right_eq_some.mp step
    split at same
    next => cases Option.some.inj same; simp
    next => cases Option.some.inj same; exact fun _ => Or.inl ⟨rfl, inTime rfl⟩
  | requestStop =>
    obtain ⟨invoked, same⟩ := Option.ite_none_right_eq_some.mp step
    cases Option.some.inj same
    exact fun _ => h (Or.inl invoked)
  | join =>
    obtain ⟨⟨joining, _⟩, same⟩ := Option.ite_none_right_eq_some.mp step
    cases Option.some.inj same
    exact fun _ => h (Or.inr (Or.inl joining))
  | setRunning =>
    obtain ⟨started, same⟩ := Option.ite_none_right_eq_some.mp step
    cases Option.some.inj same
    exact fun after => Or.inr ((h after).resolve_left fun heeded => heeded.2 started)
  | enter =>
    obtain ⟨_, same⟩ := Option.ite_none_right_eq_some.mp step
    cases Option.some.inj same
    exact fun after => (h after).imp_left fun heeded => ⟨heeded.1, by simp⟩
  | iterate =>
    obtain ⟨⟨entered, _⟩, same⟩ := Option.ite_none_right_eq_some.mp step
    split at same
    next => cases Option.some.inj same; exact h
    next => cases Option.some.inj same; simp
    next => cases Option.some.inj same; exact fun _ => Or.inl ⟨rfl, by simp [entered]⟩
  | leave =>
    obtain ⟨⟨_, stopped⟩, same⟩ := Option.ite_none_right_eq_some.mp step
    cases Option.some.inj same
    exact fun _ => Or.inl ⟨stopped, by simp⟩

theorem not_quitLost_of_requested {s : LoopQuit} (h : Requested s) : ¬QuitLost s := by
  rintro ⟨joining, _, running, none⟩
  rcases h (Or.inr (Or.inl joining)) with ⟨stopped, _⟩ | queued
  · rw [running] at stopped; cases stopped
  · exact queued none

/-- Nothing is queued for a thread that has not entered the loop. -/
theorem unqueued_run {ls : List QuitStep} {s : LoopQuit} (run : Run (Takes next) {} ls s) :
    s.loopThread = .started ∨ s.loopThread = .runningSet → s.invocations = [] := by
  refine run.invariant (I := fun s => s.loopThread = .started ∨ s.loopThread = .runningSet →
    s.invocations = []) (fun _ => rfl) ?_
  intro s l t h step
  cases l with
  | disconnect | requestStop | join =>
    obtain ⟨_, same⟩ := Option.ite_none_right_eq_some.mp step
    cases Option.some.inj same
    exact h
  | loopInvoke | mainLoopQuit =>
    obtain ⟨_, same⟩ := Option.ite_none_right_eq_some.mp step
    split at same
    next entered => cases Option.some.inj same; simp [entered]
    next => cases Option.some.inj same; exact h
  | setRunning =>
    obtain ⟨started, same⟩ := Option.ite_none_right_eq_some.mp step
    cases Option.some.inj same
    exact fun _ => h (Or.inl started)
  | enter | leave =>
    obtain ⟨_, same⟩ := Option.ite_none_right_eq_some.mp step
    cases Option.some.inj same
    simp
  | iterate =>
    obtain ⟨⟨entered, _⟩, same⟩ := Option.ite_none_right_eq_some.mp step
    split at same <;> cases Option.some.inj same <;> simp [entered]

/-- A run whose steps are in time never loses the quit request; and after a quit that is not, the
next step of `disconnect` and the next one of the loop thread lose it. -/
theorem quit_kept_iff_in_time (ls : List QuitStep) (s : LoopQuit) :
    (Run TimelyStep {} ls s → ¬QuitLost s) ∧
    ∀ t, Run (Takes next) {} ls s → Takes next s .mainLoopQuit t → ¬InTime s .mainLoopQuit →
      ∃ u, Run (Takes next) t [.requestStop, .setRunning] u ∧ QuitLost u := by
  refine ⟨fun run => ?_, fun t run step late => ?_⟩
  · exact not_quitLost_of_requested
      (run.invariant (I := Requested) (by simp [Requested]) fun _ _ _ => requested_step)
  · have started : s.loopThread = .started := by
      by_contra other
      exact late fun _ => other
    have unqueued := unqueued_run run (Or.inl started)
    obtain ⟨_, same⟩ := Option.ite_none_right_eq_some.mp step
    simp only [started, reduceCtorEq, if_false, Option.some.injEq] at same
    subst same
    refine ⟨{ s with running := true, caller := .joining, loopThread := .runningSet }, ?_, ?_⟩
    · rw [run_takes_iff]
      simp [next]
    · exact ⟨rfl, Or.inl rfl, rfl, unqueued⟩

/-- `disconnect` right after `connect`, before the new thread has reached `pw_main_loop_run`. -/
theorem quit_lost_at_once :
    ∃ s, Run (Takes next) {} [.disconnect, .loopInvoke, .mainLoopQuit, .requestStop, .setRunning,
      .enter, .iterate] s ∧ QuitLost s := by
  refine ⟨⟨false, true, [], .joining, .entered⟩, run_takes_iff.mpr (by decide), rfl, Or.inr rfl, rfl, rfl⟩

/-- A quit that reaches `pw_main_loop_quit` between the two first steps of `pw_main_loop_run`. -/
theorem quit_kept_before_enter :
    ∃ s, Run TimelyStep {} [.disconnect, .loopInvoke, .setRunning, .mainLoopQuit, .requestStop] s ∧
      ¬QuitLost s := by
  have run : Run TimelyStep {} [.disconnect, .loopInvoke, .setRunning, .mainLoopQuit, .requestStop]
      ⟨false, false, [], .joining, .runningSet⟩ := by
    have cleared : Run TimelyStep {} [.disconnect] ⟨false, false, [], .cleared, .started⟩ :=
      Run.single ⟨rfl, by simp [InTime]⟩
    have quitting : Run TimelyStep {} [.disconnect, .loopInvoke]
        ⟨false, false, [], .quitting, .started⟩ := Run.next cleared ⟨rfl, by simp [InTime]⟩
    have running : Run TimelyStep {} [.disconnect, .loopInvoke, .setRunning]
        ⟨false, true, [], .quitting, .runningSet⟩ := Run.next quitting ⟨rfl, by simp [InTime]⟩
    have invoked : Run TimelyStep {} [.disconnect, .loopInvoke, .setRunning, .mainLoopQuit]
        ⟨false, false, [], .invoked, .runningSet⟩ := Run.next running ⟨rfl, by simp [InTime]⟩
    exact Run.next invoked ⟨rfl, by simp [InTime]⟩
  exact ⟨_, run, (quit_kept_iff_in_time _ _).1 run⟩

end LoopQuit

end PwDart
