import PwDart.ClientThread
import PwDart.LabelledRun
import PwDart.RegistryWellFormed

namespace PwDart

open Json LabelledRun

/-- What `Dart_PostCObject_DL` can point to. -/
inductive PostFunction
  | dartPostCobjectStub
  | dartPostCObject
deriving DecidableEq

/-- `accepts` is the answer of the VM. -/
def PostFunction.call (accepts : String → Bool) : PostFunction → String → Bool
  | dartPostCobjectStub, _ => false
  | dartPostCObject, json => accepts json

/-- A connected client with the global pointer. `passed` are the strings given to `post_event`,
`delivered` those that reached the `ReceivePort`, and `forgotten` those whose call returned false: the
result is not looked at. -/
structure PortClient where
  postCObject : PostFunction := .dartPostCobjectStub
  dartSendPort : Int64
  thread : ClientThread := {}
  passed : List String := []
  delivered : List String := []
  forgotten : List String := []

inductive PortStep
  | initDartApiDl
  | thread (call : ThreadCall)

namespace PortClient

def postEvent (accepts : String → Bool) (s : PortClient) (json : String) : PortClient :=
  let s := { s with passed := s.passed ++ [json] }
  if s.dartSendPort = 0 then s
  else if s.postCObject.call accepts json then { s with delivered := s.delivered ++ [json] }
  else { s with forgotten := s.forgotten ++ [json] }

/-- `pw_dart_init_dart_api_dl` returns 0 and does nothing else. -/
def next (accepts : String → Bool) (writeJson : Value → Option String) (readJson : String → Option ParamUpdate)
    (s : PortClient) : PortStep → Option PortClient
  | .initDartApiDl => some s
  | .thread call =>
    some ((s.thread.handle writeJson readJson call).2.foldl (postEvent accepts)
      { s with thread := (s.thread.handle writeJson readJson call).1 })

/-- Nothing was dropped, repeated, reordered or forgotten. -/
structure Reliable (s : PortClient) : Prop where
  delivered : s.delivered = s.passed
  forgotten : s.forgotten = []

/-- A step that posts nothing. -/
def Quiet (readJson : String → Option ParamUpdate) (s : PortClient) : PortStep → Prop
  | .initDartApiDl => True
  | .thread call => s.thread.quiet readJson call

end PortClient

theorem handle_quiet (writeJson : Value → Option String) (readJson : String → Option ParamUpdate)
    {s : ClientThread} (wf : s.monitor.WellFormed) (client : s.params.client = true) (call : ThreadCall) :
    (s.handle writeJson readJson call).2 = [] ↔ s.quiet readJson call := by
  cases call with
  | callback c =>
    simp only [ClientThread.handle, List.map_eq_nil_iff]
    cases c with
    | global | deviceInfo => simp [RegistryMonitor.call, ClientThread.quiet]
    | globalRemove id =>
      simp only [RegistryMonitor.call, RegistryMonitor.onGlobalRemove, ClientThread.quiet]
      cases held : s.monitor.idTypes[id]? with
      | none => simp
      | some text =>
        obtain ⟨kind, rfl⟩ := wf.typed id text held
        cases kind <;> simp [RegistryMonitor.eraseRecord, Kind.text]
    | nodeInfo id info =>
      cases info <;> cases held : s.monitor.nodes[id]? <;>
        simp [RegistryMonitor.call, RegistryMonitor.onNodeInfo, ClientThread.quiet, held]
    | portInfo id info =>
      cases info <;> cases held : s.monitor.ports[id]? <;>
        simp [RegistryMonitor.call, RegistryMonitor.onPortInfo, ClientThread.quiet, held]
    | linkInfo id info =>
      cases info <;> cases held : s.monitor.links[id]? <;>
        simp [RegistryMonitor.call, RegistryMonitor.onLinkInfo, ClientThread.quiet, held]
  | coreError => simp [ClientThread.handle, ClientThread.quiet]
  | command cmd =>
    simp only [ClientThread.handle, List.map_eq_nil_iff]
    cases cmd with
    | createLink | destroyLink | getSnapshot | disconnect => simp [ClientThread.processCommand, ClientThread.quiet]
    | setParam nodeId paramJson =>
      cases parsed : readJson paramJson <;>
        simp [ClientThread.processCommand, ClientThread.quiet, ParamHandler.setParam, client, parsed]
    | enumParams =>
      simp [ClientThread.processCommand, ClientThread.quiet, ParamHandler.enumParams, client]

theorem client_handle (writeJson : Value → Option String) (readJson : String → Option ParamUpdate)
    (s : ClientThread) (call : ThreadCall) :
    (s.handle writeJson readJson call).1.params.client = s.params.client := by
  cases call with
  | callback | coreError => rfl
  | command cmd =>
    cases cmd with
    | createLink | destroyLink | getSnapshot | disconnect | enumParams => rfl
    | setParam nodeId paramJson =>
      simp only [ClientThread.handle, ClientThread.processCommand, ParamHandler.setParam]
      split
      next => rfl
      next => split <;> rfl

theorem wellFormed_handle (writeJson : Value → Option String) (readJson : String → Option ParamUpdate)
    {s : ClientThread} (wf : s.monitor.WellFormed) (call : ThreadCall) :
    (s.handle writeJson readJson call).1.monitor.WellFormed := by
  cases call with
  | callback c => exact RegistryMonitor.wellFormed_call wf c
  | coreError => exact wf
  | command cmd => cases cmd <;> exact wf

namespace PortClient

/-- The pointer never leaves the stub, so what is passed on goes nowhere. -/
structure Stubbed (s : PortClient) : Prop where
  stub : s.postCObject = .dartPostCobjectStub
  wellFormed : s.thread.monitor.WellFormed
  client : s.thread.params.client = true

theorem foldl_postEvent (accepts : String → Bool) (posts : List String) {s : PortClient}
    (stub : s.postCObject = .dartPostCobjectStub) :
    (posts.foldl (postEvent accepts) s).passed = s.passed ++ posts ∧
      (posts.foldl (postEvent accepts) s).delivered = s.delivered ∧
      (posts.foldl (postEvent accepts) s).postCObject = .dartPostCobjectStub ∧
      (posts.foldl (postEvent accepts) s).thread = s.thread := by
  induction posts generalizing s with
  | nil => exact ⟨(List.append_nil _).symm, rfl, stub, rfl⟩
  | cons json posts ih =>
    have one : (postEvent accepts s json).passed = s.passed ++ [json] ∧
        (postEvent accepts s json).delivered = s.delivered ∧
        (postEvent accepts s json).postCObject = .dartPostCobjectStub ∧
        (postEvent accepts s json).thread = s.thread := by
      unfold postEvent
      simp only [stub, PostFunction.call, Bool.false_eq_true, if_false]
      split <;> exact ⟨rfl, rfl, rfl, rfl⟩
    obtain ⟨passed, delivered, stub', thread⟩ := ih one.2.2.1
    rw [List.foldl_cons, passed, delivered, thread, one.1, one.2.1, one.2.2.2, List.append_assoc]
    exact ⟨rfl, rfl, stub', rfl⟩

theorem stubbed_start (port : Int64) : Stubbed { dartSendPort := port } :=
  ⟨rfl, RegistryMonitor.wellFormed_empty, rfl⟩

theorem stubbed_step {accepts : String → Bool} {writeJson : Value → Option String}
    {readJson : String → Option ParamUpdate} {s t : PortClient} {l : PortStep} (h : Stubbed s)
    (step : s.next accepts writeJson readJson l = some t) : Stubbed t := by
  cases l with
  | initDartApiDl =>
    cases Option.some.inj step
    exact h
  | thread call =>
    cases Option.some.inj step
    obtain ⟨_, _, stub, thread⟩ := foldl_postEvent accepts (s.thread.handle writeJson readJson call).2
      (s := { s with thread := (s.thread.handle writeJson readJson call).1 }) h.stub
    refine ⟨stub, ?_, ?_⟩
    · rw [thread]
      exact wellFormed_handle writeJson readJson h.wellFormed call
    · rw [thread]
      exact (client_handle writeJson readJson s.thread call).trans h.client

theorem reliable_step {accepts : String → Bool} {writeJson : Value → Option String}
    {readJson : String → Option ParamUpdate} {s t : PortClient} {l : PortStep} (h : Stubbed s)
    (before : s.Reliable) (step : s.next accepts writeJson readJson l = some t) :
    t.Reliable ↔ s.Quiet readJson l := by
  cases l with
  | initDartApiDl =>
    cases Option.some.inj step
    exact iff_of_true before trivial
  | thread call =>
    cases Option.some.inj step
    have silent := handle_quiet writeJson readJson h.wellFormed h.client call
    obtain ⟨passed, delivered, _, _⟩ := foldl_postEvent accepts (s.thread.handle writeJson readJson call).2
      (s := { s with thread := (s.thread.handle writeJson readJson call).1 }) h.stub
    refine Iff.trans ⟨fun after => ?_, fun nothing => ?_⟩ silent
    · have same := after.delivered
      rw [passed, delivered, before.delivered] at same
      exact List.append_right_eq_self.mp same.symm
    · rw [nothing]
      exact ⟨before.delivered, before.forgotten⟩

/-- Whatever the VM would answer: all that is posted has arrived in every state of a run exactly if no
step of it has posted anything. -/
theorem posts_delivered_iff (accepts : String → Bool) (writeJson : Value → Option String)
    (readJson : String → Option ParamUpdate) {port : Int64} {ls : List PortStep} {s : PortClient}
    (run : Run (Takes (next accepts writeJson readJson)) { dartSendPort := port } ls s) :
    (∀ pre t, pre <+: ls → Run (Takes (next accepts writeJson readJson)) { dartSendPort := port } pre t →
      t.Reliable) ↔
      Run (Guarded (next accepts writeJson readJson) (Quiet readJson)) { dartSendPort := port } ls s :=
  always_iff_guarded (stubbed_start port) (fun _ _ _ => stubbed_step) ⟨rfl, rfl⟩
    (fun _ _ _ => reliable_step) run

/-- A run of a client that is told of a node and never of its state. -/
theorem posts_delivered_iff_global :
    ∃ s, Run (Takes (next (fun _ => true) (fun _ => none) (fun _ => none))) { dartSendPort := 1 }
        [.thread (.callback (.global 7 (some interfaceNode) none (some 3)))] s ∧ s.Reliable := by
  have run : Run (Takes (next (fun _ => true) (fun _ => none) (fun _ => none))) { dartSendPort := 1 }
      [.thread (.callback (.global 7 (some interfaceNode) none (some 3)))] _ := Run.single rfl
  have always := (posts_delivered_iff (fun _ => true) (fun _ => none) (fun _ => none) run).mpr
    (Run.single ⟨rfl, rfl⟩)
  exact ⟨_, run, always _ _ (List.prefix_refl _) run⟩

/-- The first info of a node. -/
theorem node_added_lost :
    ∃ s, Run (Takes (next (fun _ => true) (fun v => some (String.ofList (write v))) (fun _ => none)))
        { dartSendPort := 1 }
        [.thread (.callback (.global 7 (some interfaceNode) none (some 3))),
          .thread (.callback (.nodeInfo 7 (some ⟨1, PW_NODE_STATE_RUNNING, none⟩)))] s ∧
      s.passed.length = 1 ∧ s.delivered = [] ∧ s.forgotten = s.passed :=
  ⟨_, run_takes_iff.mpr rfl, rfl, rfl, rfl⟩

end PortClient

end PwDart
