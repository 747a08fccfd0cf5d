import PwDart.CommandLoop
import PwDart.Mirror

namespace PwDart

open Json LabelledRun

inductive LinkOutcome
  | pending
  | error
  /-- The link, and when the server announced it. -/
  | link (link : PwLink) (announced : Option Nat)
deriving DecidableEq

/-- A call of `createLink` whose command has been pushed; `executed` is when it was executed. -/
structure LinkCall where
  outputPortId : Int
  inputPortId : Int
  executed : Option Nat := none
  outcome : LinkOutcome := .pending

/-- The link a message announces as added. -/
def linkOf (message : Value) : Option PwLink :=
  match deserializeEventValue message with
  | some (.linkAdded link) => some link
  | _ => none

namespace LinkCall

/-- The condition of the `where`. -/
def awaits (c : LinkCall) (link : PwLink) : Bool :=
  link.outputPortId = c.outputPortId && link.inputPortId = c.inputPortId

/-- A message on the receive port, with the announcement of the link it is about. -/
def hear (c : LinkCall) (message : Value × Option Nat) : LinkCall :=
  match linkOf message.1 with
  | some link => if c.outcome = .pending ∧ c.awaits link then { c with outcome := .link link message.2 } else c
  | none => c

end LinkCall

/-- The calls of `createLink` of one client. In `queue` a `CreateLinkCmd` has the number of its call.
`announced` says since when the server has had an id, `ports` what the infos have named as its ports. -/
structure LinkRequests where
  monitor : RegistryMonitor := {}
  announced : UInt32 → Option Nat := fun _ => none
  ports : UInt32 → Option (UInt32 × UInt32) := fun _ => none
  queue : List (Command × Option Nat) := []
  calls : List LinkCall := []
  port : List (Value × Option Nat) := []
  clock : Nat := 0

/-- `fail` is a timeout or the end of the stream. -/
inductive LinkStep
  | createLink (outputPortId inputPortId : Int) (pushed : Bool)
  | call (c : CommandCall)
  | fail (k : Nat)
  | execute
  | callback (c : Callback)
  | deliver

namespace LinkRequests

/-- A link keeps its ports: `change_mask` has no flag for them. -/
def steady (s : LinkRequests) : Callback → Bool
  | .linkInfo id (some info) => (s.ports id).all fun ports => ports = (info.outputPortId, info.inputPortId)
  | _ => true

/-- The announcement of the object a callback informs about. -/
def announcementOf (s : LinkRequests) : Callback → Option Nat
  | .linkInfo id _ => s.announced id
  | _ => none

def callback (s : LinkRequests) (c : Callback) : LinkRequests :=
  { s with
    monitor := (s.monitor.call c).1
    announced :=
      match c with
      | .global id _ _ _ => if s.announced id = none then Function.update s.announced id (some s.clock) else s.announced
      | .globalRemove id => Function.update s.announced id none
      | _ => s.announced
    ports :=
      match c with
      | .linkInfo id (some info) => Function.update s.ports id (some (info.outputPortId, info.inputPortId))
      | .globalRemove id => Function.update s.ports id none
      | _ => s.ports
    port := s.port ++ (s.monitor.call c).2.map fun event => (.obj event.toJson, s.announcementOf c)
    clock := s.clock + 1 }

/-- The FFI takes the port ids as `Uint32`. -/
def createLink (s : LinkRequests) (outputPortId inputPortId : Int) (pushed : Bool) : LinkRequests :=
  if pushed then
    { s with
      queue := s.queue ++ [(.createLink (.ofInt outputPortId) (.ofInt inputPortId) 0, some s.calls.length)]
      calls := s.calls ++ [⟨outputPortId, inputPortId, none, .pending⟩] }
  else { s with calls := s.calls ++ [⟨outputPortId, inputPortId, none, .error⟩] }

def next (s : LinkRequests) : LinkStep → Option LinkRequests
  | .createLink outputPortId inputPortId pushed => some (s.createLink outputPortId inputPortId pushed)
  | .call c => some { s with queue := s.queue ++ c.command.toList.map fun command => (command, none) }
  | .fail k =>
    some { s with calls := s.calls.modify k fun c => if c.outcome = .pending then { c with outcome := .error } else c }
  | .execute =>
    match s.queue with
    | [] => none
    | (_, none) :: rest => some { s with queue := rest }
    | (_, some k) :: rest =>
      some { s with
        queue := rest
        calls := s.calls.modify k fun c => { c with executed := some s.clock }
        clock := s.clock + 1 }
  | .callback c => if s.steady c then some (s.callback c) else none
  | .deliver =>
    match s.port with
    | [] => none
    | message :: rest => some { s with port := rest, calls := s.calls.map fun c => c.hear message }

/-- A step where an info may also give a link other ports. -/
def anyNext (s : LinkRequests) : LinkStep → Option LinkRequests
  | .callback c => some (s.callback c)
  | l => s.next l

/-- The calls that wait for a link of these ports. -/
def waiting (s : LinkRequests) (outputPortId inputPortId : Int) : List LinkCall :=
  s.calls.filter fun c => c.outcome = .pending && c.outputPortId = outputPortId && c.inputPortId = inputPortId

/-- A link of these ports has been posted as added and not been delivered. -/
def UnderWay (s : LinkRequests) (outputPortId inputPortId : Int) : Prop :=
  ∃ message ∈ s.port, ∃ link, linkOf message.1 = some link ∧ link.outputPortId = outputPortId ∧
    link.inputPortId = inputPortId

/-- A call finds no link of its ports under way. An info that finds its link in the state `init`, with none
of these ports under way, comes when at most one call waits for them, and the server announced the link
after this call's command had been executed. -/
def Timely (s : LinkRequests) : LinkStep → Prop
  | .createLink outputPortId inputPortId true => ¬s.UnderWay outputPortId inputPortId
  | .callback (.linkInfo id (some info)) =>
    (∃ old, s.monitor.links[id]? = some old ∧ old.state = "init") →
      ¬s.UnderWay (dartId info.outputPortId) (dartId info.inputPortId) →
      (s.waiting (dartId info.outputPortId) (dartId info.inputPortId)).length ≤ 1 ∧
        ∀ c ∈ s.waiting (dartId info.outputPortId) (dartId info.inputPortId),
          ∃ executed time, c.executed = some executed ∧ s.announced id = some time ∧ executed < time
  | _ => True

end LinkRequests

/-- Every call that has got a link has got one that joins its ports and was announced after its command
had been executed, and no two have got the same. -/
structure Promised (calls : List LinkCall) : Prop where
  asked : ∀ c ∈ calls, ∀ link announced, c.outcome = .link link announced →
    link.outputPortId = c.outputPortId ∧ link.inputPortId = c.inputPortId ∧
      ∃ executed time, c.executed = some executed ∧ announced = some time ∧ executed < time
  distinct : calls.Pairwise fun c d => ∀ link announced link' announced', c.outcome = .link link announced →
    d.outcome = .link link' announced' → ¬(link.id = link'.id ∧ announced = announced')

namespace LinkRequests

/-- The promise is kept, also by what has been posted and is still to be delivered. -/
def Settles (s : LinkRequests) : Prop :=
  ∀ n t, Run (Takes next) s (List.replicate n .deliver) t → Promised t.calls

/-- The server tells of a link between two ports. -/
def pausedLink : PwLinkInfo := ⟨10, 30, 11, 31, PW_LINK_STATE_PAUSED, none⟩

end LinkRequests

namespace LinkCall

/-- The call after some messages. -/
def after (c : LinkCall) (messages : List (Value × Option Nat)) : LinkCall := messages.foldl hear c

@[simp] theorem after_nil (c : LinkCall) : c.after [] = c := rfl

@[simp] theorem after_cons (c : LinkCall) (message : Value × Option Nat) (messages : List (Value × Option Nat)) :
    c.after (message :: messages) = (c.hear message).after messages := rfl

theorem after_append (c : LinkCall) (first second : List (Value × Option Nat)) :
    c.after (first ++ second) = (c.after first).after second := List.foldl_append

/-- What a message does to a call. -/
theorem hear_cases (c : LinkCall) (message : Value × Option Nat) :
    (c.hear message = c ∧ (c.outcome = .pending → ∀ link, linkOf message.1 = some link → c.awaits link = false)) ∨
      ∃ link, linkOf message.1 = some link ∧ c.outcome = .pending ∧ c.awaits link = true ∧
        c.hear message = { c with outcome := .link link message.2 } := by
  unfold hear
  split
  next link about =>
    split
    next here => exact Or.inr ⟨link, about, here.1, here.2, rfl⟩
    next no =>
      refine Or.inl ⟨rfl, fun pending other same => ?_⟩
      cases about.symm.trans same
      simpa [pending] using no
  next none =>
    refine Or.inl ⟨rfl, fun _ link about => ?_⟩
    cases none.symm.trans about

@[simp] theorem awaits_iff {c : LinkCall} {link : PwLink} :
    c.awaits link = true ↔ link.outputPortId = c.outputPortId ∧ link.inputPortId = c.inputPortId := by
  simp [awaits]

theorem after_fields (c : LinkCall) (messages : List (Value × Option Nat)) :
    (c.after messages).outputPortId = c.outputPortId ∧ (c.after messages).inputPortId = c.inputPortId ∧
      (c.after messages).executed = c.executed := by
  induction messages generalizing c with
  | nil => exact ⟨rfl, rfl, rfl⟩
  | cons message messages ih =>
    rw [after_cons]
    rcases c.hear_cases message with ⟨same, _⟩ | ⟨link, _, _, _, same⟩
    · rw [same]
      exact ih c
    · rw [same]
      exact ih _

theorem after_done {c : LinkCall} (done : c.outcome ≠ .pending) (messages : List (Value × Option Nat)) :
    c.after messages = c := by
  induction messages with
  | nil => rfl
  | cons message messages ih =>
    rw [after_cons]
    rcases c.hear_cases message with ⟨same, _⟩ | ⟨_, _, pending, _, _⟩
    · rw [same]
      exact ih
    · exact absurd pending done

theorem after_pending {c : LinkCall} {messages : List (Value × Option Nat)} :
    (c.after messages).outcome = .pending ↔ c.outcome = .pending ∧
      ∀ message ∈ messages, ∀ link, linkOf message.1 = some link → c.awaits link = false := by
  induction messages generalizing c with
  | nil => simp
  | cons message messages ih =>
    rw [after_cons]
    rcases c.hear_cases message with ⟨same, unheard⟩ | ⟨link, about, pending, awaits, same⟩
    · rw [same, ih, List.forall_mem_cons]
      refine and_congr_right fun pending => ?_
      exact (and_iff_right (unheard pending)).symm
    · rw [same, after_done (by simp)]
      refine iff_of_false (by simp) fun no => ?_
      cases awaits.symm.trans (no.2 message (List.mem_cons_self ..) link about)

theorem after_unheard {c : LinkCall} {messages : List (Value × Option Nat)}
    (unheard : ∀ message ∈ messages, linkOf message.1 = none) : c.after messages = c := by
  induction messages with
  | nil => rfl
  | cons message messages ih =>
    have kept : c.hear message = c := by simp [hear, unheard message (List.mem_cons_self ..)]
    rw [after_cons, kept]
    exact ih fun m mem => unheard m (List.mem_cons_of_mem _ mem)

theorem after_error {c : LinkCall} {messages : List (Value × Option Nat)}
    (failed : (c.after messages).outcome = .error) : c.outcome = .error := by
  induction messages generalizing c with
  | nil => exact failed
  | cons message messages ih =>
    rcases c.hear_cases message with ⟨same, _⟩ | ⟨link, _, _, _, same⟩
    · rw [after_cons, same] at failed
      exact ih failed
    · rw [after_cons, same] at failed
      cases ih failed

/-- Whether its command has been executed makes no difference to what a call gets. -/
theorem after_executed (c : LinkCall) (time : Option Nat) (messages : List (Value × Option Nat)) :
    (LinkCall.after { c with executed := time } messages).outcome = (c.after messages).outcome := by
  induction messages generalizing c with
  | nil => rfl
  | cons message messages ih =>
    have same : LinkCall.hear { c with executed := time } message = { c.hear message with executed := time } := by
      have awaits (link : PwLink) : LinkCall.awaits { c with executed := time } link = c.awaits link := rfl
      cases about : linkOf message.1 with
      | none => simp [hear, about]
      | some link =>
        by_cases here : c.outcome = .pending ∧ c.awaits link = true
        · simp only [hear, about, awaits, if_pos here]
        · simp only [hear, about, awaits, if_neg here]
    rw [after_cons, after_cons, same]
    exact ih (c.hear message)

/-- Where a link comes from. -/
theorem after_link {c : LinkCall} {messages : List (Value × Option Nat)} {link : PwLink} {announced : Option Nat}
    (got : (c.after messages).outcome = .link link announced) : c.outcome = .link link announced ∨
      (c.outcome = .pending ∧ c.awaits link = true ∧ ∃ message ∈ messages, linkOf message.1 = some link ∧
        message.2 = announced) := by
  induction messages generalizing c with
  | nil => exact Or.inl got
  | cons message messages ih =>
    rw [after_cons] at got
    rcases c.hear_cases message with ⟨same, _⟩ | ⟨heard, about, pending, awaits, same⟩
    · rw [same] at got
      rcases ih got with before | ⟨pending, awaits, m, mem, from_⟩
      · exact Or.inl before
      · exact Or.inr ⟨pending, awaits, m, List.mem_cons_of_mem _ mem, from_⟩
    · rw [same, after_done (by simp)] at got
      cases got
      exact Or.inr ⟨pending, awaits, message, List.mem_cons_self .., about, rfl⟩

end LinkCall

end PwDart
