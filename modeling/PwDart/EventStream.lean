import PwDart.BroadcastLog
import PwDart.SharedBridges

namespace PwDart

open Json LabelledRun BroadcastLog

/-- A `PwClient` that has been connected, as its isolate sees it. `changes` are the things that have happened to
its graph; a subscription keeps the events that it has still to handle. -/
structure StreamClient where
  graph : PwGraph
  disposed : Bool := false
  portClosed : Bool := false
  closed : Bool := false
  changes : List (Change PwGraph PwGraphEvent) := []
  subscriptions : List (Subscription PwGraph PwGraphEvent) := []

/-- `message` is what the receive port hands over; `refreshGraph` has the answer of the bridge. The other
steps are those of a subscription. -/
inductive StreamStep
  | message (text : Text)
  | listen
  | handle (i : Nat)
  | pause (i : Nat)
  | resume (i : Nat)
  | cancel (i : Nat)
  | refreshGraph (answer : Except BridgeError PwGraph)
  | dispose

namespace StreamClient

/-- The listener of `_startListening`. -/
def onMessage (s : StreamClient) (message : Text) : StreamClient :=
  if s.disposed then s
  else
    match deserializeEvent message with
    | none => s
    | some event =>
      let s := { s with graph := s.graph.applyEvent event, changes := s.changes ++ [Change.event event] }
      if s.closed then s else { s with subscriptions := s.subscriptions.map fun u => u.add event }

/-- `events.listen`. On a closed controller there is nothing to wait for. -/
def listen (s : StreamClient) : StreamClient :=
  if s.closed then s
  else { s with subscriptions := s.subscriptions ++ [⟨s.changes.length, [], [], 0, false, false⟩] }

/-- A disposed client and a bridge that answers with an error both throw. -/
def refreshGraph (s : StreamClient) (answer : Except BridgeError PwGraph) : StreamClient :=
  if s.disposed then s
  else
    match answer with
    | .error _ => s
    | .ok graph => { s with graph := graph, changes := s.changes ++ [Change.replace graph] }

/-- `dispose` up to its `await`. -/
def dispose (s : StreamClient) : StreamClient :=
  if s.disposed then s else { s with disposed := true, portClosed := true, closed := true }

/-- The message of a port is handled when no subscription has anything left to do: microtasks come first. -/
def next (s : StreamClient) : StreamStep → Option StreamClient
  | .message text =>
    if s.portClosed = false ∧ s.subscriptions.all Subscription.idle then some (s.onMessage text) else none
  | .listen => some s.listen
  | .handle i => do
    let u ← (← s.subscriptions[i]?).handle s.graph
    return { s with subscriptions := s.subscriptions.set i u }
  | .pause i => some { s with subscriptions := s.subscriptions.modify i Subscription.pause }
  | .resume i => some { s with subscriptions := s.subscriptions.modify i Subscription.resume }
  | .cancel i => some { s with subscriptions := s.subscriptions.modify i Subscription.cancel }
  | .refreshGraph answer => some (s.refreshGraph answer)
  | .dispose => some s.dispose

/-- The events among the messages of the steps. -/
def decoded (steps : List StreamStep) : List PwGraphEvent :=
  steps.filterMap fun
    | .message text => deserializeEvent text
    | _ => none

variable {first : PwGraph} {s t : StreamClient}

end StreamClient

end PwDart
