import Mathlib.Data.List.Basic
import Mathlib.Data.List.TakeDrop

namespace BroadcastLog

/-- What happens to a state: an event is applied to it, or another state takes its place. -/
inductive Change (σ ε : Type*)
  | event (e : ε)
  | replace (s : σ)

section Log

variable {σ ε : Type*}

def Change.run (apply : σ → ε → σ) (s : σ) : Change σ ε → σ
  | event e => apply s e
  | replace t => t

def Change.event? : Change σ ε → Option ε
  | event e => some e
  | replace _ => none

/-- The events of a log. -/
def events (log : List (Change σ ε)) : List ε := log.filterMap Change.event?

/-- The state that a log leads to. -/
def replay (apply : σ → ε → σ) (first : σ) (log : List (Change σ ε)) : σ := log.foldl (Change.run apply) first

theorem events_append (log more : List (Change σ ε)) : events (log ++ more) = events log ++ events more :=
  List.filterMap_append

theorem replay_append (apply : σ → ε → σ) (first : σ) (log more : List (Change σ ε)) :
    replay apply first (log ++ more) = replay apply (replay apply first log) more :=
  List.foldl_append

end Log

/-- A subscription to the events of a log that a state follows. When it was made the log had `since` entries. Each
event it has handled stands with the state of that moment; `delayed` is whether it has ever been paused. -/
structure Subscription (σ ε : Type*) where
  since : Nat
  handled : List (ε × σ) := []
  pending : List ε := []
  pauses : Nat := 0
  delayed : Bool := false
  cancelled : Bool := false

namespace Subscription

variable {σ ε : Type*}

def add (u : Subscription σ ε) (e : ε) : Subscription σ ε :=
  if u.cancelled then u else { u with pending := u.pending ++ [e] }

def pause (u : Subscription σ ε) : Subscription σ ε := { u with pauses := u.pauses + 1, delayed := true }

def resume (u : Subscription σ ε) : Subscription σ ε := { u with pauses := u.pauses - 1 }

def cancel (u : Subscription σ ε) : Subscription σ ε := { u with pending := [], cancelled := true }

/-- The first event that waits is handled, unless the subscription is paused or gone. -/
def handle (u : Subscription σ ε) (s : σ) : Option (Subscription σ ε) :=
  match u.pending with
  | [] => none
  | e :: rest =>
    if u.pauses = 0 ∧ u.cancelled = false then some { u with handled := u.handled ++ [(e, s)], pending := rest }
    else none

/-- There is nothing that it would handle now. -/
def idle (u : Subscription σ ε) : Bool := u.pending.isEmpty || 0 < u.pauses

/-- The entries of the log from the start of the subscription up to the `n`th. -/
def window (u : Subscription σ ε) (log : List (Change σ ε)) (n : Nat) : List (Change σ ε) := (log.take n).drop u.since

/-- The subscription has the events of the log from its start on, each once and in order. The state that was seen with
an event is the one of some moment after the event had been applied, and of one before the next event unless the
subscription was paused. -/
structure Follows (apply : σ → ε → σ) (first : σ) (log : List (Change σ ε)) (u : Subscription σ ε) : Prop where
  bound : u.since ≤ log.length
  whole : u.cancelled = false → u.handled.map Prod.fst ++ u.pending = events (log.drop u.since)
  part : u.handled.map Prod.fst <+: events (log.drop u.since)
  seen : ∀ k e t, u.handled[k]? = some (e, t) → ∃ n ≤ log.length, k < (events (u.window log n)).length ∧
    t = replay apply first (log.take n) ∧ (u.delayed = false → (events (u.window log n)).length = k + 1)
  unpaused : u.delayed = false → u.pauses = 0
  prompt : u.delayed = false → u.pending.length ≤ 1
  gone : u.cancelled = true → u.pending = []

variable {apply : σ → ε → σ} {first : σ} {log : List (Change σ ε)} {u v : Subscription σ ε}

/-- What was seen stays what it was when the log grows. -/
theorem seen_append (follows : u.Follows apply first log) (more : List (Change σ ε)) :
    ∀ k e t, u.handled[k]? = some (e, t) → ∃ n ≤ (log ++ more).length,
      k < (events (u.window (log ++ more) n)).length ∧ t = replay apply first ((log ++ more).take n) ∧
        (u.delayed = false → (events (u.window (log ++ more) n)).length = k + 1) := by
  intro k e t here
  obtain ⟨n, inLog, later, shown, next⟩ := follows.seen k e t here
  have same : (log ++ more).take n = log.take n := List.take_append_of_le_length inLog
  refine ⟨n, ?_, ?_⟩
  · rw [List.length_append]
    exact Nat.le_add_right_of_le inLog
  · rw [window, same]
    exact ⟨later, shown, next⟩

theorem events_drop_append (follows : u.Follows apply first log) (c : Change σ ε) :
    events ((log ++ [c]).drop u.since) = events (log.drop u.since) ++ c.event?.toList := by
  rw [List.drop_append_of_le_length follows.bound, events_append]
  cases c <;> rfl

theorem Follows.bound_append (follows : u.Follows apply first log) (more : List (Change σ ε)) :
    u.since ≤ (log ++ more).length := by
  rw [List.length_append]
  exact Nat.le_add_right_of_le follows.bound

/-- A new event comes to a subscription that has nothing else to handle. -/
theorem Follows.add (follows : u.Follows apply first log) (idle : u.idle = true) (e : ε) :
    (u.add e).Follows apply first (log ++ [Change.event e]) := by
  have longer := events_drop_append follows (Change.event e)
  have bound := follows.bound_append [Change.event e]
  unfold Subscription.add
  split
  next gone =>
    constructor
    · exact bound
    · intro here
      rw [gone] at here
      cases here
    · rw [longer]
      exact follows.part.trans (List.prefix_append _ _)
    · exact seen_append follows [Change.event e]
    · exact follows.unpaused
    · exact follows.prompt
    · exact follows.gone
  next here =>
    constructor
    · exact bound
    · intro here
      rw [longer, ← follows.whole here, List.append_assoc]
      rfl
    · rw [longer]
      exact follows.part.trans (List.prefix_append _ _)
    · exact seen_append follows [Change.event e]
    · exact follows.unpaused
    · intro fresh
      have none : u.pending = [] := by
        simpa [Subscription.idle, follows.unpaused fresh] using idle
      simp [none]
    · intro gone
      exact absurd gone here

/-- Another state comes in the place of the present one. -/
theorem Follows.replace (follows : u.Follows apply first log) (s : σ) :
    u.Follows apply first (log ++ [Change.replace s]) := by
  have same : events ((log ++ [Change.replace s]).drop u.since) = events (log.drop u.since) :=
    (events_drop_append follows (Change.replace s)).trans (List.append_nil _)
  constructor
  · exact follows.bound_append [Change.replace s]
  · rw [same]
    exact follows.whole
  · rw [same]
    exact follows.part
  · exact seen_append follows [Change.replace s]
  · exact follows.unpaused
  · exact follows.prompt
  · exact follows.gone

theorem Follows.handle (follows : u.Follows apply first log) (handled : u.handle (replay apply first log) = some v) :
    v.Follows apply first log := by
  unfold Subscription.handle at handled
  split at handled
  next => cases handled
  next e rest waiting =>
    obtain ⟨⟨unpaused, here⟩, same⟩ := Option.ite_none_right_eq_some.mp handled
    cases Option.some.inj same
    have whole : (u.handled ++ [(e, replay apply first log)]).map Prod.fst ++ rest = events (log.drop u.since) := by
      rw [← follows.whole here, waiting]
      simp
    constructor
    · exact follows.bound
    · exact fun _ => whole
    · rw [← whole]
      exact List.prefix_append _ _
    · intro k d t at_
      by_cases old : k < u.handled.length
      · rw [List.getElem?_append_left old] at at_
        exact follows.seen k d t at_
      · have last : k = u.handled.length := by
          obtain ⟨inside, _⟩ := List.getElem?_eq_some_iff.mp at_
          simp only [List.length_append, List.length_singleton] at inside
          omega
        subst last
        have now : t = replay apply first log := by
          simpa using (congrArg (Option.map Prod.snd) at_).symm
        have length : (events (log.drop u.since)).length = u.handled.length + 1 + rest.length := by
          rw [← whole, List.length_append, List.length_map, List.length_append, List.length_singleton]
        refine ⟨log.length, Nat.le_refl _, ?_⟩
        rw [window, List.take_length, length]
        refine ⟨by omega, now, fun fresh => ?_⟩
        have prompt := follows.prompt fresh
        rw [waiting, List.length_cons] at prompt
        omega
    · exact follows.unpaused
    · intro fresh
      have prompt := follows.prompt fresh
      rw [waiting, List.length_cons] at prompt
      exact Nat.le_of_lt (Nat.lt_of_lt_of_le (Nat.lt_succ_self _) prompt)
    · intro gone
      rw [here] at gone
      cases gone

theorem Follows.pause (follows : u.Follows apply first log) : u.pause.Follows apply first log where
  bound := follows.bound
  whole := follows.whole
  part := follows.part
  seen k e t here := by
    obtain ⟨n, inLog, later, shown, _⟩ := follows.seen k e t here
    exact ⟨n, inLog, later, shown, fun fresh => Bool.noConfusion fresh⟩
  unpaused fresh := Bool.noConfusion fresh
  prompt fresh := Bool.noConfusion fresh
  gone := follows.gone

theorem Follows.resume (follows : u.Follows apply first log) : u.resume.Follows apply first log where
  bound := follows.bound
  whole := follows.whole
  part := follows.part
  seen := follows.seen
  unpaused fresh := by
    change u.pauses - 1 = 0
    rw [follows.unpaused fresh]
  prompt := follows.prompt
  gone := follows.gone

theorem Follows.cancel (follows : u.Follows apply first log) : u.cancel.Follows apply first log where
  bound := follows.bound
  whole here := Bool.noConfusion here
  part := follows.part
  seen := follows.seen
  unpaused := follows.unpaused
  prompt _ := Nat.zero_le _
  gone _ := rfl

end Subscription

end BroadcastLog
