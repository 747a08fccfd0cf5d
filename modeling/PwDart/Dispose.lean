import Mathlib.Algebra.GroupWithZero.Nat
import PwDart.LabelledRun

namespace PwDart

open LabelledRun

/-- An `await for` is paused while its body runs; the body may itself wait for `dispose`. -/
inductive Body
  | running
  | awaiting
deriving DecidableEq

/-- A subscription to `events` that is there: its pauses or its body, and the events it has still to
handle. The done event comes after these. -/
inductive Subscriber
  | listen (pauses pending : Nat)
  | awaitFor (body : Option Body) (pending : Nat)
deriving DecidableEq

namespace Subscriber

/-- The controller hands an event over. -/
def add : Subscriber → Subscriber
  | listen pauses pending => listen pauses (pending + 1)
  | awaitFor body pending => awaitFor body (pending + 1)

/-- Nothing more is handled until the user resumes it, or until `dispose` is done. -/
def Held : Subscriber → Prop
  | listen pauses _ => 0 < pauses
  | awaitFor body _ => body = some .awaiting

end Subscriber

/-- A `PwClient` from its `connect` on. `disposes` says of each call of `dispose` whether its future has
completed. -/
structure DisposableClient where
  disposed : Bool := false
  portClosed : Bool := false
  closed : Bool := false
  subscribers : List Subscriber := []
  connected : Bool := true
  disconnects : Nat := 0
  disposes : List Bool := []

/-- `message` comes from the receive port and is or is not an event; `awaitDispose` is a call in the body
of an `await for`, `disconnect` is what is left of the first `dispose` when the controller has closed. -/
inductive DisposeStep
  | message (isEvent : Bool)
  | listen
  | awaitFor
  | handle (i : Nat)
  | bodyEnds (i : Nat)
  | breaks (i : Nat)
  | pause (i : Nat)
  | resume (i : Nat)
  | cancel (i : Nat)
  | dispose
  | awaitDispose (i : Nat)
  | disconnect

/-- The steps the isolate takes of itself. -/
def DisposeStep.Own : DisposeStep → Prop
  | handle _ => True
  | bodyEnds _ => True
  | disconnect => True
  | _ => False

namespace DisposableClient

def put (s : DisposableClient) (i : Nat) (u : Subscriber) : DisposableClient :=
  { s with subscribers := s.subscribers.set i u }

def drop (s : DisposableClient) (i : Nat) : DisposableClient := { s with subscribers := s.subscribers.eraseIdx i }

/-- `dispose` up to its `await`. -/
def dispose (s : DisposableClient) : DisposableClient :=
  if s.disposed then { s with disposes := s.disposes ++ [true] }
  else { s with disposed := true, portClosed := true, closed := true, disposes := s.disposes ++ [false] }

def next (s : DisposableClient) : DisposeStep → Option DisposableClient
  | .message isEvent =>
    if s.portClosed then none
    else if s.disposed then some s
    else if isEvent && !s.closed then some { s with subscribers := s.subscribers.map Subscriber.add }
    else some s
  | .listen => if s.closed then some s else some { s with subscribers := s.subscribers ++ [.listen 0 0] }
  | .awaitFor => if s.closed then some s else some { s with subscribers := s.subscribers ++ [.awaitFor none 0] }
  | .handle i =>
    match s.subscribers[i]? with
    | some (.listen 0 (pending + 1)) => some (s.put i (.listen 0 pending))
    | some (.awaitFor none (pending + 1)) => some (s.put i (.awaitFor (some .running) pending))
    | some (.listen 0 0) => if s.closed then some (s.drop i) else none
    | some (.awaitFor none 0) => if s.closed then some (s.drop i) else none
    | _ => none
  | .bodyEnds i =>
    match s.subscribers[i]? with
    | some (.awaitFor (some .running) pending) => some (s.put i (.awaitFor none pending))
    | _ => none
  | .breaks i =>
    match s.subscribers[i]? with
    | some (.awaitFor (some .running) _) => some (s.drop i)
    | _ => none
  | .pause i =>
    match s.subscribers[i]? with
    | some (.listen pauses pending) => some (s.put i (.listen (pauses + 1) pending))
    | _ => none
  | .resume i =>
    match s.subscribers[i]? with
    | some (.listen (pauses + 1) pending) => some (s.put i (.listen pauses pending))
    | _ => none
  | .cancel i =>
    match s.subscribers[i]? with
    | some (.listen _ _) => some (s.drop i)
    | _ => none
  | .dispose => some s.dispose
  | .awaitDispose i =>
    match s.subscribers[i]? with
    | some (.awaitFor (some .running) pending) =>
      if s.disposed then some s.dispose else some (s.dispose.put i (.awaitFor (some .awaiting) pending))
    | _ => none
  | .disconnect =>
    if s.closed ∧ s.subscribers = [] ∧ s.disposes.head? = some false then
      some { s with connected := false, disconnects := s.disconnects + 1, disposes := true :: s.disposes.tail }
    else none

/-- Whatever the isolate goes on to do by itself, it does not halt in a disposed client with its bridge
connected; `disconnect` is called once, and no `dispose` completes before. -/
structure Disposes (s : DisposableClient) : Prop where
  free : ∀ ls t, (∀ l ∈ ls, l.Own) → Run (Takes next) s ls t → t.disposed = true → t.connected = true →
    ¬Halted next DisposeStep.Own t
  once : s.disconnects = if s.connected then 0 else 1
  completed : true ∈ s.disposes → s.connected = false

/-- The first `dispose` finds no subscriber paused, no body of an `await for` waits for one, and until
the bridge is disconnected nobody pauses and `dispose` is not called again. -/
def Undisturbed (s : DisposableClient) : DisposeStep → Prop
  | .dispose => if s.disposed then s.connected = false else ∀ u ∈ s.subscribers, ¬u.Held
  | .awaitDispose _ => False
  | .pause _ => s.disposed = false
  | _ => True

structure Kept (s : DisposableClient) : Prop where
  closed : s.closed = s.disposed
  fresh : s.disposed = false → s.disposes = [] ∧ s.connected = true
  waiting : s.disposed = true → s.connected = true → ∃ rest, s.disposes = false :: rest
  down : s.connected = false → s.disposed = true ∧ s.subscribers = [] ∧ ∃ rest, s.disposes = true :: rest
  counted : s.disconnects = if s.connected then 0 else 1

theorem kept_start : Kept {} where
  closed := rfl
  fresh _ := ⟨rfl, rfl⟩
  waiting disposed := by cases disposed
  down off := by cases off
  counted := rfl

end DisposableClient

theorem sum_set_lt {α : Type*} {f : α → Nat} {xs : List α} {i : Nat} {x y : α} (here : xs[i]? = some x)
    (lt : f y < f x) : ((xs.set i y).map f).sum < (xs.map f).sum := by
  induction xs generalizing i with
  | nil => simp at here
  | cons z xs ih =>
    cases i with
    | zero =>
      cases Option.some.inj here
      simpa using lt
    | succ i => simpa using ih (by simpa using here)

theorem sum_eraseIdx_lt {α : Type*} {f : α → Nat} {xs : List α} {i : Nat} {x : α} (here : xs[i]? = some x)
    (pos : 0 < f x) : ((xs.eraseIdx i).map f).sum < (xs.map f).sum := by
  induction xs generalizing i with
  | nil => simp at here
  | cons z xs ih =>
    cases i with
    | zero =>
      cases Option.some.inj here
      simpa using pos
    | succ i => simpa using ih (by simpa using here)

theorem mem_set_of_ne {α : Type*} {xs : List α} {i : Nat} {x y z : α} (here : xs[i]? = some x) (mem : z ∈ xs)
    (other : z ≠ x) : z ∈ xs.set i y := by
  obtain ⟨j, there⟩ := List.mem_iff_getElem?.mp mem
  refine List.mem_iff_getElem?.mpr ⟨j, ?_⟩
  have apart : i ≠ j := by
    rintro rfl
    exact other (Option.some.inj (there.symm.trans here))
  rw [List.getElem?_set_ne apart]
  exact there

theorem mem_eraseIdx_of_ne {α : Type*} {xs : List α} {i : Nat} {x z : α} (here : xs[i]? = some x) (mem : z ∈ xs)
    (other : z ≠ x) : z ∈ xs.eraseIdx i := by
  obtain ⟨j, there⟩ := List.mem_iff_getElem?.mp mem
  refine List.mem_eraseIdx_iff_getElem?.mpr ⟨j, ?_, there⟩
  rintro rfl
  exact other (Option.some.inj (there.symm.trans here))

/-- How much a subscriber has to do before it is gone. -/
def Subscriber.work : Subscriber → Nat
  | listen _ pending => 3 * pending + 1
  | awaitFor body pending => 3 * pending + (if body = none then 1 else 2)

namespace DisposableClient

def work (s : DisposableClient) : Nat := (s.subscribers.map Subscriber.work).sum + if s.disposes.head? = some false then 1 else 0

/-- A subscriber that is not held has done some of its work. -/
def Works (s t : DisposableClient) : Prop :=
  ∃ subscribers, t = { s with subscribers := subscribers } ∧ s.subscribers ≠ [] ∧
    (∀ u ∈ subscribers, u.Held → u ∈ s.subscribers) ∧ (∀ u ∈ s.subscribers, u.Held → u ∈ subscribers) ∧
    (subscribers.map Subscriber.work).sum < (s.subscribers.map Subscriber.work).sum

/-- What a step of the isolate's own does. -/
theorem own_cases {s t : DisposableClient} {l : DisposeStep} (step : s.next l = some t) (own : l.Own) :
    Works s t ∨
      (s.closed = true ∧ s.subscribers = [] ∧ s.disposes.head? = some false ∧
        t = { s with connected := false, disconnects := s.disconnects + 1, disposes := true :: s.disposes.tail }) := by
  have exists_of {i : Nat} {u : Subscriber} (here : s.subscribers[i]? = some u) : s.subscribers ≠ [] := by
    intro empty
    simp [empty] at here
  have replaced {i : Nat} {u v : Subscriber} (here : s.subscribers[i]? = some u) (free : ¬u.Held) (free' : ¬v.Held)
      (less : v.work < u.work) (same : t = s.put i v) :
      Works s t := by
    refine ⟨_, same, exists_of here, ?_, ?_, sum_set_lt here less⟩
    · intro w mem held
      rcases List.mem_or_eq_of_mem_set mem with old | rfl
      · exact old
      · exact absurd held free'
    · intro w mem held
      refine mem_set_of_ne here mem ?_
      rintro rfl
      exact free held
  have dropped {i : Nat} {u : Subscriber} (here : s.subscribers[i]? = some u) (free : ¬u.Held) (pos : 0 < u.work)
      (same : t = s.drop i) :
      Works s t := by
    refine ⟨_, same, exists_of here, ?_, ?_, sum_eraseIdx_lt here pos⟩
    · intro w mem _
      exact List.mem_of_mem_eraseIdx mem
    · intro w mem held
      refine mem_eraseIdx_of_ne here mem ?_
      rintro rfl
      exact free held
  cases l with
  | handle i =>
    simp only [next] at step
    split at step
    next pending here =>
      exact Or.inl (replaced here (by simp [Subscriber.Held]) (by simp [Subscriber.Held]) (by simp [Subscriber.work])
        (Option.some.inj step).symm)
    next pending here =>
      exact Or.inl (replaced here (by simp [Subscriber.Held]) (by simp [Subscriber.Held])
        (by simp [Subscriber.work]; omega) (Option.some.inj step).symm)
    next here =>
      obtain ⟨_, same⟩ := Option.ite_none_right_eq_some.mp step
      exact Or.inl (dropped here (by simp [Subscriber.Held]) (by simp [Subscriber.work]) (Option.some.inj same).symm)
    next here =>
      obtain ⟨_, same⟩ := Option.ite_none_right_eq_some.mp step
      exact Or.inl (dropped here (by simp [Subscriber.Held]) (by simp [Subscriber.work]) (Option.some.inj same).symm)
    next => cases step
  | bodyEnds i =>
    simp only [next] at step
    split at step
    next pending here =>
      exact Or.inl (replaced here (by simp [Subscriber.Held]) (by simp [Subscriber.Held]) (by simp [Subscriber.work])
        (Option.some.inj step).symm)
    next => cases step
  | disconnect =>
    obtain ⟨⟨closed, empty, waiting⟩, same⟩ := Option.ite_none_right_eq_some.mp step
    exact Or.inr ⟨closed, empty, waiting, (Option.some.inj same).symm⟩
  | message | listen | awaitFor | breaks | pause | resume | cancel | dispose | awaitDispose => cases own

theorem work_lowers {s t : DisposableClient} {l : DisposeStep} (step : s.next l = some t) (own : l.Own) :
    t.work < s.work := by
  rcases own_cases step own with ⟨subscribers, rfl, _, _, _, less⟩ | ⟨_, _, waiting, rfl⟩
  · simpa [work] using less
  · simp [work, waiting]

/-- The isolate left to itself comes to rest. -/
theorem runs_out (s : DisposableClient) :
    ∃ ls t, (∀ l ∈ ls, DisposeStep.Own l) ∧ Run (Takes next) s ls t ∧ Halted next DisposeStep.Own t := by
  have lowers : ∀ a l b, DisposeStep.Own l → next a l = some b → work b < work a :=
    fun _ _ _ own step => work_lowers step own
  exact exists_halted work lowers s

theorem kept_own {s t : DisposableClient} {l : DisposeStep} (h : s.Kept) (step : s.next l = some t) (own : l.Own) :
    t.Kept := by
  rcases own_cases step own with ⟨subscribers, rfl, some, _, _, _⟩ | ⟨closed, empty, waiting, rfl⟩
  · exact ⟨h.closed, h.fresh, h.waiting, fun off => absurd (h.down off).2.1 some, h.counted⟩
  · have disposed : s.disposed = true := h.closed ▸ closed
    have on : s.connected = true := by
      by_contra off
      obtain ⟨_, _, rest, done⟩ := h.down (by simpa using off)
      simp [done] at waiting
    refine ⟨h.closed, fun fresh => ?_, fun _ on' => ?_, fun _ => ⟨disposed, empty, _, rfl⟩, ?_⟩
    · rw [disposed] at fresh
      cases fresh
    · cases on'
    · have zero := h.counted
      rw [on] at zero
      simpa using zero

/-- A client on its way to `disconnect` in which nobody is held does not halt. -/
theorem not_halted {s : DisposableClient} (h : s.Kept) (disposed : s.disposed = true) (on : s.connected = true)
    (free : ∀ u ∈ s.subscribers, ¬u.Held) : ¬Halted next DisposeStep.Own s := by
  intro halted
  have closed : s.closed = true := h.closed.trans disposed
  cases empty : s.subscribers with
  | nil =>
    obtain ⟨rest, waiting⟩ := h.waiting disposed on
    have last := halted .disconnect trivial
    simp [next, closed, empty, waiting] at last
  | cons u us =>
    have here : s.subscribers[0]? = some u := by simp [empty]
    have unheld := free u (by simp [empty])
    cases u with
    | listen pauses pending =>
      have unpaused : pauses = 0 := by simpa [Subscriber.Held] using unheld
      subst unpaused
      have handles := halted (.handle 0) trivial
      cases pending with
      | zero => simp [next, here, closed] at handles
      | succ pending => simp [next, here] at handles
    | awaitFor body pending =>
      cases body with
      | none =>
        have handles := halted (.handle 0) trivial
        cases pending with
        | zero => simp [next, here, closed] at handles
        | succ pending => simp [next, here] at handles
      | some body =>
        cases body with
        | running =>
          have ends := halted (.bodyEnds 0) trivial
          simp [next, here] at ends
        | awaiting => exact unheld rfl

def Unheld (s : DisposableClient) : Prop :=
  s.disposed = true → s.connected = true → ∀ u ∈ s.subscribers, ¬u.Held

theorem unheld_own {s t : DisposableClient} {l : DisposeStep} (h : s.Unheld) (step : s.next l = some t) (own : l.Own) :
    t.Unheld := by
  rcases own_cases step own with ⟨subscribers, rfl, _, old, _, _⟩ | ⟨_, _, _, rfl⟩
  · intro disposed on u mem held
    exact h disposed on u (old u mem held) held
  · intro _ on
    cases on

/-- The isolate gets to `disconnect` by itself, unless a subscriber is held. -/
theorem free_iff {s : DisposableClient} (h : s.Kept) :
    (∀ ls t, (∀ l ∈ ls, l.Own) → Run (Takes next) s ls t → t.disposed = true → t.connected = true →
      ¬Halted next DisposeStep.Own t) ↔ s.Unheld := by
  constructor
  · intro free disposed on u mem held
    obtain ⟨ls, t, all, run, halted⟩ := runs_out s
    have stays : t.disposed = true ∧ t.connected = true ∧ u ∈ t.subscribers := by
      refine run.invariant_of_labels (I := fun a => a.disposed = true ∧ a.connected = true ∧ u ∈ a.subscribers) all
        ⟨disposed, on, mem⟩ fun a l b own here step => ?_
      obtain ⟨disposed, on, mem⟩ := here
      rcases own_cases step own with ⟨subscribers, rfl, _, _, keeps, _⟩ | ⟨_, empty, _, _⟩
      · exact ⟨disposed, on, keeps u mem held⟩
      · rw [empty] at mem
        cases mem
    exact free ls t all run stays.1 stays.2.1 halted
  · intro unheld ls t all run disposed on
    have inv : t.Kept ∧ t.Unheld := by
      refine run.invariant_of_labels (I := fun a => a.Kept ∧ a.Unheld) all ⟨h, unheld⟩ fun a l b own here step => ?_
      exact ⟨kept_own here.1 step own, unheld_own here.2 step own⟩
    exact not_halted inv.1 disposed on (inv.2 disposed on)

/-- The steps of the isolate's own come to an end, and then the bridge is disconnected. -/
theorem gets_to_disconnect {s : DisposableClient} (h : s.Kept) (unheld : s.Unheld) (disposed : s.disposed = true) :
    ∃ ls t, (∀ l ∈ ls, l.Own) ∧ Run (Takes next) s ls t ∧ t.connected = false := by
  obtain ⟨ls, t, all, run, halted⟩ := runs_out s
  refine ⟨ls, t, all, run, ?_⟩
  by_contra on
  have stays : t.disposed = true := by
    refine run.invariant_of_labels (I := fun a => a.disposed = true) all disposed fun a l b own here step => ?_
    rcases own_cases step own with ⟨subscribers, rfl, _⟩ | ⟨_, _, _, rfl⟩
    · exact here
    · exact here
  exact (free_iff h).mpr unheld ls t all run stays (by simpa using on) halted

theorem disposes_iff {s : DisposableClient} (h : s.Kept) :
    s.Disposes ↔ s.Unheld ∧ (true ∈ s.disposes → s.connected = false) :=
  ⟨fun good => ⟨(free_iff h).mp good.free, good.completed⟩, fun good => ⟨(free_iff h).mpr good.1, h.counted, good.2⟩⟩

theorem kept_dispose {s : DisposableClient} (h : s.Kept) : s.dispose.Kept := by
  unfold dispose
  split
  next disposed =>
    refine ⟨h.closed, fun fresh => ?_, fun _ on => ?_, fun off => ?_, h.counted⟩
    · cases disposed.symm.trans fresh
    · obtain ⟨rest, waiting⟩ := h.waiting disposed on
      exact ⟨rest ++ [true], by simp [waiting]⟩
    · obtain ⟨_, empty, rest, done⟩ := h.down off
      exact ⟨disposed, empty, rest ++ [true], by simp [done]⟩
  next fresh =>
    obtain ⟨none, on⟩ := h.fresh (by simpa using fresh)
    refine ⟨rfl, fun no => ?_, fun _ _ => ⟨[], by simp [none]⟩, fun off => ?_, h.counted⟩
    · cases no
    · cases on.symm.trans off

/-- A disconnected client has no subscriber. -/
theorem connected_of_subscriber {s : DisposableClient} (h : s.Kept) {i : Nat} {u : Subscriber}
    (here : s.subscribers[i]? = some u) : s.connected = true := by
  by_contra off
  obtain ⟨_, empty, _⟩ := h.down (by simpa using off)
  simp [empty] at here

/-- A step of a subscriber that is there. -/
theorem kept_subscribers {s : DisposableClient} (h : s.Kept) {i : Nat} {u : Subscriber} (here : s.subscribers[i]? = some u)
    (subscribers : List Subscriber) : Kept { s with subscribers := subscribers } := by
  refine ⟨h.closed, h.fresh, h.waiting, fun off => ?_, h.counted⟩
  cases (connected_of_subscriber h here).symm.trans off

theorem mem_put {s : DisposableClient} {i : Nat} {u : Subscriber} (here : s.subscribers[i]? = some u) (v : Subscriber) :
    v ∈ (s.put i v).subscribers :=
  List.mem_set (List.getElem?_eq_some_iff.mp here).1 _

theorem subscribers_dispose (s : DisposableClient) : s.dispose.subscribers = s.subscribers := by
  unfold dispose
  split
  next => rfl
  next => rfl

theorem kept_next {s t : DisposableClient} {l : DisposeStep} (h : s.Kept) (step : s.next l = some t) : t.Kept := by
  have opened (closed : ¬s.closed = true) : s.connected = true :=
    (h.fresh (by rw [← h.closed]; simpa using closed)).2
  cases l with
  | message isEvent =>
    simp only [next] at step
    split at step
    next => cases step
    next =>
      split at step
      next =>
        cases Option.some.inj step
        exact h
      next =>
        split at step
        next =>
          cases Option.some.inj step
          refine ⟨h.closed, h.fresh, h.waiting, fun off => ?_, h.counted⟩
          obtain ⟨disposed, empty, done⟩ := h.down off
          exact ⟨disposed, by simp [empty], done⟩
        next =>
          cases Option.some.inj step
          exact h
  | listen | awaitFor =>
    simp only [next] at step
    split at step
    next =>
      cases Option.some.inj step
      exact h
    next closed =>
      cases Option.some.inj step
      refine ⟨h.closed, h.fresh, h.waiting, fun off => ?_, h.counted⟩
      cases (opened closed).symm.trans off
  | handle | bodyEnds | disconnect => exact kept_own h step trivial
  | breaks | pause | resume | cancel =>
    simp only [next] at step
    split at step
    next here =>
      cases Option.some.inj step
      exact kept_subscribers h here _
    next => cases step
  | dispose =>
    cases Option.some.inj step
    exact kept_dispose h
  | awaitDispose i =>
    simp only [next] at step
    split at step
    next pending here =>
      split at step
      next =>
        cases Option.some.inj step
        exact kept_dispose h
      next =>
        cases Option.some.inj step
        exact kept_subscribers (kept_dispose h) (by rw [subscribers_dispose]; exact here) _
    next => cases step

theorem Subscriber.held_add {u : Subscriber} : u.add.Held ↔ u.Held := by
  cases u <;> rfl

/-- The steps that only concern the subscribers. -/
theorem unheld_subscribers {s : DisposableClient} (h : s.Unheld) {subscribers : List Subscriber}
    (old : ∀ u ∈ subscribers, u.Held → ∃ v ∈ s.subscribers, v.Held) : Unheld { s with subscribers := subscribers } := by
  intro disposed on u mem held
  obtain ⟨v, mem, held⟩ := old u mem held
  exact h disposed on v mem held

/-- A pause holds a client up from the first `dispose` on. -/
theorem unheld_pause {s : DisposableClient} (h : s.Kept) {i pauses pending : Nat}
    (here : s.subscribers[i]? = some (.listen pauses pending)) :
    (s.put i (.listen (pauses + 1) pending)).Unheld ↔ s.disposed = false := by
  constructor
  · intro unheld'
    by_contra fresh
    have disposed : s.disposed = true := by simpa using fresh
    have on : s.connected = true := connected_of_subscriber h here
    exact unheld' disposed on _ (mem_put here _) (Nat.succ_pos pauses)
  · intro fresh disposed
    cases disposed.symm.trans fresh

theorem disposes_next {s t : DisposableClient} {l : DisposeStep} (h : s.Kept) (good : s.Disposes)
    (step : s.next l = some t) : t.Disposes ↔ s.Undisturbed l := by
  obtain ⟨unheld, completed⟩ := (disposes_iff h).mp good
  rw [disposes_iff (kept_next h step)]
  have closed_of (disposed : s.disposed = true) : s.closed = true := h.closed.trans disposed
  cases l with
  | message isEvent =>
    simp only [next] at step
    split at step
    next => cases step
    next =>
      split at step
      next =>
        cases Option.some.inj step
        exact iff_of_true ⟨unheld, completed⟩ trivial
      next =>
        split at step
        next =>
          cases Option.some.inj step
          refine iff_of_true ⟨unheld_subscribers unheld ?_, completed⟩ trivial
          intro u mem held
          obtain ⟨v, there, rfl⟩ := List.mem_map.mp mem
          exact ⟨v, there, Subscriber.held_add.mp held⟩
        next =>
          cases Option.some.inj step
          exact iff_of_true ⟨unheld, completed⟩ trivial
  | listen | awaitFor =>
    simp only [next] at step
    split at step
    next =>
      cases Option.some.inj step
      exact iff_of_true ⟨unheld, completed⟩ trivial
    next closed =>
      cases Option.some.inj step
      exact iff_of_true ⟨fun disposed => absurd (closed_of disposed) closed, completed⟩ trivial
  | handle | bodyEnds | disconnect =>
    refine iff_of_true ⟨unheld_own unheld step trivial, ?_⟩ trivial
    rcases own_cases step trivial with ⟨subscribers, rfl, _⟩ | ⟨_, _, _, rfl⟩
    · exact completed
    · exact fun _ => rfl
  | breaks | cancel =>
    simp only [next] at step
    split at step
    next =>
      cases Option.some.inj step
      refine iff_of_true ⟨unheld_subscribers unheld fun u mem held => ?_, completed⟩ trivial
      exact ⟨u, List.mem_of_mem_eraseIdx mem, held⟩
    next => cases step
  | resume i =>
    simp only [next] at step
    split at step
    next pauses pending here =>
      cases Option.some.inj step
      refine iff_of_true ⟨unheld_subscribers unheld fun u mem held => ?_, completed⟩ trivial
      exact ⟨_, List.mem_of_getElem? here, Nat.succ_pos pauses⟩
    next => cases step
  | pause i =>
    simp only [next] at step
    split at step
    next pauses pending here =>
      cases Option.some.inj step
      exact (and_iff_left completed).trans (unheld_pause h here)
    next => cases step
  | dispose =>
    cases Option.some.inj step
    unfold dispose Undisturbed
    split
    next disposed =>
      have kept : Unheld { s with disposes := s.disposes ++ [true] } := unheld
      simp [kept]
    next fresh =>
      obtain ⟨none, on⟩ := h.fresh (by simpa using fresh)
      simp [Unheld, none, on]
  | awaitDispose i =>
    simp only [next] at step
    split at step
    next pending here =>
      split at step
      next disposed =>
        cases Option.some.inj step
        refine iff_of_false ?_ id
        rintro ⟨_, completed'⟩
        have off : s.connected = false := by simpa [dispose, disposed] using completed'
        cases (connected_of_subscriber h here).symm.trans off
      next fresh =>
        cases Option.some.inj step
        refine iff_of_false ?_ id
        rintro ⟨unheld', _⟩
        obtain ⟨_, on⟩ := h.fresh (by simpa using fresh)
        have here' : s.dispose.subscribers[i]? = some (.awaitFor (some .running) pending) := by
          rw [subscribers_dispose]
          exact here
        exact unheld' (by simp [put, dispose, fresh]) (by simp [put, dispose, fresh, on]) _ (mem_put here' _) rfl
    next => cases step

theorem disposes_start : Disposes {} := by
  refine (disposes_iff kept_start).mpr ⟨?_, ?_⟩
  · rintro ⟨⟩
  · rintro ⟨⟩

/-- `dispose` always gets to `disconnect` exactly if nobody disturbs it. -/
theorem dispose_disconnects_iff {s : DisposableClient} {ls : List DisposeStep} (run : Run (Takes next) {} ls s) :
    (∀ pre t, pre <+: ls → Run (Takes next) {} pre t → t.Disposes) ↔ Run (Guarded next Undisturbed) {} ls s :=
  always_iff_guarded kept_start (fun _ _ _ => kept_next) disposes_start (fun _ _ _ => disposes_next) run

/-- A subscriber and an `await for`, an event, and `dispose`. -/
theorem dispose_disconnects_iff_twoSubscribers :
    ∃ s, Run (Takes next) {} [.listen, .awaitFor, .message true, .handle 1, .dispose] s ∧ s.disposed = true ∧
      s.Disposes := by
  have run : Run (Takes next) {} [.listen, .awaitFor, .message true, .handle 1, .dispose] _ := run_takes_iff.mpr rfl
  have listened : Run (Guarded next Undisturbed) {} [.listen] _ := Run.single ⟨trivial, rfl⟩
  have subscribed : Run (Guarded next Undisturbed) {} [.listen, .awaitFor] _ := Run.next listened ⟨trivial, rfl⟩
  have told : Run (Guarded next Undisturbed) {} [.listen, .awaitFor, .message true] _ :=
    Run.next subscribed ⟨trivial, rfl⟩
  have busy : Run (Guarded next Undisturbed) {} [.listen, .awaitFor, .message true, .handle 1] _ :=
    Run.next told ⟨trivial, rfl⟩
  have always := (dispose_disconnects_iff run).mpr (Run.next busy ⟨by simp [Undisturbed, Subscriber.Held, put, Subscriber.add], rfl⟩)
  exact ⟨_, run, rfl, always _ _ (List.prefix_refl _) run⟩

/-- The only subscriber is paused: the first `dispose` waits, a second one completes, the bridge stays. -/
theorem dispose_waits_for_paused :
    ∃ s, Run (Takes next) {} [.listen, .pause 0, .dispose, .dispose] s ∧ s.disposed = true ∧ s.connected = true ∧
      Halted next DisposeStep.Own s ∧ true ∈ s.disposes := by
  refine ⟨{ disposed := true, portClosed := true, closed := true, subscribers := [.listen 1 0], disposes := [false, true] },
    run_takes_iff.mpr rfl, rfl, rfl, ?_, by decide⟩
  intro l own
  cases l with
  | handle i | bodyEnds i =>
    cases i with
    | zero => rfl
    | succ i => rfl
  | disconnect => rfl
  | message | listen | awaitFor | breaks | pause | resume | cancel | dispose | awaitDispose => cases own

/-- The body of an `await for` waits for `dispose`, which waits for the body. -/
example : (([.awaitFor, .message true, .handle 0, .awaitDispose 0] : List DisposeStep).foldlM next {}).map
    (fun s => (s.connected, s.subscribers, next s (.handle 0) matches none)) =
      some (true, [.awaitFor (some .awaiting) 0], true) := by
  decide

end DisposableClient

end PwDart
