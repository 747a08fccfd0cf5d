import PwDart.LinkRequests

namespace PwDart

open Json LabelledRun

/-- A call that has got at most what the other one has. -/
structure LinkCall.Below (c d : LinkCall) : Prop where
  outputPortId : c.outputPortId = d.outputPortId
  inputPortId : c.inputPortId = d.inputPortId
  executed : d.executed = none ∨ c.executed = d.executed
  outcome : ∀ link announced, c.outcome = .link link announced → d.outcome = .link link announced

theorem LinkCall.Below.refl (c : LinkCall) : c.Below c := ⟨rfl, rfl, Or.inr rfl, fun _ _ => id⟩

theorem exists_of_forall₂ {α β : Type*} {R : α → β → Prop} {xs : List α} {ys : List β} (related : List.Forall₂ R xs ys)
    {x : α} (mem : x ∈ xs) : ∃ y ∈ ys, R x y := by
  induction related with
  | nil => cases mem
  | @cons a b as bs first rest ih =>
    rcases List.mem_cons.mp mem with rfl | later
    · exact ⟨b, List.mem_cons_self .., first⟩
    · obtain ⟨y, there, holds⟩ := ih later
      exact ⟨y, List.mem_cons_of_mem _ there, holds⟩

theorem promised_of_below {calls others : List LinkCall} (below : List.Forall₂ LinkCall.Below calls others)
    (h : Promised others) : Promised calls := by
  induction below with
  | nil => exact h
  | @cons c d calls others first rest ih =>
    obtain ⟨apart, distinct⟩ := List.pairwise_cons.mp h.distinct
    have tail := ih ⟨fun c mem => h.asked c (List.mem_cons_of_mem _ mem), distinct⟩
    refine ⟨?_, List.pairwise_cons.mpr ⟨?_, tail.distinct⟩⟩
    · intro e mem link announced got
      rcases List.mem_cons.mp mem with rfl | later
      · obtain ⟨output, input, executed, time, ran, since, before⟩ :=
          h.asked d (List.mem_cons_self ..) link announced (first.outcome link announced got)
        refine ⟨output.trans first.outputPortId.symm, input.trans first.inputPortId.symm, executed, time, ?_, since, before⟩
        rcases first.executed with none | same
        · cases none.symm.trans ran
        · exact same.trans ran
      · exact tail.asked e later link announced got
    · intro e mem link announced link' announced' got got'
      obtain ⟨f, there, below⟩ := exists_of_forall₂ rest mem
      exact apart f there link announced link' announced' (first.outcome link announced got)
        (below.outcome link' announced' got')

theorem below_map {calls : List LinkCall} {f g : LinkCall → LinkCall} (below : ∀ c ∈ calls, (f c).Below (g c)) :
    List.Forall₂ LinkCall.Below (calls.map f) (calls.map g) := by
  induction calls with
  | nil => exact List.Forall₂.nil
  | cons c calls ih =>
    exact List.Forall₂.cons (below c (List.mem_cons_self ..)) (ih fun d mem => below d (List.mem_cons_of_mem _ mem))

theorem below_modify {calls : List LinkCall} {k : Nat} {f g : LinkCall → LinkCall}
    (below : ∀ c, calls[k]? = some c → (g (f c)).Below (g c)) :
    List.Forall₂ LinkCall.Below ((calls.modify k f).map g) (calls.map g) := by
  induction calls generalizing k with
  | nil => simp
  | cons c calls ih =>
    cases k with
    | zero => exact List.Forall₂.cons (below c rfl) (below_map fun d _ => LinkCall.Below.refl _)
    | succ k =>
      refine List.Forall₂.cons (LinkCall.Below.refl _) (ih fun d here => below d ?_)
      simpa using here

theorem LinkCall.below_after (c : LinkCall) (first second : List (Value × Option Nat)) :
    (c.after first).Below (c.after (first ++ second)) := by
  obtain ⟨output, input, executed⟩ := (c.after first).after_fields second
  rw [LinkCall.after_append]
  refine ⟨output.symm, input.symm, Or.inr executed.symm, fun link announced got => ?_⟩
  rw [LinkCall.after_done (by simp [got])]
  exact got

namespace LinkRequests

/-- The calls when all that has been posted is delivered. -/
def drained (s : LinkRequests) : List LinkCall := s.calls.map fun c => c.after s.port

theorem run_deliver {s t : LinkRequests} {n : Nat} (run : Run (Takes next) s (List.replicate n .deliver) t) :
    t.calls = s.calls.map (fun c => c.after (s.port.take n)) ∧ t.port = s.port.drop n ∧ n ≤ s.port.length := by
  induction n generalizing t with
  | zero =>
    cases run_takes_unique run Run.start
    simp
  | succ n ih =>
    rw [List.replicate_succ'] at run
    obtain ⟨mid, first, step⟩ := run_append_singleton run
    obtain ⟨calls, port, bound⟩ := ih first
    simp only [Takes, next] at step
    split at step
    next => cases step
    next message rest same =>
      cases Option.some.inj step
      rw [port] at same
      have here : s.port[n]? = some message := by
        rw [← List.head?_drop, same]
        rfl
      refine ⟨?_, ?_, (List.getElem?_eq_some_iff.mp here).1⟩
      · simp [calls, List.take_add_one, here, LinkCall.after_append]
      · rw [← List.tail_drop, same]
        rfl

theorem exists_run_deliver (s : LinkRequests) : ∃ t, Run (Takes next) s (List.replicate s.port.length .deliver) t := by
  generalize same : s.port.length = n
  induction n generalizing s with
  | zero => exact ⟨s, Run.start⟩
  | succ n ih =>
    cases held : s.port with
    | nil => simp [held] at same
    | cons message rest =>
      obtain ⟨t, run⟩ := ih { s with port := rest, calls := s.calls.map fun c => c.hear message } (by simpa [held] using same)
      have step : Takes next s .deliver { s with port := rest, calls := s.calls.map fun c => c.hear message } := by
        simp [Takes, next, held]
      exact ⟨t, Run.trans (Run.single step) run⟩

theorem settles_iff {s : LinkRequests} : s.Settles ↔ Promised s.drained := by
  constructor
  · intro settles
    obtain ⟨t, run⟩ := s.exists_run_deliver
    obtain ⟨calls, _, _⟩ := run_deliver run
    have promised := settles _ t run
    rwa [calls, List.take_length] at promised
  · intro promised n t run
    obtain ⟨calls, _, _⟩ := run_deliver run
    rw [calls]
    refine promised_of_below (below_map fun c _ => ?_) promised
    have whole := c.below_after (s.port.take n) (s.port.drop n)
    rwa [List.take_append_drop] at whole

end LinkRequests

end PwDart
