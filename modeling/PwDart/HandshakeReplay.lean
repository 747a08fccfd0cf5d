import PwDart.Handshake

namespace PwDart

/-- The view after the events that are on their way: each global finds its id free, each remove its
object there. -/
def replayEvents : List ServerObject → List ServerEvent → Option (List ServerObject)
  | view, [] => some view
  | view, .global object :: rest =>
    if ∀ other ∈ view, other.id ≠ object.id then replayEvents (view ++ [object]) rest else none
  | view, .globalRemove object :: rest =>
    if object ∈ view then replayEvents (view.filter fun other => other ≠ object) rest else none
  | view, .info _ _ :: rest => replayEvents view rest
  | view, .done _ _ :: rest => replayEvents view rest

theorem replayEvents_append (view : List ServerObject) (first second : List ServerEvent) :
    replayEvents view (first ++ second) =
      (replayEvents view first).bind fun mid => replayEvents mid second := by
  induction first generalizing view with
  | nil => rfl
  | cons event first ih =>
    cases event <;> simp only [List.cons_append, replayEvents, ih]
    · split <;> rfl
    · split <;> rfl

theorem replayEvents_globals {objects : List ServerObject} {view : List ServerObject}
    (ids : ((view ++ objects).map ServerObject.id).Nodup) :
    replayEvents view (objects.map .global) = some (view ++ objects) := by
  induction objects generalizing view with
  | nil => simp [replayEvents]
  | cons object objects ih =>
    have free : ∀ other ∈ view, other.id ≠ object.id := by
      intro other hother same
      rw [List.map_append, List.nodup_append] at ids
      exact ids.2.2 _ (List.mem_map_of_mem hother) _ (List.mem_map_of_mem (List.mem_cons_self ..)) same
    rw [List.map_cons, replayEvents, if_pos free, ih (by simpa using ids)]
    simp

theorem replayEvents_silent {view : List ServerObject} {events : List ServerEvent}
    (silent : ∀ e ∈ events, (∃ proxy report, e = .info proxy report) ∨ ∃ id seq, e = .done id seq) :
    replayEvents view events = some view := by
  induction events with
  | nil => rfl
  | cons e events ih =>
    have rest := ih fun e he => silent e (List.mem_cons_of_mem _ he)
    rcases silent e (List.mem_cons_self ..) with ⟨proxy, report, rfl⟩ | ⟨id, seq, rfl⟩
    · exact rest
    · exact rest

/-- An object there in the end was there before, or is announced on the way. -/
theorem mem_of_replayEvents {view result : List ServerObject} {events : List ServerEvent}
    (replayed : replayEvents view events = some result) {object : ServerObject} (h : object ∈ result) :
    object ∈ view ∨ .global object ∈ events := by
  induction events generalizing view with
  | nil => cases Option.some.inj replayed; exact Or.inl h
  | cons event events ih =>
    cases event with
    | global other =>
      obtain ⟨_, replayed⟩ := Option.ite_none_right_eq_some.mp replayed
      rcases ih replayed with hview | hevent
      · rcases List.mem_append.mp hview with hview | hsame
        · exact Or.inl hview
        · cases List.mem_singleton.mp hsame; exact Or.inr (List.mem_cons_self ..)
      · exact Or.inr (List.mem_cons_of_mem _ hevent)
    | globalRemove other =>
      obtain ⟨_, replayed⟩ := Option.ite_none_right_eq_some.mp replayed
      exact (ih replayed).imp (fun hview => (List.mem_filter.mp hview).1) (List.mem_cons_of_mem _)
    | info | done => exact (ih replayed).imp_right (List.mem_cons_of_mem _)

/-- An object there before is there in the end, or is removed on the way. -/
theorem kept_of_replayEvents {view result : List ServerObject} {events : List ServerEvent}
    (replayed : replayEvents view events = some result) {object : ServerObject} (h : object ∈ view) :
    object ∈ result ∨ .globalRemove object ∈ events := by
  induction events generalizing view with
  | nil => cases Option.some.inj replayed; exact Or.inl h
  | cons event events ih =>
    cases event with
    | global other =>
      obtain ⟨_, replayed⟩ := Option.ite_none_right_eq_some.mp replayed
      exact (ih replayed (List.mem_append_left _ h)).imp_right (List.mem_cons_of_mem _)
    | globalRemove other =>
      obtain ⟨_, replayed⟩ := Option.ite_none_right_eq_some.mp replayed
      by_cases same : object = other
      · subst same; exact Or.inr (List.mem_cons_self ..)
      · exact (ih replayed (List.mem_filter.mpr ⟨h, by simpa using same⟩)).imp_right
          (List.mem_cons_of_mem _)
    | info | done => exact (ih replayed h).imp_right (List.mem_cons_of_mem _)

end PwDart
