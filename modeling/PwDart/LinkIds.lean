import PwDart.CoreErrors
import PwDart.IdProperties
import PwDart.LinkPromise

namespace PwDart

open Json LabelledRun

/-- The properties that `LinkManager::create_link` makes a link with. -/
def createLinkProps (outputPortId inputPortId : UInt32) : SpaDict :=
  [⟨some "link.output.port", some (toString outputPortId.toNat)⟩,
    ⟨some "link.input.port", some (toString inputPortId.toNat)⟩, ⟨some "object.linger", some "true"⟩]

/-- The ints that the FFI hands over as they are. -/
def FitsUint32 (i : Int) : Prop := 0 ≤ i ∧ i < 2 ^ 32

theorem decimalValue_digits (ds : List Nat) (small : ∀ d ∈ ds, d < 10) :
    decimalValue (ds.reverse.map digitChar) = Nat.ofDigits 10 ds := by
  induction ds with
  | nil => rfl
  | cons d ds ih =>
    have digit : (digitChar d).toNat - '0'.toNat = d := by
      have bound := small d List.mem_cons_self
      interval_cases d <;> rfl
    have rest := ih fun e mem => small e (List.mem_cons_of_mem _ mem)
    unfold decimalValue at rest ⊢
    rw [List.reverse_cons, List.map_append, List.foldl_append, rest, List.map_singleton, List.foldl_cons, List.foldl_nil,
      digit, Nat.ofDigits_cons]
    change 10 * Nat.ofDigits 10 ds + d = d + 10 * Nat.ofDigits 10 ds
    omega

theorem isDigit_digitChar {d : Nat} (small : d < 10) : (digitChar d).isDigit = true := by
  interval_cases d <;> rfl

theorem digits_toString (n : Nat) : (toString n).toList ≠ [] ∧ (∀ c ∈ (toString n).toList, c.isDigit = true) ∧
    decimalValue (toString n).toList = n := by
  have text : (toString n).toList = writeNat n := by
    rw [toList_toString_nat, writeInt, if_neg (by omega), Int.natAbs_natCast]
  rw [text, writeNat]
  split
  next zero =>
    subst zero
    refine ⟨by decide, fun c mem => ?_, by decide⟩
    cases List.mem_singleton.mp mem
    rfl
  next positive =>
    have small : ∀ d ∈ Nat.digits 10 n, d < 10 := fun d mem => Nat.digits_lt_base (by decide) mem
    refine ⟨by simpa [Nat.digits_eq_nil_iff_eq_zero] using positive, fun c mem => ?_, ?_⟩
    · obtain ⟨d, digit, rfl⟩ := List.mem_map.mp mem
      exact isDigit_digitChar (small d (List.mem_reverse.mp digit))
    · rw [decimalValue_digits _ small, Nat.ofDigits_digits]

/-- Digits have no white space or sign before them. -/
theorem plain_digits {cs : List Char} (filled : cs ≠ []) (digits : ∀ c ∈ cs, c.isDigit = true) :
    cs.dropWhile isSpace = cs ∧ cs.head? ≠ some '-' ∧ unsigned cs = cs := by
  cases cs with
  | nil => exact absurd rfl filled
  | cons c cs =>
    have digit := digits c List.mem_cons_self
    have space : isSpace c = false := by
      by_contra space
      simp only [isSpace, Bool.or_eq_true, decide_eq_true_eq, Bool.not_eq_false] at space
      rcases space with ((((rfl | rfl) | rfl) | rfl) | rfl) | rfl <;> cases digit
    have minus : c ≠ '-' := by
      rintro rfl
      cases digit
    have plus : c ≠ '+' := by
      rintro rfl
      cases digit
    refine ⟨List.dropWhile_cons_of_neg (by simp [space]), by simpa using minus, ?_⟩
    rw [unsigned, if_neg (by simp [minus, plus])]

/-- What `std::to_string` writes of an id is read back by `std::stoul`. -/
theorem idOfProp_toString (id : UInt32) : idOfProp (toString id.toNat) = .ok id := by
  obtain ⟨filled, digits, value⟩ := digits_toString id.toNat
  obtain ⟨start, plus, whole⟩ := plain_digits filled digits
  have numeric : IsNumeral (toString id.toNat) := by
    refine ⟨?_, ?_, ?_, fun minus => ?_⟩
    · rw [start, whole]
      exact filled
    · rw [start, whole]
      exact digits
    · rw [start, whole, value]
      exact id.toNat_lt
    · rw [start] at minus
      exact absurd minus plus
  have present : (toString id.toNat).isEmpty = false := by
    by_contra empty
    simp at empty
  rw [idOfProp, present, stoul_of_isNumeral numeric, start, whole, value]
  simp [Except.map]

theorem dartId_ofInt (i : Int) : dartId (.ofInt i) = i % 2 ^ 32 := by
  have bounds : 0 ≤ i % 2 ^ 32 ∧ i % 2 ^ 32 < 2 ^ 32 := by omega
  have small : (i % 2 ^ 32).toNat < UInt32.size := by
    change _ < 2 ^ 32
    omega
  rw [dartId, UInt32.ofInt, UInt32.toNat_ofNat_of_lt' small]
  omega

/-- A link that the server makes of a request has the ports of the request, as far as they are of 32 bits. -/
theorem ports_of_createLinkProps {outputPortId inputPortId : Int} {id : UInt32} {props : Option SpaDict} {info : LinkInfo}
    (kept : ∀ key ∈ ["link.output.port", "link.input.port"],
      dictGet props key = dictGet (some (createLinkProps (.ofInt outputPortId) (.ofInt inputPortId))) key)
    (read : newLinkInfo id props = .ok info) :
    info.image.outputPortId = outputPortId % 2 ^ 32 ∧ info.image.inputPortId = inputPortId % 2 ^ 32 := by
  obtain ⟨outputNode, _, outputPort, output, inputNode, _, inputPort, input, rfl⟩ := newLinkInfo_eq_ok.mp read
  rw [kept _ (by simp)] at output input
  have outputText : dictGet (some (createLinkProps (.ofInt outputPortId) (.ofInt inputPortId))) "link.output.port" =
      toString (UInt32.ofInt outputPortId).toNat := rfl
  have inputText : dictGet (some (createLinkProps (.ofInt outputPortId) (.ofInt inputPortId))) "link.input.port" =
      toString (UInt32.ofInt inputPortId).toNat := rfl
  rw [outputText, idOfProp_toString] at output
  rw [inputText, idOfProp_toString] at input
  cases output
  cases input
  exact ⟨dartId_ofInt outputPortId, dartId_ofInt inputPortId⟩

theorem fitsUint32_dartId (id : UInt32) : FitsUint32 (dartId id) := by
  have bound := id.toNat_lt
  unfold FitsUint32 dartId
  omega

namespace LinkRequests

/-- A command has the ids of its call modulo 2^32; what is heard, and so what a call has got, has ids of 32 bits. -/
structure Bounded (s : LinkRequests) : Prop where
  queue : ∀ command k, (command, some k) ∈ s.queue → ∃ c, s.calls[k]? = some c ∧
    command = .createLink (.ofInt c.outputPortId) (.ofInt c.inputPortId) 0
  port : ∀ message ∈ s.port, ∀ link, linkOf message.1 = some link →
    FitsUint32 link.outputPortId ∧ FitsUint32 link.inputPortId
  calls : ∀ c ∈ s.calls, ∀ link announced, c.outcome = .link link announced → link.outputPortId = c.outputPortId ∧
    link.inputPortId = c.inputPortId ∧ FitsUint32 c.outputPortId ∧ FitsUint32 c.inputPortId

theorem bounded_start : Bounded {} where
  queue _ _ mem := absurd mem List.not_mem_nil
  port _ mem := absurd mem List.not_mem_nil
  calls _ mem := absurd mem List.not_mem_nil

theorem bounded_calls {s : LinkRequests} (h : s.Bounded) {f : LinkCall → LinkCall} {k : Nat}
    (ids : ∀ c, (f c).outputPortId = c.outputPortId ∧ (f c).inputPortId = c.inputPortId)
    (outcome : ∀ c link announced, (f c).outcome = .link link announced → c.outcome = .link link announced) :
    Bounded { s with calls := s.calls.modify k f } := by
  refine ⟨fun command j mem => ?_, h.port, fun c mem link announced got => ?_⟩
  · obtain ⟨c, here, rfl⟩ := h.queue command j mem
    by_cases same : k = j
    · subst same
      exact ⟨f c, by simp [here], by rw [(ids c).1, (ids c).2]⟩
    · exact ⟨c, by simp [same, here], rfl⟩
  · rcases mem_modify mem with old | ⟨d, here, rfl⟩
    · exact h.calls c old link announced got
    · rw [(ids d).1, (ids d).2]
      exact h.calls d (List.mem_of_getElem? here) link announced (outcome d link announced got)

theorem bounded_createLink {s : LinkRequests} (h : s.Bounded) (outputPortId inputPortId : Int) (pushed : Bool) :
    (s.createLink outputPortId inputPortId pushed).Bounded := by
  have older {command : Command} {k : Nat} (mem : (command, some k) ∈ s.queue) (outcome : LinkOutcome) :
      ∃ c, (s.calls ++ [⟨outputPortId, inputPortId, none, outcome⟩])[k]? = some c ∧
        command = .createLink (.ofInt c.outputPortId) (.ofInt c.inputPortId) 0 := by
    obtain ⟨c, here, shape⟩ := h.queue command k mem
    exact ⟨c, by rw [List.getElem?_append_left (List.getElem?_eq_some_iff.mp here).1]; exact here, shape⟩
  have calls {outcome : LinkOutcome} (unlinked : ∀ link announced, outcome ≠ .link link announced) :
      ∀ c ∈ s.calls ++ [⟨outputPortId, inputPortId, none, outcome⟩], ∀ link announced, c.outcome = .link link announced →
        link.outputPortId = c.outputPortId ∧ link.inputPortId = c.inputPortId ∧ FitsUint32 c.outputPortId ∧
          FitsUint32 c.inputPortId := by
    intro c mem link announced got
    rcases List.mem_append.mp mem with old | new
    · exact h.calls c old link announced got
    · cases List.mem_singleton.mp new
      exact absurd got (unlinked link announced)
  unfold createLink
  split
  next =>
    refine ⟨fun command k mem => ?_, h.port, calls (by simp)⟩
    rcases List.mem_append.mp mem with old | new
    · exact older old .pending
    · cases List.mem_singleton.mp new
      exact ⟨_, List.getElem?_concat_length, rfl⟩
  next => exact ⟨fun command k mem => older mem .error, h.port, calls (by simp)⟩

theorem bounded_hear {s : LinkRequests} (h : s.Bounded) {message : Value × Option Nat} {rest : List (Value × Option Nat)}
    (port : s.port = message :: rest) :
    Bounded { s with port := rest, calls := s.calls.map fun c => c.hear message } := by
  have ids (c : LinkCall) : (c.hear message).outputPortId = c.outputPortId ∧ (c.hear message).inputPortId = c.inputPortId := by
    rcases c.hear_cases message with ⟨same, _⟩ | ⟨link, _, _, _, same⟩
    · rw [same]
      exact ⟨rfl, rfl⟩
    · rw [same]
      exact ⟨rfl, rfl⟩
  refine ⟨fun command k mem => ?_, fun m mem => h.port m (port ▸ List.mem_cons_of_mem _ mem), ?_⟩
  · obtain ⟨c, here, rfl⟩ := h.queue command k mem
    exact ⟨c.hear message, by simp [here], by rw [(ids c).1, (ids c).2]⟩
  · intro c mem link announced got
    obtain ⟨d, there, rfl⟩ := List.mem_map.mp mem
    rw [(ids d).1, (ids d).2]
    rcases d.hear_cases message with ⟨same, _⟩ | ⟨heard, about, _, awaits, same⟩
    · rw [same] at got
      exact h.calls d there link announced got
    · rw [same] at got
      cases got
      obtain ⟨output, input⟩ := LinkCall.awaits_iff.mp awaits
      obtain ⟨outputFits, inputFits⟩ := h.port message (port ▸ List.mem_cons_self) _ about
      exact ⟨output, input, output ▸ outputFits, input ▸ inputFits⟩

theorem bounded_callback {s : LinkRequests} (h : s.Bounded) (c : Callback) : (s.callback c).Bounded := by
  refine ⟨h.queue, fun message mem link about => ?_, h.calls⟩
  rcases List.mem_append.mp mem with old | new
  · exact h.port message old link about
  · obtain ⟨event, _, rfl⟩ := List.mem_map.mp new
    rw [linkOf_toJson] at about
    cases event with
    | linkAdded info =>
      cases about
      exact ⟨fitsUint32_dartId info.outputPortId, fitsUint32_dartId info.inputPortId⟩
    | _ => cases about

theorem bounded_anyNext {s t : LinkRequests} {l : LinkStep} (h : s.Bounded) (step : s.anyNext l = some t) :
    t.Bounded := by
  cases l with
  | createLink outputPortId inputPortId pushed =>
    cases step
    exact bounded_createLink h outputPortId inputPortId pushed
  | call c =>
    cases step
    refine ⟨fun command k mem => ?_, h.port, h.calls⟩
    rcases List.mem_append.mp mem with old | new
    · exact h.queue command k old
    · obtain ⟨_, _, other⟩ := List.mem_map.mp new
      cases other
  | fail k =>
    cases step
    refine bounded_calls h (fun c => ?_) fun c link announced got => ?_
    · split <;> exact ⟨rfl, rfl⟩
    · split at got
      next => cases got
      next => exact got
  | execute =>
    simp only [anyNext, next] at step
    split at step
    next => cases step
    next command rest queue =>
      cases step
      exact { h with queue := fun command k mem => h.queue command k (queue ▸ List.mem_cons_of_mem _ mem) }
    next command k rest queue =>
      cases step
      have shorter : Bounded { s with queue := rest, clock := s.clock + 1 } :=
        ⟨fun command j mem => h.queue command j (queue ▸ List.mem_cons_of_mem _ mem), h.port, h.calls⟩
      exact bounded_calls shorter (fun c => ⟨rfl, rfl⟩) fun c link announced got => got
  | callback c =>
    cases step
    exact bounded_callback h c
  | deliver =>
    simp only [anyNext, next] at step
    split at step
    next => cases step
    next message rest port =>
      cases step
      exact bounded_hear h port

/-- In every run the command of a call asks for the ids modulo 2^32, and a link made of its properties has them. A
call whose own ids are not of 32 bits never gets a link, whatever is made. -/
theorem requests_bounded {s : LinkRequests} {ls : List LinkStep} (run : Run (Takes anyNext) {} ls s) :
    (∀ command k, (command, some k) ∈ s.queue → ∃ c, s.calls[k]? = some c ∧
      command = .createLink (.ofInt c.outputPortId) (.ofInt c.inputPortId) 0 ∧
      ∀ (id : UInt32) props info, (∀ key ∈ ["link.output.port", "link.input.port"],
        dictGet props key = dictGet (some (createLinkProps (.ofInt c.outputPortId) (.ofInt c.inputPortId))) key) →
        newLinkInfo id props = .ok info →
        info.image.outputPortId = c.outputPortId % 2 ^ 32 ∧ info.image.inputPortId = c.inputPortId % 2 ^ 32 ∧
          (c.awaits info.image = true ↔ FitsUint32 c.outputPortId ∧ FitsUint32 c.inputPortId)) ∧
    ∀ c ∈ s.calls, ∀ link announced, c.outcome = .link link announced → link.outputPortId = c.outputPortId ∧
      link.inputPortId = c.inputPortId ∧ FitsUint32 c.outputPortId ∧ FitsUint32 c.inputPortId := by
  have bounded : s.Bounded := by
    apply run.invariant bounded_start
    intro a l b h step
    exact bounded_anyNext h step
  refine ⟨fun command k mem => ?_, bounded.calls⟩
  obtain ⟨c, here, shape⟩ := bounded.queue command k mem
  refine ⟨c, here, shape, fun id props info kept read => ?_⟩
  obtain ⟨output, input⟩ := ports_of_createLinkProps kept read
  refine ⟨output, input, ?_⟩
  rw [LinkCall.awaits_iff, output, input]
  unfold FitsUint32
  constructor
  · rintro ⟨sameOutput, sameInput⟩
    omega
  · rintro ⟨⟨low, high⟩, low', high'⟩
    exact ⟨Int.emod_eq_of_lt low high, Int.emod_eq_of_lt low' high'⟩

/-- Two calls that ask for the same ids modulo 2^32, and a link with these ids. -/
def sameCommands : List LinkStep :=
  [.createLink (2 ^ 32 + 30) 31 true, .createLink 30 31 true, .execute, .execute,
    .callback (.global 40 (some interfaceLink) none (some 5)), .callback (.linkInfo 40 (some pausedLink)), .deliver]

theorem requests_bounded_sameCommands : ∃ s, Run (Takes anyNext) {} sameCommands s ∧
    s.calls.map LinkCall.outcome = [.pending, .link ⟨40, 10, 30, 11, 31, .paused, [], ∅⟩ (some 2)] ∧
    ∀ c ∈ s.calls, ∀ link announced, c.outcome = .link link announced → FitsUint32 c.outputPortId := by
  have run : Run (Takes anyNext) {} sameCommands _ := run_takes_iff.mpr rfl
  exact ⟨_, run, rfl, fun c mem link announced got => ((requests_bounded run).2 c mem link announced got).2.2.1⟩

end LinkRequests

end PwDart
