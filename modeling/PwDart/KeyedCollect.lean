import PwDart.LinkedMap
import Mathlib.Data.List.Forall2
import Mathlib.Data.List.Induction

namespace LinkedMap

variable {κ ν : Type*} [DecidableEq κ]

/-- What values that are written in turn under their own keys leave. -/
def collected (keyOf : ν → κ) (vs : List ν) : LinkedMap κ ν := ofEntries (vs.map fun v => (keyOf v, v))

@[simp] theorem collected_nil (keyOf : ν → κ) : collected keyOf [] = ∅ := rfl

theorem collected_concat (keyOf : ν → κ) (vs : List ν) (v : ν) :
    collected keyOf (vs ++ [v]) = (collected keyOf vs).put (keyOf v) v := by
  simp [collected, ofEntries, List.foldl_append]

theorem keys_put_of_mem {m : LinkedMap κ ν} {k : κ} (present : k ∈ m) (v : ν) : (put m k v).keys = m.keys := by
  rw [put, dif_pos present]
  exact AList.keys_replace k v m

theorem keys_put_of_notMem {m : LinkedMap κ ν} {k : κ} (absent : k ∉ m) (v : ν) :
    (put m k v).keys = m.keys ++ [k] := by
  rw [AList.keys, entries_put_of_notMem absent, List.keys, List.map_append]
  rfl

/-- A key stands where it came first. -/
theorem keys_collected (keyOf : ν → κ) (vs : List ν) : (collected keyOf vs).keys = (vs.map keyOf).eraseDups := by
  induction vs using List.reverseRecOn with
  | nil => rfl
  | append_singleton vs v ih =>
    have known : keyOf v ∈ collected keyOf vs ↔ keyOf v ∈ vs.map keyOf := by
      rw [AList.mem_keys, ih, List.mem_eraseDups]
    rw [collected_concat, List.map_append, List.eraseDups_append, ← ih]
    by_cases present : keyOf v ∈ vs.map keyOf
    · rw [keys_put_of_mem (known.mpr present)]
      simp [List.removeAll, List.mem_map.mp present]
    · rw [keys_put_of_notMem (known.not.mpr present)]
      have fresh : [keyOf v].removeAll (vs.map keyOf) = [keyOf v] := by
        rw [List.removeAll, List.filter_eq_self]
        intro k mem
        cases List.mem_singleton.mp mem
        simpa using present
      rw [List.map_singleton, fresh]
      rfl

/-- The value is the last that came under its key. -/
theorem lookup_collected (keyOf : ν → κ) (vs : List ν) (k : κ) :
    (collected keyOf vs).lookup k = (vs.filter fun v => keyOf v = k).getLast? := by
  induction vs using List.reverseRecOn with
  | nil => rfl
  | append_singleton vs v ih =>
    rw [collected_concat, lookup_put, List.filter_append, List.getLast?_append, ih]
    by_cases same : keyOf v = k
    · simp [same]
    · have other : k ≠ keyOf v := Ne.symm same
      simp [same, other]

theorem keyedBy_collected (keyOf : ν → κ) (vs : List ν) : KeyedBy keyOf (collected keyOf vs) := by
  intro k v found
  rw [lookup_collected] at found
  simpa using (List.mem_filter.mp (List.mem_of_getLast? found)).2

theorem mem_of_lookup_collected {keyOf : ν → κ} {vs : List ν} {k : κ} {v : ν}
    (found : (collected keyOf vs).lookup k = some v) : v ∈ vs := by
  rw [lookup_collected] at found
  exact (List.mem_filter.mp (List.mem_of_getLast? found)).1

theorem values_collected {keyOf : ν → κ} {vs : List ν} (distinct : (vs.map keyOf).Nodup) :
    (collected keyOf vs).values = vs := by
  have entries : (collected keyOf vs).entries = vs.map fun v => (⟨keyOf v, v⟩ : Σ _ : κ, ν) := by
    have fresh : ((∅ : LinkedMap κ ν).entries ++ vs.map fun v => (⟨keyOf v, v⟩ : Σ _ : κ, ν)).NodupKeys := by
      simpa [List.NodupKeys, List.keys, Function.comp_def] using distinct
    have written := entries_foldl_put fresh
    rw [List.foldl_map] at written
    rw [collected, ofEntries, List.foldl_map]
    simpa using written
  rw [values, entries, List.map_map]
  exact List.map_id' vs

theorem lookup_collected_iff {keyOf : ν → κ} {vs : List ν} (distinct : (vs.map keyOf).Nodup) {k : κ} {v : ν} :
    (collected keyOf vs).lookup k = some v ↔ v ∈ vs ∧ keyOf v = k := by
  constructor
  · intro found
    exact ⟨mem_of_lookup_collected found, keyedBy_collected keyOf vs k v found⟩
  · rintro ⟨mem, rfl⟩
    exact (keyedBy_collected keyOf vs).mem_values.mp ((values_collected distinct).symm ▸ mem)

/-- A map is known by the order of its keys and what it holds under them. -/
theorem ext_keys_lookup {m n : LinkedMap κ ν} (keys : m.keys = n.keys) (lookup : ∀ k, m.lookup k = n.lookup k) :
    m = n := by
  have shown (l : LinkedMap κ ν) :
      l.entries.map (fun entry => (entry.1, some entry.2)) = l.keys.map fun k => (k, l.lookup k) := by
    rw [AList.keys, List.keys, List.map_map]
    apply List.map_congr_left
    intro entry mem
    exact congrArg (Prod.mk entry.1) (AList.mem_lookup_iff.mpr mem).symm
  apply AList.ext
  have inj : Function.Injective fun entry : (Σ _ : κ, ν) => (entry.1, some entry.2) := by
    rintro ⟨k, v⟩ ⟨l, w⟩ same
    simp only [Prod.mk.injEq, Option.some.injEq] at same
    obtain ⟨rfl, rfl⟩ := same
    rfl
  apply List.map_injective_iff.mpr inj
  calc m.entries.map (fun entry => (entry.1, some entry.2))
      = m.keys.map fun k => (k, m.lookup k) := shown m
    _ = n.keys.map fun k => (k, n.lookup k) := by simp only [keys, lookup]
    _ = n.entries.map fun entry => (entry.1, some entry.2) := (shown n).symm

theorem eq_collected_iff {keyOf : ν → κ} {vs : List ν} {m : LinkedMap κ ν} :
    m = collected keyOf vs ↔
      m.keys = (vs.map keyOf).eraseDups ∧ ∀ k, m.lookup k = (vs.filter fun v => keyOf v = k).getLast? := by
  constructor
  · rintro rfl
    exact ⟨keys_collected keyOf vs, lookup_collected keyOf vs⟩
  · rintro ⟨keys, lookup⟩
    exact ext_keys_lookup (keys.trans (keys_collected keyOf vs).symm)
      fun k => (lookup k).trans (lookup_collected keyOf vs k).symm

section Decoding

variable {ε β : Type*} {decode : β → Except ε ν} {keyOf : ν → κ}

/-- Every item is decoded, in order. -/
def Decodes (decode : β → Except ε ν) : List β → List ν → Prop := List.Forall₂ fun item v => decode item = .ok v

theorem decodes_concat {items : List β} {item : β} {vs : List ν} :
    Decodes decode (items ++ [item]) vs ↔ ∃ ws v, vs = ws ++ [v] ∧ Decodes decode items ws ∧ decode item = .ok v := by
  constructor
  · intro decoded
    obtain ⟨last, ws, one, first, reversed⟩ := List.forall₂_cons_left_iff.mp (by
      simpa using List.rel_reverse decoded)
    refine ⟨ws.reverse, last, ?_, ?_, one⟩
    · simpa using congrArg List.reverse reversed
    · simpa [Decodes] using List.rel_reverse first
  · rintro ⟨ws, v, rfl, first, one⟩
    exact List.rel_append first (.cons one .nil)

/-- The loop that decodes and writes: it ends well where every item is decoded. -/
theorem foldlM_put_iff {step : LinkedMap κ ν → β → Except ε (LinkedMap κ ν)}
    (spec : ∀ m item found, step m item = .ok found ↔ ∃ v, decode item = .ok v ∧ found = m.put (keyOf v) v)
    {items : List β} {found : LinkedMap κ ν} :
    items.foldlM step ∅ = .ok found ↔ ∃ vs, Decodes decode items vs ∧ found = collected keyOf vs := by
  induction items using List.reverseRecOn generalizing found with
  | nil =>
    constructor
    · intro folded
      cases folded
      exact ⟨[], .nil, rfl⟩
    · rintro ⟨vs, decoded, rfl⟩
      cases decoded
      rfl
  | append_singleton items item ih =>
    have split : (items ++ [item]).foldlM step ∅ = .ok found ↔
        ∃ m, items.foldlM step ∅ = .ok m ∧ step m item = .ok found := by
      simp only [List.foldlM_append, List.foldlM_cons, List.foldlM_nil, bind_pure]
      cases items.foldlM step ∅ <;> simp [bind, Except.bind]
    simp only [split, ih, spec, decodes_concat]
    constructor
    · rintro ⟨m, ⟨vs, decoded, rfl⟩, v, one, rfl⟩
      exact ⟨vs ++ [v], ⟨vs, v, rfl, decoded, one⟩, (collected_concat keyOf vs v).symm⟩
    · rintro ⟨_, ⟨vs, v, rfl, decoded, one⟩, rfl⟩
      exact ⟨_, ⟨vs, decoded, rfl⟩, v, one, collected_concat keyOf vs v⟩

end Decoding

end LinkedMap
