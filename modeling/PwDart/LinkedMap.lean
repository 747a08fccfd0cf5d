import Mathlib.Data.List.AList

/-- A map that is visited in the order its keys were first written, as Dart's default `Map`. -/
abbrev LinkedMap (κ ν : Type*) : Type _ := AList fun _ : κ => ν

namespace LinkedMap

variable {κ ν : Type*} [DecidableEq κ]

/-- `m[k] = v`: a present key keeps its place, a new one goes to the end. -/
def put (m : LinkedMap κ ν) (k : κ) (v : ν) : LinkedMap κ ν :=
  if h : k ∈ m then m.replace k v
  else ⟨m.entries ++ [⟨k, v⟩], by
    have absent : k ∉ m.entries.keys := h
    rw [List.NodupKeys, List.keys, List.map_append, List.nodup_append]
    refine ⟨m.nodupKeys, by simp, ?_⟩
    intro a ha b hb hab
    have hbk : b = k := by simpa using hb
    exact absent (hbk ▸ hab ▸ ha)⟩

/-- `{for each entry: m[k] = v}` on an empty map. -/
def ofEntries (entries : List (κ × ν)) : LinkedMap κ ν :=
  entries.foldl (fun m entry => put m entry.1 entry.2) ∅

theorem dlookup_kreplace (k a : κ) (v : ν) (l : List (Σ _ : κ, ν)) (h : k ∈ l.keys) :
    (List.kreplace k v l).dlookup a = if a = k then some v else l.dlookup a := by
  induction l with
  | nil => simp at h
  | cons entry l ih =>
    obtain ⟨b, w⟩ := entry
    by_cases hb : k = b
    · subst hb
      have head : List.kreplace k v (⟨k, w⟩ :: l) = (⟨k, v⟩ : Σ _ : κ, ν) :: l :=
        List.lookmap_cons_some _ _ (by simp)
      rw [head]
      by_cases ha : a = k
      · subst ha
        rw [List.dlookup_cons_eq, if_pos rfl]
      · rw [List.dlookup_cons_ne _ _ ha, List.dlookup_cons_ne _ _ ha, if_neg ha]
    · have skip : List.kreplace k v (⟨b, w⟩ :: l) = (⟨b, w⟩ : Σ _ : κ, ν) :: List.kreplace k v l :=
        List.lookmap_cons_none _ _ (by simp [hb])
      have later : k ∈ l.keys := by
        simpa [hb] using h
      rw [skip]
      by_cases ha : a = b
      · subst ha
        rw [List.dlookup_cons_eq, List.dlookup_cons_eq, if_neg (Ne.symm hb)]
      · rw [List.dlookup_cons_ne _ _ ha, List.dlookup_cons_ne _ _ ha, ih later]

theorem lookup_put (m : LinkedMap κ ν) (k a : κ) (v : ν) :
    (put m k v).lookup a = if a = k then some v else m.lookup a := by
  unfold put
  split
  next h => exact dlookup_kreplace k a v m.entries h
  next h =>
    change (m.entries ++ [(⟨k, v⟩ : Σ _ : κ, ν)]).dlookup a = _
    rw [List.dlookup_append]
    by_cases ha : a = k
    · subst ha
      have none : m.entries.dlookup a = none := List.dlookup_eq_none.mpr h
      simp [none]
    · have single : [(⟨k, v⟩ : Σ _ : κ, ν)].dlookup a = none := by
        rw [List.dlookup_cons_ne _ _ ha, List.dlookup_nil]
      rw [single, Option.or_none, if_neg ha]
      rfl

theorem lookup_erase (m : LinkedMap κ ν) (k a : κ) :
    (m.erase k).lookup a = if a = k then none else m.lookup a := by
  split
  next h => rw [h, AList.lookup_erase]
  next h => exact AList.lookup_erase_ne h

theorem lookup_foldl_put_of_notMem {entries : List (κ × ν)} {k : κ}
    (absent : k ∉ entries.map Prod.fst) (m : LinkedMap κ ν) :
    (entries.foldl (fun m entry => put m entry.1 entry.2) m).lookup k = m.lookup k := by
  induction entries generalizing m with
  | nil => rfl
  | cons entry entries ih =>
    simp only [List.map_cons, List.mem_cons, not_or] at absent
    rw [List.foldl_cons, ih absent.2, lookup_put, if_neg absent.1]

theorem lookup_ofEntries_of_notMem {entries : List (κ × ν)} {k : κ}
    (absent : k ∉ entries.map Prod.fst) : (ofEntries entries).lookup k = none :=
  lookup_foldl_put_of_notMem absent ∅

theorem lookup_ofEntries_of_mem {entries : List (κ × ν)} {k : κ} {v : ν}
    (distinct : (entries.map Prod.fst).Nodup) (h : (k, v) ∈ entries) :
    (ofEntries entries).lookup k = some v := by
  obtain ⟨before, after, split⟩ := List.append_of_mem h
  subst split
  simp only [List.map_append, List.map_cons, List.nodup_append, List.nodup_cons] at distinct
  rw [ofEntries, List.foldl_append, List.foldl_cons,
    lookup_foldl_put_of_notMem distinct.2.1.1, lookup_put, if_pos rfl]

def values (m : LinkedMap κ ν) : List ν := m.entries.map Sigma.snd

theorem entries_put_of_notMem {m : LinkedMap κ ν} {k : κ} (absent : k ∉ m) (v : ν) :
    (put m k v).entries = m.entries ++ [⟨k, v⟩] := by
  rw [put, dif_neg absent]

/-- Entries with new keys are added at the end, in their order. -/
theorem entries_foldl_put {m : LinkedMap κ ν} {entries : List (Σ _ : κ, ν)}
    (fresh : (m.entries ++ entries).NodupKeys) :
    (entries.foldl (fun m entry => put m entry.1 entry.2) m).entries = m.entries ++ entries := by
  induction entries generalizing m with
  | nil => simp
  | cons entry entries ih =>
    have absent : entry.1 ∉ m := by
      intro mem
      have keys : (m.entries.keys ++ entry.1 :: entries.keys).Nodup := by
        simpa [List.NodupKeys, List.keys] using fresh
      exact (List.nodup_append.mp keys).2.2 entry.1 mem entry.1 List.mem_cons_self rfl
    have added := entries_put_of_notMem absent entry.2
    rw [List.foldl_cons, ih (by simpa [added] using fresh), added]
    simp

theorem foldl_put_entries (m : LinkedMap κ ν) :
    m.entries.foldl (fun m entry => put m entry.1 entry.2) ∅ = m := by
  apply AList.ext
  simpa using entries_foldl_put (m := ∅) (by simpa using m.nodupKeys)

/-- A map is what its entries make, their order included. -/
theorem ofEntries_entries (m : LinkedMap κ ν) : ofEntries (m.entries.map fun entry => (entry.1, entry.2)) = m := by
  rw [ofEntries, List.foldl_map]
  exact foldl_put_entries m

/-- Every value stands under its own key. -/
def KeyedBy (keyOf : ν → κ) (m : LinkedMap κ ν) : Prop := ∀ k v, m.lookup k = some v → keyOf v = k

theorem keyedBy_empty (keyOf : ν → κ) : KeyedBy keyOf (∅ : LinkedMap κ ν) := by
  intro k v found
  simp at found

theorem KeyedBy.put {keyOf : ν → κ} {m : LinkedMap κ ν} (keyed : KeyedBy keyOf m) (v : ν) :
    KeyedBy keyOf (LinkedMap.put m (keyOf v) v) := by
  intro k w found
  rw [lookup_put] at found
  split at found
  next here =>
    cases found
    exact here.symm
  next => exact keyed k w found

theorem KeyedBy.erase {keyOf : ν → κ} {m : LinkedMap κ ν} (keyed : KeyedBy keyOf m) (k : κ) :
    KeyedBy keyOf (m.erase k) := by
  intro j w found
  rw [lookup_erase] at found
  split at found
  next => cases found
  next => exact keyed j w found

theorem KeyedBy.keyOf_entry {keyOf : ν → κ} {m : LinkedMap κ ν} (keyed : KeyedBy keyOf m)
    {entry : Σ _ : κ, ν} (mem : entry ∈ m.entries) : keyOf entry.2 = entry.1 :=
  keyed entry.1 entry.2 (AList.mem_lookup_iff.mpr mem)

/-- A keyed map is what its values make under their keys. -/
theorem KeyedBy.ofEntries_values {keyOf : ν → κ} {m : LinkedMap κ ν} (keyed : KeyedBy keyOf m) :
    ofEntries (m.values.map fun v => (keyOf v, v)) = m := by
  have same : (m.values.map fun v => (keyOf v, v)) = m.entries.map fun entry => (entry.1, entry.2) := by
    rw [values, List.map_map]
    apply List.map_congr_left
    intro entry mem
    have own := keyed.keyOf_entry mem
    simp [own]
  rw [same, ofEntries_entries]

theorem KeyedBy.mem_values {keyOf : ν → κ} {m : LinkedMap κ ν} (keyed : KeyedBy keyOf m) {v : ν} :
    v ∈ m.values ↔ m.lookup (keyOf v) = some v := by
  constructor
  · intro mem
    obtain ⟨entry, here, rfl⟩ := List.mem_map.mp mem
    rw [keyed.keyOf_entry here]
    exact AList.mem_lookup_iff.mpr here
  · intro found
    exact List.mem_map.mpr ⟨⟨keyOf v, v⟩, AList.mem_lookup_iff.mp found, rfl⟩

theorem KeyedBy.nodup_values {keyOf : ν → κ} {m : LinkedMap κ ν} (keyed : KeyedBy keyOf m) :
    (m.values.map keyOf).Nodup := by
  have same : m.values.map keyOf = m.entries.keys := by
    rw [values, List.map_map]
    apply List.map_congr_left
    intro entry mem
    exact keyed.keyOf_entry mem
  rw [same]
  exact m.nodupKeys

end LinkedMap
