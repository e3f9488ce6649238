import SeminarTouhou.Library.System

namespace Library

abbrev Dict (κ α : Type*) := AList (fun _ : κ => α)

namespace Dict

variable {κ α β : Type*}

def count (d : Dict κ α) : ℕ := d.keys.length

def mapValues (f : κ → α → β) (d : Dict κ α) : Dict κ β :=
  ⟨d.entries.map (fun e => ⟨e.1, f e.1 e.2⟩), by
    simpa only [List.NodupKeys, List.keys, List.map_map, Function.comp_def] using d.nodupKeys⟩

@[simp] theorem keys_mapValues (f : κ → α → β) (d : Dict κ α) : (mapValues f d).keys = d.keys := by
  simp only [mapValues, AList.keys, List.keys, List.map_map, Function.comp_def]

@[simp] theorem mem_mapValues (f : κ → α → β) (d : Dict κ α) (k : κ) :
    k ∈ mapValues f d ↔ k ∈ d := by
  simp only [AList.mem_keys, keys_mapValues]

variable [DecidableEq κ]

@[simp] theorem lookup_mapValues (f : κ → α → β) (d : Dict κ α) (k : κ) :
    (mapValues f d).lookup k = (d.lookup k).map (f k) := by
  obtain ⟨entries, hn⟩ := d
  simp only [AList.lookup, mapValues]
  clear hn
  induction entries with
  | nil => rfl
  | cons e entries ih =>
    obtain ⟨j, v⟩ := e
    by_cases hk : k = j
    · subst hk; simp
    · simp [hk, ih]

theorem mem_of_lookup {d : Dict κ α} {k : κ} {v : α} (h : d.lookup k = some v) : k ∈ d :=
  AList.lookup_isSome.mp (by simp [h])

theorem exists_lookup {d : Dict κ α} {k : κ} (h : k ∈ d) : ∃ v, d.lookup k = some v :=
  Option.isSome_iff_exists.mp (AList.lookup_isSome.mpr h)

theorem mem_congr {d e : Dict κ α} {k : κ} (h : d.lookup k = e.lookup k) : k ∈ d ↔ k ∈ e := by
  rw [← AList.lookup_isSome, ← AList.lookup_isSome, h]

def Every (P : α → Prop) (d : Dict κ α) : Prop := ∀ k v, d.lookup k = some v → P v

variable {P : α → Prop} {d : Dict κ α}

theorem Every.insert (h : d.Every P) {k : κ} {v : α} (hv : P v) : Every P (d.insert k v) := by
  intro j w hw
  by_cases hj : j = k
  · subst hj
    rw [AList.lookup_insert, Option.some.injEq] at hw
    exact hw ▸ hv
  · rw [AList.lookup_insert_ne hj] at hw
    exact h j w hw

theorem Every.erase (h : d.Every P) (k : κ) : Every P (d.erase k) := by
  intro j w hw
  by_cases hj : j = k
  · subst hj
    simp at hw
  · rw [AList.lookup_erase_ne hj] at hw
    exact h j w hw

theorem Every.mapValues {Q : β → Prop} {f : κ → α → β}
    (hf : ∀ k v, d.lookup k = some v → Q (f k v)) : Every Q (mapValues f d) := by
  intro k w hw
  rw [lookup_mapValues, Option.map_eq_some_iff] at hw
  obtain ⟨v, hv, rfl⟩ := hw
  exact hf k v hv

theorem count_insert (d : Dict κ α) (k : κ) (v : α) :
    count (d.insert k v) = if k ∈ d then count d else count d + 1 := by
  simp only [count, AList.keys_insert, List.length_cons]
  split_ifs with h
  · rw [List.length_erase_of_mem (AList.mem_keys.mp h)]
    have := List.length_pos_of_mem (AList.mem_keys.mp h)
    omega
  · rw [List.erase_of_not_mem (fun hk => h (AList.mem_keys.mpr hk))]

theorem count_eq_iff {d : Dict κ α} {e : Dict κ β} (h : ∀ k ∈ e, k ∈ d) :
    count d = count e ↔ ∀ k ∈ d, k ∈ e := by
  have hsub : e.keys.toFinset ⊆ d.keys.toFinset := by
    intro k hk
    exact List.mem_toFinset.mpr (h k (List.mem_toFinset.mp hk))
  have hd : d.keys.toFinset.card = count d := List.toFinset_card_of_nodup d.keys_nodup
  have he : e.keys.toFinset.card = count e := List.toFinset_card_of_nodup e.keys_nodup
  constructor
  · intro hc k hk
    have heq := Finset.eq_of_subset_of_card_le hsub (by rw [hd, he, hc])
    have hmem : k ∈ d.keys.toFinset := List.mem_toFinset.mpr (AList.mem_keys.mp hk)
    rw [← heq] at hmem
    exact AList.mem_keys.mpr (List.mem_toFinset.mp hmem)
  · intro hall
    have heq : e.keys.toFinset = d.keys.toFinset := by
      apply Finset.Subset.antisymm hsub
      intro k hk
      exact List.mem_toFinset.mpr (hall k (List.mem_toFinset.mp hk))
    rw [← hd, ← he, heq]

/-- Every entry of `d` is one of `e`. -/
def ExtendedBy (d e : Dict κ α) : Prop := ∀ k v, d.lookup k = some v → e.lookup k = some v

theorem ExtendedBy.refl (d : Dict κ α) : d.ExtendedBy d := fun _ _ h => h

theorem ExtendedBy.trans {d e f : Dict κ α} (hd : d.ExtendedBy e) (he : e.ExtendedBy f) :
    d.ExtendedBy f := fun k v h => he k v (hd k v h)

theorem extendedBy_insert {d : Dict κ α} {k : κ} (hk : k ∉ d) (v : α) : d.ExtendedBy (d.insert k v) := by
  intro j w hw
  have hj : j ≠ k := by
    rintro rfl
    exact hk (mem_of_lookup hw)
  rwa [AList.lookup_insert_ne hj]

end Dict

end Library
