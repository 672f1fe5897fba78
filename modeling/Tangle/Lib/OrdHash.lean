/-
An insertion-ordered hash: assigning to a key that is present keeps the key's place, a new key goes
to the end, and deleting a key leaves the order of the others. The entries are Mathlib's association
lists without duplicate keys, whose `lookup` and `erase` are used as they stand; what is added is the
assignment that respects the order, its interplay with both, and filtering, of which deletion and
assignment to a key that is present are cases.
-/
import Mathlib.Data.List.AList

/-- A hash that remembers the order in which its keys were first assigned. -/
abbrev OrdHash (κ ν : Type*) := AList fun _ : κ => ν

namespace OrdHash

variable {κ ν μ : Type*} [DecidableEq κ]

omit [DecidableEq κ] in
theorem nodupKeys_append_new {l : List ((_ : κ) × ν)} (hl : l.NodupKeys) {k : κ} (hk : k ∉ l.keys) (v : ν) :
    (l ++ [(⟨k, v⟩ : (_ : κ) × ν)]).NodupKeys := by
  unfold List.NodupKeys at *
  rw [List.keys_append]
  refine List.nodup_append.2 ⟨hl, by simp, fun a ha b hb => ?_⟩
  simp only [List.keys_cons, List.keys_nil, List.mem_singleton] at hb
  rintro rfl; exact hk (hb ▸ ha)

/-- `h[k] = v`. -/
def set (k : κ) (v : ν) (h : OrdHash κ ν) : OrdHash κ ν :=
  if hk : k ∈ h then h.replace k v
  else ⟨h.entries ++ [⟨k, v⟩], nodupKeys_append_new h.nodupKeys hk v⟩

/-- The values, oldest key first. -/
def values (h : OrdHash κ ν) : List ν := h.entries.map Sigma.snd

/-- Rewrites the value under `k`, when there is one. -/
def update (k : κ) (f : ν → ν) (h : OrdHash κ ν) : OrdHash κ ν :=
  match h.lookup k with
  | none => h
  | some v => set k (f v) h

/-! ## Lookup after an assignment -/

theorem dlookup_cons (k k' : κ) (v : ν) (l : List ((_ : κ) × ν)) :
    List.dlookup k' (⟨k, v⟩ :: l) = if k' = k then some v else l.dlookup k' := by
  split
  · rename_i hk; subst hk; exact List.dlookup_cons_eq l k' v
  · rename_i hk; exact List.dlookup_cons_ne l ⟨k, v⟩ hk

theorem kreplace_cons (k j : κ) (v w : ν) (l : List ((_ : κ) × ν)) :
    List.kreplace k v (⟨j, w⟩ :: l) = if k = j then ⟨k, v⟩ :: l else ⟨j, w⟩ :: List.kreplace k v l := by
  unfold List.kreplace
  rw [List.lookmap_cons]
  by_cases hj : k = j <;> simp [hj]

theorem dlookup_kreplace (k : κ) (v : ν) : ∀ l : List ((_ : κ) × ν), k ∈ l.keys →
    (List.kreplace k v l).dlookup k = some v
  | [], h => by simp at h
  | ⟨j, w⟩ :: l, h => by
    rw [kreplace_cons]
    split
    · simp
    · rename_i hj
      rw [dlookup_cons, if_neg hj]
      exact dlookup_kreplace k v l (by simpa [hj] using h)

theorem dlookup_kreplace_ne {k k' : κ} (v : ν) (hk : k' ≠ k) : ∀ l : List ((_ : κ) × ν),
    (List.kreplace k v l).dlookup k' = l.dlookup k'
  | [] => rfl
  | ⟨j, w⟩ :: l => by
    rw [kreplace_cons]
    split
    · rename_i hj; subst hj
      rw [dlookup_cons, dlookup_cons, if_neg hk, if_neg hk]
    · rw [dlookup_cons, dlookup_cons, dlookup_kreplace_ne v hk l]

@[simp] theorem lookup_set_self (k : κ) (v : ν) (h : OrdHash κ ν) : (set k v h).lookup k = some v := by
  unfold set
  split
  · rename_i hk; exact dlookup_kreplace k v _ hk
  · rename_i hk
    have hk' : h.entries.dlookup k = none := List.dlookup_eq_none.2 hk
    simp [AList.lookup, List.dlookup_append, hk']

theorem lookup_set_ne {k k' : κ} (v : ν) (h : OrdHash κ ν) (hk : k' ≠ k) : (set k v h).lookup k' = h.lookup k' := by
  unfold set
  split
  · exact dlookup_kreplace_ne v hk _
  · simp [AList.lookup, List.dlookup_append, hk]

theorem lookup_set (k k' : κ) (v : ν) (h : OrdHash κ ν) :
    (set k v h).lookup k' = if k' = k then some v else h.lookup k' := by
  split
  · rename_i hk; subst hk; exact lookup_set_self _ v h
  · rename_i hk; exact lookup_set_ne v h hk

theorem lookup_erase (k k' : κ) (h : OrdHash κ ν) :
    AList.lookup k' (h.erase k) = if k' = k then none else h.lookup k' := by
  split
  · rename_i hk; subst hk; exact AList.lookup_erase _ h
  · rename_i hk; exact AList.lookup_erase_ne hk

theorem lookup_update (k k' : κ) (f : ν → ν) (h : OrdHash κ ν) :
    (update k f h).lookup k' = if k' = k then (h.lookup k).map f else h.lookup k' := by
  unfold update
  cases hk : h.lookup k with
  | none =>
    show h.lookup k' = _
    split
    · rename_i hk'; rw [hk', hk]; rfl
    · rfl
  | some v => exact lookup_set k k' (f v) h

/-- Deletes the keys, one after the other. -/
def eraseAll (ks : List κ) (h : OrdHash κ ν) : OrdHash κ ν := ks.foldl (fun h k => h.erase k) h

theorem eraseAll_append (ks ks' : List κ) (h : OrdHash κ ν) : eraseAll (ks ++ ks') h = eraseAll ks' (eraseAll ks h) :=
  List.foldl_append ..

theorem lookup_eraseAll (k : κ) : ∀ (ks : List κ) (h : OrdHash κ ν),
    (eraseAll ks h).lookup k = if k ∈ ks then none else h.lookup k
  | [], h => rfl
  | j :: ks, h => by
    show (eraseAll ks (h.erase j)).lookup k = _
    rw [lookup_eraseAll k ks]
    by_cases hk : k ∈ ks
    · simp [hk]
    · by_cases hj : k = j
      · subst hj; simp
      · simp [hk, hj, AList.lookup_erase_ne hj]

/-! ## Entries -/

theorem mem_entries {h : OrdHash κ ν} {k : κ} {v : ν} : (⟨k, v⟩ : (_ : κ) × ν) ∈ h.entries ↔ h.lookup k = some v :=
  AList.mem_lookup_iff.symm

theorem mem_values {h : OrdHash κ ν} {k : κ} {v : ν} (hk : h.lookup k = some v) : v ∈ h.values :=
  List.mem_map.2 ⟨⟨k, v⟩, mem_entries.2 hk, rfl⟩

theorem lookup_of_mem_values {h : OrdHash κ ν} {v : ν} (hv : v ∈ h.values) : ∃ k, h.lookup k = some v := by
  obtain ⟨⟨k, _⟩, hm, rfl⟩ := List.mem_map.1 hv
  exact ⟨k, mem_entries.1 hm⟩

theorem entries_eq_nil {h : OrdHash κ ν} : h.entries = [] ↔ ∀ k, h.lookup k = none := by
  constructor
  · intro he k; simp [AList.lookup, he]
  · intro hn
    cases he : h.entries with
    | nil => rfl
    | cons e es =>
      have : (⟨e.1, e.2⟩ : (_ : κ) × ν) ∈ h.entries := by rw [he]; exact List.mem_cons_self ..
      rw [mem_entries, hn] at this
      cases this

theorem set_ne_nil (k : κ) (v : ν) (h : OrdHash κ ν) : (set k v h).entries ≠ [] := fun he => by
  have := entries_eq_nil.1 he k
  simp at this

/-! ## Filtering -/

theorem entries_ext : ∀ {l l' : List ((_ : κ) × ν)}, l.NodupKeys → l.keys = l'.keys →
    (∀ k, l.dlookup k = l'.dlookup k) → l = l'
  | [], [], _, _, _ => rfl
  | [], e :: l', _, hk, _ => by simp at hk
  | e :: l, [], _, hk, _ => by simp at hk
  | ⟨k, v⟩ :: l, ⟨k', v'⟩ :: l', hn, hk, hl => by
    simp only [List.keys_cons, List.cons.injEq] at hk
    obtain ⟨rfl, hk⟩ := hk
    have hv : some v = some v' := by simpa [dlookup_cons] using hl k
    cases hv
    have hn := List.nodupKeys_cons.1 hn
    have htail : l = l' := by
      refine entries_ext hn.2 hk fun j => ?_
      by_cases hj : j = k
      · subst hj
        rw [List.dlookup_eq_none.2 hn.1, List.dlookup_eq_none.2 (hk ▸ hn.1)]
      · have := hl j
        rwa [dlookup_cons, dlookup_cons, if_neg hj, if_neg hj] at this
    rw [htail]

/-- Hashes with the same keys, in the same order, and the same values are the same. -/
theorem ext_lookup {h h' : OrdHash κ ν} (hk : h.keys = h'.keys) (hl : ∀ k, h.lookup k = h'.lookup k) : h = h' :=
  AList.ext (entries_ext h.nodupKeys hk hl)

omit [DecidableEq κ] in
theorem nodupKeys_filterMap {f : ν → Option μ} {l : List ((_ : κ) × ν)} (h : l.NodupKeys) :
    (l.filterMap fun e => (f e.2).map fun w => (⟨e.1, w⟩ : (_ : κ) × μ)).NodupKeys := by
  refine List.Nodup.sublist ?_ h
  induction l with
  | nil => simp [List.keys]
  | cons e l ih =>
    have ih := ih (List.nodupKeys_cons.1 h).2
    rw [List.filterMap_cons]
    cases f e.2 with
    | none => simpa using ih.cons e.1
    | some w => simpa using ih

/-- Rewrites the values, dropping the keys for which there is none. -/
def filterMap (f : ν → Option μ) (h : OrdHash κ ν) : OrdHash κ μ :=
  ⟨h.entries.filterMap fun e => (f e.2).map fun w => ⟨e.1, w⟩, nodupKeys_filterMap h.nodupKeys⟩

theorem lookup_filterMap (f : ν → Option μ) (h : OrdHash κ ν) (k : κ) :
    (filterMap f h).lookup k = (h.lookup k).bind f := by
  have hw : ∀ w, (filterMap f h).lookup k = some w ↔ (h.lookup k).bind f = some w := by
    intro w
    rw [← mem_entries, Option.bind_eq_some_iff]
    simp only [filterMap, List.mem_filterMap, Option.map_eq_some_iff]
    constructor
    · rintro ⟨⟨j, v⟩, hm, w', hw', he⟩
      cases he
      exact ⟨v, mem_entries.1 hm, hw'⟩
    · rintro ⟨v, hv, hfv⟩
      exact ⟨⟨k, v⟩, mem_entries.2 hv, w, hfv, rfl⟩
  exact Option.ext hw

omit [DecidableEq κ] in
theorem filterMap_filterMap {ξ : Type*} (f : ν → Option μ) (g : μ → Option ξ) (h : OrdHash κ ν) :
    filterMap g (filterMap f h) = filterMap (fun v => (f v).bind g) h := by
  apply AList.ext
  simp only [filterMap, List.filterMap_filterMap]
  congr 1
  funext e
  cases f e.2 <;> rfl

theorem filterMap_congr {f g : ν → Option μ} {h : OrdHash κ ν} (hfg : ∀ k v, h.lookup k = some v → f v = g v) :
    filterMap f h = filterMap g h := by
  apply AList.ext
  simp only [filterMap]
  refine List.filterMap_congr fun e he => ?_
  rw [hfg e.1 e.2 (mem_entries.1 he)]

omit [DecidableEq κ] in
theorem filterMap_some (h : OrdHash κ ν) : filterMap some h = h := by
  apply AList.ext
  simp [filterMap]

theorem keys_filterMap (f : ν → Option μ) (h : OrdHash κ ν) :
    (filterMap f h).keys = h.keys.filter fun k => ((h.lookup k).bind f).isSome := by
  have hkeys : ∀ l : List ((_ : κ) × ν), (l.filterMap fun e => (f e.2).map fun w => (⟨e.1, w⟩ : (_ : κ) × μ)).keys =
      (l.filter fun e => (f e.2).isSome).keys := by
    intro l
    induction l with
    | nil => rfl
    | cons e l ih => cases hf : f e.2 <;> simp [hf, ih]
  show List.keys (List.filterMap _ h.entries) = List.filter _ (List.map Sigma.fst h.entries)
  rw [hkeys, List.filter_map]
  refine congrArg (List.map Sigma.fst) (List.filter_congr fun e he => ?_)
  rw [Function.comp_apply, mem_entries.1 (show (⟨e.1, e.2⟩ : (_ : κ) × ν) ∈ h.entries from he)]
  rfl

theorem keys_set_of_lookup {h : OrdHash κ ν} {k : κ} {w : ν} (hk : h.lookup k = some w) (v : ν) :
    (set k v h).keys = h.keys := by
  have hm : k ∈ h := by rw [← AList.lookup_isSome, hk]; rfl
  unfold set
  rw [dif_pos hm, AList.keys_replace]

/-- Deleting a key is dropping its value. -/
theorem erase_eq_filterMap {f : ν → Option ν} {h : OrdHash κ ν} {k : κ} (hk : ∀ v, h.lookup k = some v → f v = none)
    (hne : ∀ j v, j ≠ k → h.lookup j = some v → f v = some v) : (h.erase k : OrdHash κ ν) = filterMap f h := by
  have hlk : ∀ j, AList.lookup j (h.erase k) = (filterMap f h).lookup j := by
    intro j
    rw [lookup_erase, lookup_filterMap]
    cases hj : h.lookup j with
    | none => simp
    | some v =>
      rw [Option.bind_some]
      split
      · rename_i he; subst he; exact (hk v hj).symm
      · rename_i he; exact (hne j v he hj).symm
  refine ext_lookup ?_ hlk
  rw [AList.keys_erase, keys_filterMap, h.keys_nodup.erase_eq_filter]
  refine List.filter_congr fun j hj => ?_
  rw [← lookup_filterMap, ← hlk, lookup_erase]
  split
  · rename_i he; simp [he]
  · rename_i he
    rw [AList.lookup_isSome.2 hj]
    simpa using he

/-- Assigning to a key that is present is rewriting its value. -/
theorem set_eq_filterMap {f : ν → Option ν} {h : OrdHash κ ν} {k : κ} {v w : ν} (hk : h.lookup k = some w)
    (hf : f w = some v) (hne : ∀ j u, j ≠ k → h.lookup j = some u → f u = some u) : set k v h = filterMap f h := by
  have hlk : ∀ j, (set k v h).lookup j = (filterMap f h).lookup j := by
    intro j
    rw [lookup_set, lookup_filterMap]
    split
    · rename_i he; subst he; rw [hk]; exact hf.symm
    · rename_i he
      cases hj : h.lookup j with
      | none => rfl
      | some u => exact (hne j u he hj).symm
  refine ext_lookup ?_ hlk
  rw [keys_set_of_lookup hk, keys_filterMap]
  symm
  refine List.filter_eq_self.2 fun j hj => ?_
  rw [← lookup_filterMap, ← hlk, lookup_set]
  split
  · rfl
  · exact AList.lookup_isSome.2 hj

end OrdHash
