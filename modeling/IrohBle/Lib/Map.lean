import Mathlib.Algebra.BigOperators.Group.List.Basic
import Mathlib.Algebra.Order.Group.Multiset
import Mathlib.Data.List.AList
import Mathlib.Data.List.Sort

/-! # Lib.Map: finite maps with an iteration order

A hash map is an association list with distinct keys: the order of its entries
stands for the iteration order, which the code cannot rely on. Updating a value
in place keeps that order, as it does in a hash table, and `reorder` puts the
entries in any other order without changing a lookup. `keepNewest` bounds a map by dropping the
entries of the lowest age. `total` adds up what the values hold, and the lemmas about it say what
an update adds and takes away.
-/

namespace Lib

universe u v w

/-- A finite map from `K` to `V`. -/
abbrev Map (K : Type u) (V : Type v) := AList fun _ : K => V

namespace Map

variable {K : Type u} {V : Type v}

/-- The values, in iteration order. -/
def values (m : Map K V) : List V := m.entries.map Sigma.snd

/-- Keep the entries that satisfy `p`. -/
def retain (p : K → V → Bool) (m : Map K V) : Map K V where
  entries := m.entries.filter fun x => p x.1 x.2
  nodupKeys := List.NodupKeys.sublist List.filter_sublist m.nodupKeys

/-- The first key, in iteration order, whose entry satisfies `p`. -/
def findKey? (p : K → V → Bool) (m : Map K V) : Option K :=
  (m.entries.find? fun x => p x.1 x.2).map Sigma.fst

/-- What the values amount to together. -/
def total {M : Type w} [AddCommMonoid M] (f : V → M) (m : Map K V) : M := (m.values.map f).sum

theorem length_entries (m : Map K V) : m.entries.length = m.keys.length :=
  (List.length_map _).symm

/-- What is kept and what is dropped add up to everything. -/
theorem total_retain {M : Type w} [AddCommMonoid M] (f : V → M) (p : K → V → Bool)
    (m : Map K V) :
    total f (m.retain p) + total f (m.retain fun k v => !p k v) = total f m := by
  unfold total values retain
  rw [← List.sum_append, ← List.map_append, ← List.map_append]
  exact ((List.filter_append_perm _ m.entries).map _ |>.map f).sum_eq

variable [DecidableEq K]

/-- Remove entries of the lowest age until at most `bound` are left, among equals in
iteration order. -/
def keepNewest (age : V → ℕ) (bound : ℕ) (m : Map K V) : Map K V :=
  if m.entries.length ≤ bound then m
  else
    let byAge := (m.entries.map fun x => (x.1, age x.2)).insertionSort fun x y => x.2 ≤ y.2
    (byAge.take (m.entries.length - bound)).foldl (fun m x => AList.erase x.1 m) m

/-- Remove what was stamped more than `ttl` ago, and then what `keepNewest` removes. -/
def prune (stamp age : V → ℕ) (ttl bound now : ℕ) (m : Map K V) : Map K V :=
  (m.retain fun _ v => decide (now - stamp v ≤ ttl)).keepNewest age bound

/-- Put the entries in the order in which `ks` lists the keys. -/
def reorder (ks : List K) (m : Map K V) : Map K V :=
  (ks.filterMap fun k => (m.lookup k).map (Sigma.mk k)).toAList

/-- A lookup after an insertion. -/
theorem lookup_insert_ite (m : Map K V) (k k' : K) (v : V) :
    AList.lookup k' (AList.insert k v m) = if k' = k then some v else AList.lookup k' m := by
  by_cases h : k' = k
  · subst h
    simp
  · rw [if_neg h, AList.lookup_insert_ne h]

/-- A lookup after a removal. -/
theorem lookup_erase_ite (m : Map K V) (k k' : K) :
    AList.lookup k' (AList.erase k m) = if k' = k then none else AList.lookup k' m := by
  by_cases h : k' = k
  · subst h
    simp
  · rw [if_neg h, AList.lookup_erase_ne h]

theorem mem_keys_of_lookup {m : Map K V} {k : K} {v : V} (h : m.lookup k = some v) :
    k ∈ m.keys := by
  rw [← AList.mem_keys, ← AList.lookup_isSome, h]
  rfl

theorem erase_of_lookup_eq_none {m : Map K V} {k : K} (h : m.lookup k = none) :
    AList.erase k m = m := by
  apply AList.ext
  exact List.kerase_of_notMem_keys (AList.lookup_eq_none.mp h)

theorem length_insert_of_lookup_eq_none {m : Map K V} {k : K} (h : m.lookup k = none) (v : V) :
    (AList.insert k v m).entries.length = m.entries.length + 1 := by
  rw [AList.entries_insert_of_notMem (AList.lookup_eq_none.mp h), List.length_cons]

/-- A lookup in a list of entries, from its first. -/
theorem dlookup_cons_ite (a k : K) (b : V) (l : List (Σ _ : K, V)) :
    List.dlookup k (⟨a, b⟩ :: l) = if k = a then some b else l.dlookup k := by
  by_cases h : k = a
  · subst h
    simp
  · rw [if_neg h]
    exact List.dlookup_cons_ne l _ h

theorem kreplace_cons_self (k : K) (v b : V) (l : List (Σ _ : K, V)) :
    List.kreplace k v (⟨k, b⟩ :: l) = ⟨k, v⟩ :: l :=
  List.lookmap_cons_some _ _ (by simp)

theorem kreplace_cons_ne {k a : K} (h : k ≠ a) (v b : V) (l : List (Σ _ : K, V)) :
    List.kreplace k v (⟨a, b⟩ :: l) = ⟨a, b⟩ :: List.kreplace k v l :=
  List.lookmap_cons_none _ _ (by simp [h])

/-- A value that is replaced in place is found under its key, and the others are as before. -/
theorem dlookup_kreplace (k k' : K) (v : V) (l : List (Σ _ : K, V)) :
    (l.kreplace k v).dlookup k' =
      if k' = k then (l.dlookup k).map fun _ => v else l.dlookup k' := by
  induction l with
  | nil => simp [List.kreplace]
  | cons x l ih =>
      rcases x with ⟨a, b⟩
      by_cases hka : k = a
      · subst hka
        simp only [kreplace_cons_self, dlookup_cons_ite]
        split <;> simp
      · simp only [kreplace_cons_ne hka, dlookup_cons_ite, if_neg hka, ih]
        by_cases h : k' = a
        · subst h
          simp [Ne.symm hka]
        · simp [h]

theorem lookup_replace_ite (m : Map K V) (k k' : K) (v : V) :
    AList.lookup k' (AList.replace k v m) =
      if k' = k then (AList.lookup k m).map fun _ => v else AList.lookup k' m :=
  dlookup_kreplace k k' v m.entries

theorem mem_entries_iff (m : Map K V) (k : K) (v : V) :
    (⟨k, v⟩ : Σ _ : K, V) ∈ m.entries ↔ m.lookup k = some v :=
  AList.mem_lookup_iff.symm

theorem mem_values_iff (m : Map K V) (v : V) : v ∈ m.values ↔ ∃ k, m.lookup k = some v := by
  unfold values
  constructor
  · intro h
    rcases List.mem_map.mp h with ⟨⟨k, w⟩, hmem, rfl⟩
    exact ⟨k, (mem_entries_iff m k w).mp hmem⟩
  · rintro ⟨k, hk⟩
    exact List.mem_map.mpr ⟨⟨k, v⟩, (mem_entries_iff m k v).mpr hk, rfl⟩

theorem lookup_retain (p : K → V → Bool) (m : Map K V) (k : K) (v : V) :
    (m.retain p).lookup k = some v ↔ m.lookup k = some v ∧ p k v = true := by
  rw [← mem_entries_iff, ← mem_entries_iff]
  exact List.mem_filter

theorem lookup_retain_filter (p : K → V → Bool) (m : Map K V) (k : K) :
    (m.retain p).lookup k = (m.lookup k).filter (p k) := by
  ext v
  rw [lookup_retain, Option.filter_eq_some_iff]

/-- What a search finds is an entry that satisfies `p`. -/
theorem findKey?_eq_some {p : K → V → Bool} {m : Map K V} {k : K} (h : m.findKey? p = some k) :
    ∃ v, m.lookup k = some v ∧ p k v = true := by
  unfold findKey? at h
  rcases Option.map_eq_some_iff.mp h with ⟨⟨k', v⟩, hfind, rfl⟩
  have hmem := List.mem_of_find?_eq_some hfind
  have hp := List.find?_some hfind
  exact ⟨v, (mem_entries_iff m k' v).mp hmem, hp⟩

/-- If no key is found, every entry fails the test. -/
theorem findKey?_eq_none {p : K → V → Bool} {m : Map K V} (h : m.findKey? p = none) {k : K} {v : V}
    (hk : m.lookup k = some v) : p k v = false := by
  unfold findKey? at h
  have hfind := List.find?_eq_none.mp (Option.map_eq_none_iff.mp h)
  have hv := hfind ⟨k, v⟩ ((mem_entries_iff m k v).mpr hk)
  simpa using hv

/-- What a search finds first is found first after other elements are taken out. -/
theorem find?_of_sublist {α : Type u} {f : α → Bool} {l l' : List α} {x : α} (hnodup : l.Nodup)
    (hsub : l'.Sublist l) (hfind : l.find? f = some x) (hmem : x ∈ l') : l'.find? f = some x := by
  induction hsub with
  | slnil => exact hfind
  | @cons l' l a hsub ih =>
      rw [List.nodup_cons] at hnodup
      rcases List.find?_cons_eq_some.mp hfind with ⟨-, rfl⟩ | ⟨-, hfind⟩
      · exact absurd (hsub.subset hmem) hnodup.1
      · exact ih hnodup.2 hfind hmem
  | @cons_cons l' l a hsub ih =>
      rw [List.nodup_cons] at hnodup
      rcases List.find?_cons_eq_some.mp hfind with ⟨ha, rfl⟩ | ⟨ha, htail⟩
      · exact List.find?_cons_eq_some.mpr (Or.inl ⟨ha, rfl⟩)
      · rcases List.mem_cons.mp hmem with rfl | hmem
        · exact absurd (List.mem_of_find?_eq_some htail) hnodup.1
        · exact List.find?_cons_eq_some.mpr (Or.inr ⟨ha, ih hnodup.2 htail hmem⟩)

/-- The entries picked key by key. -/
theorem dlookup_reorder (m : Map K V) (k : K) (ks : List K) :
    (ks.filterMap fun k => (m.lookup k).map (Sigma.mk k)).dlookup k =
      if k ∈ ks then m.lookup k else none := by
  induction ks with
  | nil => simp
  | cons a ks ih =>
      cases hm : m.lookup a with
      | none =>
          rw [List.filterMap_cons_none (by simp [hm]), ih]
          by_cases h : k = a
          · subst h
            simp [hm]
          · simp [h]
      | some v =>
          rw [List.filterMap_cons_some (b := ⟨a, v⟩) (by simp [hm]), dlookup_cons_ite, ih]
          by_cases h : k = a
          · subst h
            simp [hm]
          · simp [h]

/-- The order of the entries says nothing about lookups. -/
theorem lookup_reorder {ks : List K} {m : Map K V} (hks : ks.Perm m.keys) (k : K) :
    (m.reorder ks).lookup k = m.lookup k := by
  unfold reorder
  rw [AList.lookup_to_alist, dlookup_reorder]
  by_cases h : k ∈ ks
  · rw [if_pos h]
  · rw [if_neg h]
    have hk : k ∉ m := fun hmem => h (hks.mem_iff.mpr (AList.mem_keys.mp hmem))
    exact (AList.lookup_eq_none.mpr hk).symm

/-- Keys that are distinct already lose nothing. -/
theorem dedupKeys_of_nodupKeys {l : List (Σ _ : K, V)} (h : l.NodupKeys) : l.dedupKeys = l := by
  induction l with
  | nil => rfl
  | cons x l ih =>
      rw [List.nodupKeys_cons] at h
      rw [List.dedupKeys_cons, ih h.2, List.kinsert_def, List.kerase_of_notMem_keys h.1]

/-- The keys come in the order that was asked for. -/
theorem keys_reorder {ks : List K} {m : Map K V} (hks : ks.Perm m.keys) :
    (m.reorder ks).keys = ks := by
  have hkeys : (ks.filterMap fun k => (m.lookup k).map (Sigma.mk k)).keys = ks := by
    have hall : ∀ k ∈ ks, (m.lookup k).isSome = true := by
      intro k hk
      rw [AList.lookup_isSome]
      exact AList.mem_keys.mpr (hks.subset hk)
    clear hks
    induction ks with
    | nil => rfl
    | cons k ks ih =>
        obtain ⟨v, hv⟩ := Option.isSome_iff_exists.mp (hall k List.mem_cons_self)
        rw [List.filterMap_cons_some (b := ⟨k, v⟩) (by simp [hv]), List.keys_cons,
          ih fun k' hk' => hall k' (List.mem_cons_of_mem k hk')]
  have hnodup : (ks.filterMap fun k => (m.lookup k).map (Sigma.mk k)).NodupKeys := by
    unfold List.NodupKeys
    rw [hkeys]
    exact hks.nodup_iff.mpr m.keys_nodup
  unfold reorder AList.keys
  rw [AList.entries_toAList, dedupKeys_of_nodupKeys hnodup, hkeys]

/-- A search in an order that begins with an entry that satisfies `p` finds it. -/
theorem findKey?_reorder_cons {p : K → V → Bool} {m : Map K V} {k : K} {v : V} {ks : List K}
    (hks : (k :: ks).Perm m.keys) (hk : m.lookup k = some v) (hp : p k v = true) :
    (m.reorder (k :: ks)).findKey? p = some k := by
  have hkeys := keys_reorder hks
  have hlook := (lookup_reorder hks k).trans hk
  unfold AList.keys at hkeys
  unfold findKey?
  -- the first entry has the key `k`, and with it the value `v`
  cases hes : (m.reorder (k :: ks)).entries with
  | nil =>
      rw [hes] at hkeys
      cases hkeys
  | cons x es =>
      rw [hes, List.keys_cons] at hkeys
      have hx : x.1 = k := (List.cons.inj hkeys).1
      obtain ⟨k', v'⟩ := x
      subst hx
      have hmem : (⟨k', v'⟩ : Σ _ : K, V) ∈ (m.reorder (k' :: ks)).entries := by
        rw [hes]
        exact List.mem_cons_self
      rw [mem_entries_iff, hlook, Option.some.injEq] at hmem
      subst hmem
      rw [List.find?_cons_of_pos (p := fun x : Σ _ : K, V => p x.1 x.2) hp]
      rfl

/-! ## The newest entries -/

section Newest

variable {age : V → ℕ} {bound : ℕ} {m : Map K V} {k k' : K} {v v' : V}

/-- Removing many keys. -/
theorem lookup_foldl_erase (l : List (K × ℕ)) (m : Map K V) (k : K) :
    (l.foldl (fun m x => AList.erase x.1 m) m).lookup k =
      if k ∈ l.map Prod.fst then none else m.lookup k := by
  induction l generalizing m with
  | nil => simp
  | cons x l ih =>
      rw [List.foldl_cons, ih, lookup_erase_ite, List.map_cons]
      grind

/-- The keys with their ages, the lowest first, are cut where the kept ones begin. -/
theorem exists_byAge (age : V → ℕ) (hlen : bound < m.entries.length) :
    ∃ dropped kept : List (K × ℕ),
      (dropped ++ kept).Perm (m.entries.map fun x => (x.1, age x.2)) ∧
        (dropped ++ kept).Pairwise (fun x y => x.2 ≤ y.2) ∧ kept.length = bound ∧
        ∀ k, (m.keepNewest age bound).lookup k =
          if k ∈ dropped.map Prod.fst then none else m.lookup k := by
  let byAge := (m.entries.map fun x => (x.1, age x.2)).insertionSort fun x y => x.2 ≤ y.2
  have hlength : byAge.length = m.entries.length := by
    rw [List.length_insertionSort, List.length_map]
  have : Std.Total fun x y : K × ℕ => x.2 ≤ y.2 := ⟨fun x y => Nat.le_total x.2 y.2⟩
  have : IsTrans (K × ℕ) fun x y => x.2 ≤ y.2 := ⟨fun _ _ _ => Nat.le_trans⟩
  refine ⟨byAge.take (m.entries.length - bound), byAge.drop (m.entries.length - bound), ?_, ?_, ?_,
    ?_⟩
  · rw [List.take_append_drop]
    exact List.perm_insertionSort _ _
  · rw [List.take_append_drop]
    exact List.pairwise_insertionSort _ _
  · rw [List.length_drop, hlength]
    omega
  · intro k
    unfold keepNewest
    rw [if_neg (Nat.not_le.mpr hlen), lookup_foldl_erase]

/-- Sorting by age keeps the entries. -/
theorem mem_byAge {l : List (K × ℕ)} (hperm : l.Perm (m.entries.map fun x => (x.1, age x.2)))
    {a : ℕ} : (k, a) ∈ l ↔ ∃ v, m.lookup k = some v ∧ age v = a := by
  rw [hperm.mem_iff, List.mem_map]
  constructor
  · rintro ⟨⟨k, v⟩, hmem, heq⟩
    obtain ⟨rfl, rfl⟩ := Prod.mk.inj heq
    exact ⟨v, (mem_entries_iff m k v).mp hmem, rfl⟩
  · rintro ⟨v, hk, rfl⟩
    exact ⟨⟨k, v⟩, (mem_entries_iff m k v).mpr hk, rfl⟩

theorem keepNewest_of_le (hlen : m.entries.length ≤ bound) : m.keepNewest age bound = m := by
  rw [keepNewest, if_pos hlen]

theorem lookup_of_keepNewest (h : (m.keepNewest age bound).lookup k = some v) :
    m.lookup k = some v := by
  by_cases hlen : m.entries.length ≤ bound
  · rwa [keepNewest_of_le hlen] at h
  · obtain ⟨dropped, kept, -, -, -, hlook⟩ := exists_byAge age (Nat.lt_of_not_le hlen)
    rw [hlook] at h
    split at h
    · cases h
    · exact h

/-- An entry is dropped only before all that have a higher age. -/
theorem age_le_of_dropped (hk : m.lookup k = some v)
    (hgone : (m.keepNewest age bound).lookup k = none)
    (hkept : (m.keepNewest age bound).lookup k' = some v') : age v ≤ age v' := by
  by_cases hlen : m.entries.length ≤ bound
  · rw [keepNewest_of_le hlen, hk] at hgone
    cases hgone
  · obtain ⟨dropped, kept, hperm, hsorted, -, hlook⟩ := exists_byAge age (Nat.lt_of_not_le hlen)
    rw [hlook] at hgone hkept
    have hdropped : (k, age v) ∈ dropped := by
      split at hgone
      · rename_i hmem
        obtain ⟨⟨k₀, a⟩, hk₀, rfl⟩ := List.mem_map.mp hmem
        obtain ⟨w, hw, rfl⟩ := (mem_byAge hperm).mp (List.mem_append_left kept hk₀)
        rw [Option.some.inj (hk.symm.trans hw)]
        exact hk₀
      · rw [hk] at hgone
        cases hgone
    have hstays : (k', age v') ∈ kept := by
      split at hkept
      · cases hkept
      · rename_i hnot
        refine (List.mem_append.mp ((mem_byAge hperm).mpr ⟨v', hkept, rfl⟩)).resolve_left ?_
        intro hmem
        exact hnot (List.mem_map_of_mem (f := Prod.fst) hmem)
    exact (List.pairwise_append.mp hsorted).2.2 _ hdropped _ hstays

/-- Exactly the excess is dropped. -/
theorem length_keepNewest (age : V → ℕ) (bound : ℕ) (m : Map K V) :
    (m.keepNewest age bound).entries.length = min m.entries.length bound := by
  by_cases hlen : m.entries.length ≤ bound
  · rw [keepNewest_of_le hlen, Nat.min_eq_left hlen]
  · obtain ⟨dropped, kept, hperm, -, hbound, hlook⟩ := exists_byAge age (Nat.lt_of_not_le hlen)
    have hnodup : ((dropped ++ kept).map Prod.fst).Nodup := by
      have hkeys := hperm.map Prod.fst
      rw [List.map_map] at hkeys
      exact hkeys.nodup_iff.mpr m.nodupKeys
    rw [List.map_append, List.nodup_append] at hnodup
    -- what is left has the keys of `kept`
    have hkeys : (m.keepNewest age bound).keys.Perm (kept.map Prod.fst) := by
      rw [List.perm_ext_iff_of_nodup (AList.keys_nodup _) hnodup.2.1]
      intro k
      rw [← AList.mem_keys, ← AList.lookup_isSome, hlook]
      constructor
      · intro hsome
        split at hsome
        · cases hsome
        · rename_i hnot
          obtain ⟨v, hv⟩ := Option.isSome_iff_exists.mp hsome
          have hmem := (mem_byAge hperm).mpr ⟨v, hv, rfl⟩
          refine List.mem_map.mpr ⟨(k, age v), (List.mem_append.mp hmem).resolve_left ?_, rfl⟩
          intro hdropped
          exact hnot (List.mem_map_of_mem (f := Prod.fst) hdropped)
      · intro hmem
        rw [if_neg fun hdropped => hnodup.2.2 k hdropped k hmem rfl]
        obtain ⟨⟨k₀, a⟩, hk₀, rfl⟩ := List.mem_map.mp hmem
        obtain ⟨v, hv, -⟩ := (mem_byAge hperm).mp (List.mem_append_right dropped hk₀)
        exact Option.isSome_iff_exists.mpr ⟨v, hv⟩
    have hlength := hkeys.length_eq
    rw [List.length_map, hbound, AList.keys, List.keys, List.length_map] at hlength
    rw [hlength, Nat.min_eq_right (Nat.le_of_not_le hlen)]

section Prune

variable {stamp age : V → ℕ} {ttl bound now : ℕ} {m : Map K V} {k : K} {v : V}

theorem length_prune : (m.prune stamp age ttl bound now).entries.length =
    min (m.retain fun _ v => decide (now - stamp v ≤ ttl)).entries.length bound :=
  length_keepNewest age bound _

theorem length_prune_le : (m.prune stamp age ttl bound now).entries.length ≤ bound := by
  rw [length_prune]
  exact Nat.min_le_right _ _

theorem lookup_of_prune (h : (m.prune stamp age ttl bound now).lookup k = some v) :
    m.lookup k = some v :=
  ((lookup_retain _ m k v).mp (lookup_of_keepNewest h)).1

/-- What was not there is not there afterwards. -/
theorem prune_of_absent (h : m.lookup k = none) :
    (m.prune stamp age ttl bound now).lookup k = none := by
  cases hk : (m.prune stamp age ttl bound now).lookup k with
  | none => rfl
  | some v =>
      rw [lookup_of_prune hk] at h
      cases h

/-- What has not expired is dropped only if `bound` entries are left, none of a lower age. -/
theorem dropped_by_prune (hk : m.lookup k = some v) (hlive : now - stamp v ≤ ttl)
    (hgone : (m.prune stamp age ttl bound now).lookup k = none) :
    (m.prune stamp age ttl bound now).entries.length = bound ∧
      ∀ k' v', (m.prune stamp age ttl bound now).lookup k' = some v' → age v ≤ age v' := by
  have hretain : (m.retain fun _ v => decide (now - stamp v ≤ ttl)).lookup k = some v :=
    (lookup_retain _ m k v).mpr ⟨hk, decide_eq_true hlive⟩
  constructor
  · rw [length_prune]
    apply Nat.min_eq_right
    by_contra hlen
    have hall : (m.retain fun _ v => decide (now - stamp v ≤ ttl)).keepNewest age bound = _ :=
      keepNewest_of_le (Nat.le_of_not_le hlen)
    rw [prune, hall, hretain] at hgone
    cases hgone
  · intro k' v' hkept
    exact age_le_of_dropped hretain hgone hkept

end Prune

end Newest

/-! ## Totals -/

section Total

variable {M : Type w} [AddCommMonoid M] (f : V → M)

/-- Replacing a value changes the sum by the difference. -/
theorem sum_kreplace {l : List (Σ _ : K, V)} {k : K} {v : V} (h : l.dlookup k = some v) :
    ∃ rest, (l.map fun x => f x.2).sum = f v + rest ∧
      ∀ v', ((l.kreplace k v').map fun x => f x.2).sum = f v' + rest := by
  induction l with
  | nil => cases h
  | cons x l ih =>
      rcases x with ⟨a, b⟩
      rw [dlookup_cons_ite] at h
      by_cases hka : k = a
      · subst hka
        rw [if_pos rfl, Option.some.injEq] at h
        subst h
        refine ⟨(l.map fun x => f x.2).sum, rfl, ?_⟩
        intro v'
        rw [kreplace_cons_self, List.map_cons, List.sum_cons]
      · rw [if_neg hka] at h
        obtain ⟨rest, hsum, hreplace⟩ := ih h
        refine ⟨f b + rest, ?_, ?_⟩
        · rw [List.map_cons, List.sum_cons, hsum, add_left_comm]
        · intro v'
          rw [kreplace_cons_ne hka, List.map_cons, List.sum_cons, hreplace, add_left_comm]

/-- A value is one part of the total, and replacing it leaves the rest. -/
theorem total_replace {m : Map K V} {k : K} {v : V} (h : m.lookup k = some v) :
    ∃ rest, total f m = f v + rest ∧ ∀ v', total f (AList.replace k v' m) = f v' + rest := by
  obtain ⟨rest, hsum, hreplace⟩ := sum_kreplace f h
  refine ⟨rest, ?_, ?_⟩
  · rw [← hsum]
    unfold total values
    rw [List.map_map]
    rfl
  · intro v'
    rw [← hreplace v']
    unfold total values
    rw [List.map_map]
    rfl

/-- A new entry adds its value. -/
theorem total_insert {m : Map K V} {k : K} (h : m.lookup k = none) (v : V) :
    total f (AList.insert k v m) = f v + total f m := by
  have hk : k ∉ m := AList.lookup_eq_none.mp h
  unfold total values
  rw [AList.entries_insert_of_notMem hk, List.map_cons, List.map_cons, List.sum_cons]

end Total

/-- An element of a sum is in one of the summands. -/
theorem mem_sum_map {α : Type w} {f : V → Multiset α} {l : List V} {a : α} :
    a ∈ (l.map f).sum ↔ ∃ v ∈ l, a ∈ f v := by
  induction l with
  | nil => simp
  | cons v l ih => rw [List.map_cons, List.sum_cons, Multiset.mem_add, ih, List.exists_mem_cons_iff]

/-- An element of the total is held by one of the entries. -/
theorem mem_total {α : Type w} {f : V → Multiset α} {m : Map K V} {a : α} :
    a ∈ total f m ↔ ∃ k v, m.lookup k = some v ∧ a ∈ f v := by
  unfold total
  rw [mem_sum_map]
  constructor
  · rintro ⟨v, hv, ha⟩
    obtain ⟨k, hk⟩ := (mem_values_iff m v).mp hv
    exact ⟨k, v, hk, ha⟩
  · rintro ⟨k, v, hk, ha⟩
    exact ⟨v, (mem_values_iff m v).mpr ⟨k, hk⟩, ha⟩

end Map

end Lib
