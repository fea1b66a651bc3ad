import Mathlib.Data.Finmap
import Mathlib.Data.Multiset.Filter
import Mathlib.Tactic.SplitIfs

/-!
# Finite maps, and reading them through layers

A finite map forgets the order of its entries, so a loop over it is a statement about a
multiset. Maps are stacked in layers: a layered lookup takes the first layer that holds the key,
and flattening the layers by left-biased union gives the map of all layered lookups.

## Main definitions

* `Map K V`: finite maps from `K` to `V`
* `Map.filter`, `Map.collect`, `Map.extend`: the entries passing a test, the graph of a partial
  function over a finite set of keys, and the map overwritten by another
* `layered ms k`, `flatten ms`: the first layer's value for a key, and the union of the layers
* `Enumerates l m`: the list `l` is the map `m` in some order of iteration

## Main results

* `lookup_flatten`: flattening is the map of layered lookups
* `Enumerates.perm`: two enumerations of one map are permutations of each other
-/

namespace Overlay

variable {K V : Type} [DecidableEq K]

/-- A finite map: its entries, in no order. -/
abbrev Map (K V : Type) := Finmap fun _ : K => V

namespace Map

theorem lookup_union (m n : Map K V) (k : K) :
    (m ∪ n).lookup k = (m.lookup k).or (n.lookup k) := by
  by_cases hk : k ∈ m
  · obtain ⟨v, hv⟩ := Finmap.mem_iff.mp hk
    rw [Finmap.lookup_union_left hk, hv, Option.some_or]
  · rw [Finmap.lookup_union_right hk, Finmap.lookup_eq_none.mpr hk, Option.none_or]

/-- The entries of `m` passing the test `p`. -/
def filter (p : K → V → Bool) (m : Map K V) : Map K V where
  entries := m.entries.filter fun e => p e.1 e.2
  nodupKeys := Multiset.nodup_keys.mp <|
    Multiset.nodup_of_le (Multiset.map_le_map (Multiset.filter_le _ _))
      (Multiset.nodup_keys.mpr m.nodupKeys)

theorem lookup_filter (p : K → V → Bool) (m : Map K V) (k : K) :
    (m.filter p).lookup k = (m.lookup k).filter (p k) := by
  ext v
  rw [Finmap.lookup_eq_some_iff, Option.filter_eq_some_iff, Finmap.lookup_eq_some_iff]
  simp [filter]

/-- The graph of `f` over the keys `ks`. -/
def collect (ks : Finset K) (f : K → Option V) : Map K V where
  entries := ks.val.filterMap fun k => (f k).map fun v => ⟨k, v⟩
  nodupKeys := by
    apply Multiset.nodup_keys.mp
    rw [Multiset.keys, Multiset.map_filterMap]
    -- every entry keeps the key it was collected under, so distinct keys stay distinct
    refine ks.nodup.filterMap _ fun a a' b hb hb' => ?_
    cases ha : f a <;> cases ha' : f a' <;> simp_all

theorem lookup_collect (ks : Finset K) (f : K → Option V) (k : K) :
    (collect ks f).lookup k = if k ∈ ks then f k else none := by
  ext v
  rw [Finmap.lookup_eq_some_iff]
  simp only [collect, Multiset.mem_filterMap, Finset.mem_val, Option.map_eq_some_iff]
  constructor
  · rintro ⟨k', hk', v', hv', he⟩
    cases he
    rw [if_pos hk', hv']
  · intro h
    by_cases hk : k ∈ ks
    · rw [if_pos hk] at h
      exact ⟨k, hk, v, h, rfl⟩
    · rw [if_neg hk] at h
      cases h

/-- Copying a map key by key. -/
theorem collect_keys (m : Map K V) : collect m.keys (fun k => m.lookup k) = m := by
  apply Finmap.ext_lookup
  intro k
  rw [lookup_collect]
  split_ifs with hk
  · rfl
  · rw [Finmap.mem_keys] at hk
    exact (Finmap.lookup_eq_none.mpr hk).symm

/-- The map `m` overwritten by the entries of `n`. -/
def extend (m n : Map K V) : Map K V := n ∪ m

theorem lookup_extend (m n : Map K V) (k : K) :
    (m.extend n).lookup k = (n.lookup k).or (m.lookup k) :=
  lookup_union n m k

theorem lookup_insert_eq (m : Map K V) (k : K) (v : V) (k' : K) :
    (m.insert k v).lookup k' = if k' = k then some v else m.lookup k' := by
  by_cases h : k' = k
  · subst h
    rw [if_pos rfl, Finmap.lookup_insert]
  · rw [if_neg h, Finmap.lookup_insert_of_ne _ h]

end Map

/-! ## Layers -/

section Layers

/-- The value of `k` in the first layer that holds it. -/
def layered (ms : List (Map K V)) (k : K) : Option V :=
  ms.findSome? fun m => m.lookup k

/-- The layers merged into one map; an earlier layer wins. -/
def flatten (ms : List (Map K V)) : Map K V :=
  ms.foldr (fun m acc => m ∪ acc) ∅

@[simp] theorem layered_nil (k : K) : layered ([] : List (Map K V)) k = none := rfl

@[simp] theorem layered_cons (m : Map K V) (ms : List (Map K V)) (k : K) :
    layered (m :: ms) k = (m.lookup k).or (layered ms k) := by
  cases h : m.lookup k <;> simp [layered, h]

theorem layered_append (ms ns : List (Map K V)) (k : K) :
    layered (ms ++ ns) k = (layered ms k).or (layered ns k) := by
  induction ms with
  | nil => simp
  | cons m ms ih => rw [List.cons_append, layered_cons, layered_cons, ih, Option.or_assoc]

theorem layered_eq_none {ms : List (Map K V)} {k : K} :
    layered ms k = none ↔ ∀ m ∈ ms, k ∉ m := by
  simp [layered, List.findSome?_eq_none_iff, Finmap.lookup_eq_none]

/-- Layers that agree on a key, one by one, show the same value for it. -/
theorem layered_congr {ms ns : List (Map K V)} {k : K}
    (h : List.Forall₂ (fun m n => m.lookup k = n.lookup k) ms ns) :
    layered ms k = layered ns k := by
  induction h with
  | nil => rfl
  | cons hhead _ ih => rw [layered_cons, layered_cons, hhead, ih]

/-- Dropping the lower layers `ns` changes no lookup exactly when the upper ones hold their
keys. -/
theorem layered_append_eq_iff {ms ns : List (Map K V)} :
    (∀ k, layered ms k = layered (ms ++ ns) k) ↔ ∀ n ∈ ns, ∀ k ∈ n, ∃ m ∈ ms, k ∈ m := by
  constructor
  · intro h n hn k hk
    by_contra hnone
    have hms : layered ms k = none :=
      layered_eq_none.mpr fun m hm hmem => hnone ⟨m, hm, hmem⟩
    have hns : layered ns k = none := by
      rw [← hms, h k, layered_append, hms, Option.none_or]
    exact layered_eq_none.mp hns n hn hk
  · intro h k
    rw [layered_append]
    cases hms : layered ms k with
    | some v => rfl
    | none =>
      refine (layered_eq_none.mpr fun n hn hk => ?_).symm
      obtain ⟨m, hm, hmem⟩ := h n hn k hk
      exact layered_eq_none.mp hms m hm hmem

@[simp] theorem flatten_nil : flatten ([] : List (Map K V)) = ∅ := rfl

@[simp] theorem flatten_cons (m : Map K V) (ms : List (Map K V)) :
    flatten (m :: ms) = m ∪ flatten ms := rfl

theorem flatten_append (ms ns : List (Map K V)) :
    flatten (ms ++ ns) = flatten ms ∪ flatten ns := by
  induction ms with
  | nil => rw [List.nil_append, flatten_nil, Finmap.empty_union]
  | cons m ms ih => rw [List.cons_append, flatten_cons, flatten_cons, ih, Finmap.union_assoc]

/-- **Flattening the layers** gives the map of all layered lookups. -/
theorem lookup_flatten (ms : List (Map K V)) (k : K) :
    (flatten ms).lookup k = layered ms k := by
  induction ms with
  | nil => exact Finmap.lookup_empty k
  | cons m ms ih => rw [flatten_cons, Map.lookup_union, ih, layered_cons]

end Layers

/-! ## Enumerating a map -/

section Enumeration

/-- The list `l` is the map `m` in some order of iteration. -/
def Enumerates (l : List (Σ _ : K, V)) (m : Map K V) : Prop :=
  (l : Multiset (Σ _ : K, V)) = m.entries

omit [DecidableEq K] in
theorem Enumerates.perm {l l' : List (Σ _ : K, V)} {m : Map K V} (h : Enumerates l m)
    (h' : Enumerates l' m) : l.Perm l' :=
  Multiset.coe_eq_coe.mp (h.trans h'.symm)

theorem Enumerates.mem_iff {l : List (Σ _ : K, V)} {m : Map K V} (h : Enumerates l m)
    (k : K) (v : V) : ⟨k, v⟩ ∈ l ↔ m.lookup k = some v := by
  rw [Finmap.lookup_eq_some_iff, ← h, Multiset.mem_coe]

omit [DecidableEq K] in
theorem Enumerates.nodup_keys {l : List (Σ _ : K, V)} {m : Map K V} (h : Enumerates l m) :
    (l.map Sigma.fst).Nodup := by
  have hn : (m.entries.keys).Nodup := Multiset.nodup_keys.mpr m.nodupKeys
  rw [← h] at hn
  exact hn

/-- Inserting the entries of a map one by one, in any order, overwrites with that map. -/
theorem lookup_foldl_insert {l : List (Σ _ : K, V)} {m : Map K V} (hl : Enumerates l m)
    (init : Map K V) (k : K) :
    (l.foldl (fun acc e => acc.insert e.1 e.2) init).lookup k =
      (m.lookup k).or (init.lookup k) := by
  -- Along the list: a key occurs once, so a later insertion never undoes an earlier one.
  have hfold : ∀ (l : List (Σ _ : K, V)) (init : Map K V), (l.map Sigma.fst).Nodup →
      (l.foldl (fun acc e => acc.insert e.1 e.2) init).lookup k =
        (l.dlookup k).or (init.lookup k) := by
    intro l
    induction l with
    | nil => exact fun _ _ => rfl
    | cons e l ih =>
      obtain ⟨k', v⟩ := e
      intro init hn
      rw [List.map_cons, List.nodup_cons] at hn
      rw [List.foldl_cons, ih _ hn.2, Map.lookup_insert_eq]
      by_cases hk : k = k'
      · subst hk
        have hnone : l.dlookup k = none := List.dlookup_eq_none.mpr hn.1
        rw [hnone, if_pos rfl, List.dlookup_cons_eq, Option.none_or, Option.some_or]
      · rw [if_neg hk, List.dlookup_cons_ne _ _ hk]
  rw [hfold l init hl.nodup_keys]
  congr 1
  ext v
  rw [← hl.mem_iff]
  exact List.mem_dlookup_iff hl.nodup_keys

end Enumeration

end Overlay
