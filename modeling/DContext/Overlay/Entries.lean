import DContext.Overlay.Map

/-!
# Entries that all meet a condition

A condition on the entries of a map, and what the operations on maps make of it. None of them
makes an entry of its own: each entry of a result is one that was put in.

## Main definitions

* `Map.All Q m`: every entry of `m` meets `Q`

## Main results

* `Map.All.insert`, `Map.All.union`, `Map.All.filter`, `Map.All.collect`: the operations
* `Map.All.layered`: what is found in layers
-/

namespace Overlay

namespace Map

variable {K V : Type} [DecidableEq K] {Q : K → V → Prop}

/-- Every entry meets the condition. -/
def All (Q : K → V → Prop) (m : Map K V) : Prop := ∀ k v, m.lookup k = some v → Q k v

namespace All

theorem empty : All Q (∅ : Map K V) := by
  intro k v hv
  rw [Finmap.lookup_empty] at hv
  cases hv

theorem mono {Q' : K → V → Prop} {m : Map K V} (h : All Q m) (hQ : ∀ k v, Q k v → Q' k v) :
    All Q' m := fun k v hv => hQ k v (h k v hv)

theorem insert {m : Map K V} (h : All Q m) {k : K} {v : V} (hv : Q k v) : All Q (m.insert k v) := by
  intro k' v' hv'
  rw [lookup_insert_eq] at hv'
  split_ifs at hv' with hk
  · obtain rfl := Option.some.inj hv'
    exact hk ▸ hv
  · exact h k' v' hv'

theorem union {m n : Map K V} (hm : All Q m) (hn : All Q n) : All Q (m ∪ n) := by
  intro k v hv
  rw [lookup_union, Option.or_eq_some_iff] at hv
  rcases hv with hv | ⟨-, hv⟩
  · exact hm k v hv
  · exact hn k v hv

theorem extend {m n : Map K V} (hm : All Q m) (hn : All Q n) : All Q (m.extend n) := hn.union hm

theorem filter {m : Map K V} (h : All Q m) (p : K → V → Bool) : All Q (m.filter p) := by
  intro k v hv
  rw [lookup_filter, Option.filter_eq_some_iff] at hv
  exact h k v hv.1

theorem collect {ks : Finset K} {f : K → Option V} (h : ∀ k v, f k = some v → Q k v) :
    All Q (Map.collect ks f) := by
  intro k v hv
  rw [lookup_collect] at hv
  split_ifs at hv
  exact h k v hv

/-- What is found in layers is an entry of one of them. -/
theorem layered {ms : List (Map K V)} (h : ∀ m ∈ ms, All Q m) {k : K} {v : V}
    (hv : Overlay.layered ms k = some v) : Q k v := by
  induction ms with
  | nil => cases hv
  | cons m ms ih =>
    obtain ⟨hm, hms⟩ := List.forall_mem_cons.mp h
    rw [layered_cons, Option.or_eq_some_iff] at hv
    rcases hv with hv | ⟨-, hv⟩
    · exact hm k v hv
    · exact ih hms hv

end All

end Map

end Overlay
