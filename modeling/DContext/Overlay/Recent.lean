import Mathlib.Data.List.DropRight

/-!
# The most recent entries of a list

A list capped to its last `m` entries, where the limit `0` means no cap. Capping is idempotent,
and capping a prefix before more entries are appended changes nothing that a final capping would
keep.

## Main results

* `keepLast_append_keepLast`: capping a prefix first is invisible after a final capping
* `keepLast_append_inj`: when two prefixes of a list are alike after capping
* `keepLast_append_eq_iff`: when dropping a middle part leaves the capped list unchanged
-/

namespace Overlay

variable {α : Type}

/-- The last `m` entries of `l`; all of them when `m = 0`. -/
def keepLast (m : Nat) (l : List α) : List α :=
  if m = 0 then l else l.rtake m

@[simp] theorem keepLast_zero (l : List α) : keepLast 0 l = l := if_pos rfl

theorem keepLast_pos {m : Nat} (hm : 0 < m) (l : List α) : keepLast m l = l.rtake m :=
  if_neg (Nat.ne_of_gt hm)

theorem keepLast_of_length_le {m : Nat} {l : List α} (h : l.length ≤ m) : keepLast m l = l := by
  unfold keepLast
  split_ifs
  · rfl
  · rw [List.rtake, Nat.sub_eq_zero_of_le h, List.drop_zero]

theorem rtake_append (n : Nat) (a b : List α) :
    (a ++ b).rtake n = a.rtake (n - b.length) ++ b.rtake n := by
  unfold List.rtake
  rw [List.length_append, List.drop_append,
    show a.length + b.length - n - a.length = b.length - n by omega]
  congr 1
  -- either the cut falls inside `b`, or all of `b` is kept and the cut falls inside `a`
  rcases Nat.le_total n b.length with h | h
  · have hl : a.drop (a.length + b.length - n) = [] := List.drop_of_length_le (by omega)
    have hr : a.drop (a.length - (n - b.length)) = [] := List.drop_of_length_le (by omega)
    rw [hl, hr]
  · congr 1
    omega

/-- **Capping a prefix first** is invisible after a final capping. -/
theorem keepLast_append_keepLast (m : Nat) (a b : List α) :
    keepLast m (keepLast m a ++ b) = keepLast m (a ++ b) := by
  rcases Nat.eq_zero_or_pos m with rfl | hm
  · simp
  · rw [keepLast_pos hm, keepLast_pos hm, keepLast_pos hm, rtake_append, rtake_append]
    congr 1
    unfold List.rtake
    rw [List.drop_drop, List.length_drop]
    congr 1
    omega

theorem keepLast_keepLast (m : Nat) (l : List α) : keepLast m (keepLast m l) = keepLast m l := by
  simpa using keepLast_append_keepLast m l []

/-- Two prefixes of `l` are alike in the capped list exactly when they are alike where the cap
reaches past `l`. -/
theorem keepLast_append_inj (m : Nat) (a b l : List α) :
    keepLast m (a ++ l) = keepLast m (b ++ l) ↔
      if m = 0 then a = b else a.rtake (m - l.length) = b.rtake (m - l.length) := by
  rcases Nat.eq_zero_or_pos m with rfl | hm
  · simp
  · rw [keepLast_pos hm, keepLast_pos hm, rtake_append, rtake_append m b, if_neg (by omega),
      List.append_left_inj]

/-- Dropping the middle part `p` of `r ++ p ++ l` leaves the capped list unchanged exactly when
`l` fills the cap, or the entries `r ++ p` and `r` end alike where the cap still reaches. -/
theorem keepLast_append_eq_iff (m : Nat) (r p l : List α) :
    keepLast m (r ++ l) = keepLast m (r ++ p ++ l) ↔
      if m = 0 then p = [] else r.rtake (m - l.length) = (r ++ p).rtake (m - l.length) := by
  rw [keepLast_append_inj, List.self_eq_append_right]

end Overlay
