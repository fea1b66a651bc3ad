import DContext.Overlay.Views

/-!
# Keys that are found in the topmost frame

A stack that copies the effective values of some keys into each new frame finds these keys in its
topmost frame. Writes and pops keep this. A fork does not: its one frame is empty, and what it
shows is inherited.

## Main definitions

* `HoldsSeen ks low fs`: every frame holds what is seen from it of the keys `ks`
* `CappedStack.Fronted ks s`: the frames of a stack do so

## Main results

* `Fronted.push`, `Fronted.pop`, `Fronted.overwrite`: what keeps the keys in front
* `fronted_fork_iff`: when a fork does
-/

namespace Overlay

variable {K N V : Type} [DecidableEq K] {cap : Nat}

/-- Every frame over the layers `low` holds, of the keys `ks`, what is seen from it. -/
def HoldsSeen (ks : Finset K) (low : List (Map K V)) : List (Frame K N V) → Prop
  | [] => True
  | f :: fs =>
    (∀ k ∈ ks, layered ((f :: fs).map Frame.values ++ low) k = f.values.lookup k) ∧
      HoldsSeen ks low fs

namespace HoldsSeen

variable {ks : Finset K} {low : List (Map K V)} {fs : List (Frame K N V)}

theorem drop (h : HoldsSeen ks low fs) (n : Nat) : HoldsSeen ks low (fs.drop n) := by
  induction fs generalizing n with
  | nil =>
    rw [List.drop_nil]
    exact trivial
  | cons f fs ih =>
    cases n with
    | zero => exact h
    | succ n => exact ih h.2 n

/-- One frame with nothing below. -/
theorem single (ks : Finset K) (f : Frame K N V) : HoldsSeen ks [] [f] := by
  refine ⟨fun k _ => ?_, trivial⟩
  simp

/-- A new frame that copies the effective values of the keys. -/
theorem push (h : HoldsSeen ks low fs) (name : Option N) :
    HoldsSeen ks low
      (⟨name, Map.collect ks fun k => layered (fs.map Frame.values ++ low) k⟩ :: fs) := by
  refine ⟨fun k hk => ?_, h⟩
  rw [List.map_cons, List.cons_append, layered_cons, Map.lookup_collect, if_pos hk]
  exact Option.or_self

/-- A map written into the topmost frame. -/
theorem overwrite (h : HoldsSeen ks low fs) (m : Map K V) :
    HoldsSeen ks low (fs.modifyHead fun f => { f with values := f.values.extend m }) := by
  cases fs with
  | nil => exact trivial
  | cons f fs =>
    obtain ⟨hseen, hrest⟩ := h
    refine ⟨fun k hk => ?_, hrest⟩
    have hf := hseen k hk
    simp only [List.map_cons, List.cons_append, layered_cons] at hf ⊢
    rw [Map.lookup_extend, Option.or_assoc, hf]

end HoldsSeen

namespace CappedStack

/-- Every frame holds what is seen from it of the keys. -/
def Fronted (ks : Finset K) (s : CappedStack cap K N V) : Prop :=
  HoldsSeen ks (s.inherited.map Frame.values) s.frames

namespace Fronted

variable {ks : Finset K} {s : CappedStack cap K N V}

/-- **A push** that copies these very keys. -/
theorem push (h : Fronted ks s) (name : Option N) : Fronted ks (s.push ks name) := by
  unfold Fronted
  rw [(push_env ks name s).1]
  rcases Nat.lt_or_ge cap s.depth with hd | hd
  · rw [push_of_lt hd]
    exact h
  · have hlookup : s.lookup =
        fun k => layered (s.frames.map Frame.values ++ s.inherited.map Frame.values) k := by
      funext k
      rw [CappedStack.lookup, List.map_append]
    rw [push_of_le hd, hlookup]
    exact HoldsSeen.push h name

theorem pop (h : Fronted ks s) (e : Nat) : Fronted ks (s.pop e) := by
  by_cases hstale : e ≤ 1 ∨ s.depth < e
  · rw [pop_of_stale hstale]
    exact h
  · rw [CappedStack.pop, dif_neg hstale]
    exact HoldsSeen.drop h _

theorem overwrite (h : Fronted ks s) (m : Map K V) : Fronted ks (s.overwrite m) :=
  HoldsSeen.overwrite h m

end Fronted

/-- **A fork** has the keys in front exactly when the forked frames hold none of them. -/
theorem fronted_fork_iff {ks : Finset K} {s : CappedStack cap K N V} :
    Fronted ks s.fork ↔ ∀ k ∈ ks, ∀ f ∈ s.frames, k ∉ f.values := by
  have hlow : ∀ k, layered (s.frames.map Frame.values) k = none ↔
      ∀ f ∈ s.frames, k ∉ f.values := fun k => by
    rw [layered_eq_none]
    simp
  simp only [Fronted, fork, HoldsSeen, and_true, List.map_cons, List.map_nil, List.cons_append,
    List.nil_append, layered_cons, Finmap.lookup_empty, Option.none_or, hlow]

end CappedStack

end Overlay
