import DContext.Overlay.CappedStack

/-!
# Stacks that look alike

Two stacks look alike when they have the same depth and names and show the same values at every
level, whatever the single frames hold. Copying effective values into a new frame keeps this, so
stacks that are pushed with different sets of keys to copy stay alike. A fork reads the frames of
a stack without what lies below them, and there the copies can show.

## Main definitions

* `SameViews low low' fs fs'`: frames over lower layers that show the same at every level
* `CappedStack.Alike s s'`: two stacks that look alike
* `CappedStack.overwrite m s`, `CappedStack.fork s`: a map written into the topmost frame, and a
  stack that inherits the frames of another

## Main results

* `Alike.push`, `Alike.pop`, `Alike.overwrite`: stacks that look alike stay so
* `Alike.fork_iff`: the forks of such stacks look alike when their frames hold the same keys
-/

namespace Overlay

variable {K N V : Type} [DecidableEq K] {cap : Nat}

/-- Frames over two lower layers that have the same names and show the same at every level. -/
inductive SameViews (low low' : List (Map K V)) : List (Frame K N V) → List (Frame K N V) → Prop
  | nil : (∀ k, layered low k = layered low' k) → SameViews low low' [] []
  | cons {f f' : Frame K N V} {fs fs' : List (Frame K N V)} :
      SameViews low low' fs fs' → f.name = f'.name →
      (∀ k, layered ((f :: fs).map Frame.values ++ low) k =
        layered ((f' :: fs').map Frame.values ++ low') k) →
      SameViews low low' (f :: fs) (f' :: fs')

namespace SameViews

variable {low low' : List (Map K V)} {fs fs' : List (Frame K N V)}

/-- The topmost level shows the same. -/
theorem layered_eq (h : SameViews low low' fs fs') (k : K) :
    layered (fs.map Frame.values ++ low) k = layered (fs'.map Frame.values ++ low') k := by
  cases h with
  | nil hlow => exact hlow k
  | cons _ _ hview => exact hview k

theorem namesOf_eq (h : SameViews low low' fs fs') : namesOf fs = namesOf fs' := by
  induction h with
  | nil _ => rfl
  | cons _ hname _ ih => rw [namesOf_cons, namesOf_cons, ih, hname]

theorem length_eq (h : SameViews low low' fs fs') : fs.length = fs'.length := by
  induction h with
  | nil _ => rfl
  | cons _ _ _ ih => rw [List.length_cons, List.length_cons, ih]

theorem drop (h : SameViews low low' fs fs') (n : Nat) :
    SameViews low low' (fs.drop n) (fs'.drop n) := by
  induction h generalizing n with
  | nil hlow =>
    rw [List.drop_nil]
    exact .nil hlow
  | cons h hname hview ih =>
    cases n with
    | zero => exact .cons h hname hview
    | succ n => exact ih n

/-- The same frames over the same layers. -/
theorem refl (low : List (Map K V)) (fs : List (Frame K N V)) : SameViews low low fs fs := by
  induction fs with
  | nil => exact .nil fun _ => rfl
  | cons f fs ih => exact .cons ih rfl fun _ => rfl

/-- New frames that copy effective values, each of its own keys. -/
theorem push (h : SameViews low low' fs fs') (name : Option N) (cached cached' : Finset K) :
    SameViews low low'
      (⟨name, Map.collect cached fun k => layered (fs.map Frame.values ++ low) k⟩ :: fs)
      (⟨name, Map.collect cached' fun k => layered (fs'.map Frame.values ++ low') k⟩ :: fs') := by
  have hcopy : ∀ (keys : Finset K) (layers : List (Map K V)) (k : K),
      layered (Map.collect keys (fun k => layered layers k) :: layers) k = layered layers k := by
    intro keys layers k
    rw [layered_cons, Map.lookup_collect]
    split_ifs
    · exact Option.or_self
    · exact Option.none_or
  refine .cons h rfl fun k => ?_
  rw [List.map_cons, List.map_cons, List.cons_append, List.cons_append, hcopy, hcopy]
  exact h.layered_eq k

/-- A map written into both topmost frames. -/
theorem overwrite (h : SameViews low low' fs fs') (m : Map K V) :
    SameViews low low' (fs.modifyHead fun f => { f with values := f.values.extend m })
      (fs'.modifyHead fun f => { f with values := f.values.extend m }) := by
  cases h with
  | nil hlow => exact .nil hlow
  | cons h hname hview =>
    refine .cons h hname fun k => ?_
    have hk := hview k
    simp only [List.map_cons, List.cons_append, layered_cons] at hk ⊢
    rw [Map.lookup_extend, Map.lookup_extend, Option.or_assoc, Option.or_assoc, hk]

end SameViews

/-- The frames of two stacks show the same without their lower layers exactly when they hold the
same keys. -/
theorem SameViews.layered_frames_iff {low low' : List (Map K V)} {fs fs' : List (Frame K N V)}
    (h : SameViews low low' fs fs') (k : K) :
    layered (fs.map Frame.values) k = layered (fs'.map Frame.values) k ↔
      ((∃ f ∈ fs, k ∈ f.values) ↔ ∃ f ∈ fs', k ∈ f.values) := by
  have hholds : ∀ gs : List (Frame K N V),
      (∃ f ∈ gs, k ∈ f.values) ↔ layered (gs.map Frame.values) k ≠ none := fun gs => by
    rw [ne_eq, layered_eq_none]
    simp
  rw [hholds, hholds]
  constructor
  · intro heq
    rw [heq]
  · intro hsame
    have hview := h.layered_eq k
    rw [layered_append, layered_append] at hview
    cases hfs : layered (fs.map Frame.values) k with
    | none =>
      have hnone := mt hsame.mpr
      rw [not_not, not_not] at hnone
      exact (hnone hfs).symm
    | some v =>
      obtain ⟨v', hv'⟩ := Option.ne_none_iff_exists'.mp (hsame.mp (by rw [hfs]; simp))
      rw [hfs, hv', Option.some_or, Option.some_or] at hview
      rw [hv', hview]

namespace CappedStack

/-- Write a map into the topmost frame. -/
def overwrite (m : Map K V) (s : CappedStack cap K N V) : CappedStack cap K N V :=
  { s with
    frames := s.frames.modifyHead fun f => { f with values := f.values.extend m }
    length_frames := by rw [List.length_modifyHead, s.length_frames] }

/-- A new stack that inherits the frames of `s`, and not what lies below them. -/
def fork (s : CappedStack cap K N V) : CappedStack cap K N V where
  depth := 1
  frames := [⟨none, ∅⟩]
  inherited := s.frames
  remote := s.remote
  depth_pos := Nat.one_pos
  length_frames := by simp

/-- Two stacks that look alike. -/
structure Alike (s s' : CappedStack cap K N V) : Prop where
  depth : s.depth = s'.depth
  remote : s.remote = s'.remote
  inherited : namesOf s.inherited = namesOf s'.inherited
  views : SameViews (s.inherited.map Frame.values) (s'.inherited.map Frame.values) s.frames
    s'.frames

namespace Alike

variable {s s' : CappedStack cap K N V}

theorem refl (s : CappedStack cap K N V) : Alike s s := ⟨rfl, rfl, rfl, .refl _ _⟩

theorem lookup (h : Alike s s') (k : K) : s.lookup k = s'.lookup k := by
  unfold CappedStack.lookup
  rw [List.map_append, List.map_append]
  exact h.views.layered_eq k

theorem values (h : Alike s s') : s.values = s'.values := by
  apply Finmap.ext_lookup
  intro k
  rw [CappedStack.values, CappedStack.values, lookup_flatten, lookup_flatten]
  exact h.lookup k

theorem names (h : Alike s s') (limit : Nat) : s.names limit = s'.names limit := by
  rw [CappedStack.names, CappedStack.names, h.remote, h.inherited, h.views.namesOf_eq]

/-- **Pushes** that copy different keys. -/
theorem push (h : Alike s s') (cached cached' : Finset K) (name : Option N) :
    Alike (s.push cached name) (s'.push cached' name) := by
  obtain ⟨hinherited, hremote⟩ := push_env cached name s
  obtain ⟨hinherited', hremote'⟩ := push_env cached' name s'
  have hlookup : ∀ t : CappedStack cap K N V,
      t.lookup = fun k => layered (t.frames.map Frame.values ++ t.inherited.map Frame.values) k :=
    fun t => funext fun k => by rw [CappedStack.lookup, List.map_append]
  refine ⟨?_, ?_, ?_, ?_⟩
  · rw [push_depth, push_depth, h.depth]
  · rw [hremote, hremote', h.remote]
  · rw [hinherited, hinherited', h.inherited]
  · rw [hinherited, hinherited']
    rcases Nat.lt_or_ge cap s.depth with hd | hd
    · rw [push_of_lt hd, push_of_lt (h.depth ▸ hd)]
      exact h.views
    · rw [push_of_le hd, push_of_le (h.depth ▸ hd), hlookup s, hlookup s']
      exact h.views.push name cached cached'

theorem pop (h : Alike s s') (e : Nat) : Alike (s.pop e) (s'.pop e) := by
  by_cases hstale : e ≤ 1 ∨ s.depth < e
  · rw [pop_of_stale hstale, pop_of_stale (h.depth ▸ hstale)]
    exact h
  · have hstale' : ¬ (e ≤ 1 ∨ s'.depth < e) := h.depth ▸ hstale
    rw [CappedStack.pop, CappedStack.pop, dif_neg hstale, dif_neg hstale']
    refine ⟨rfl, h.remote, h.inherited, ?_⟩
    dsimp only
    rw [h.views.length_eq]
    exact h.views.drop _

theorem overwrite (h : Alike s s') (m : Map K V) : Alike (s.overwrite m) (s'.overwrite m) :=
  ⟨h.depth, h.remote, h.inherited, h.views.overwrite m⟩

/-- **Forks** look alike when the frames of the forked stacks hold the same keys. -/
theorem fork_iff (h : Alike s s') :
    Alike s.fork s'.fork ↔
      ∀ k, (∃ f ∈ s.frames, k ∈ f.values) ↔ ∃ f ∈ s'.frames, k ∈ f.values := by
  constructor
  · intro hfork k
    rw [← h.views.layered_frames_iff k]
    have hview := hfork.lookup k
    simpa [CappedStack.lookup, fork] using hview
  · intro hkeys
    have hlow : ∀ k, layered (s.frames.map Frame.values) k =
        layered (s'.frames.map Frame.values) k :=
      fun k => (h.views.layered_frames_iff k).mpr (hkeys k)
    refine ⟨rfl, h.remote, h.views.namesOf_eq, .cons (.nil hlow) rfl fun k => ?_⟩
    simpa [fork] using hlow k

end Alike

end CappedStack

end Overlay
