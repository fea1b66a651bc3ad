import DContext.Overlay.Map
import DContext.Overlay.Recent
import Mathlib.Tactic.SplitIfs

/-!
# A depth-capped stack of overlay maps

A stack of named frames, each an overlay map, over inherited frames that are only read. The
depth counts every push; only the first `cap + 1` levels hold a frame, and a push beyond them
moves the counter alone. Lookup takes the topmost frame that holds the key.

## Main definitions

* `CappedStack cap K N V`: the stack, with its shape as fields
* `push`, `pop`, `set`, `lookup`, `values`, `names`: its operations
* `Op`, `Reply`, `step`: the stack as a step system

## Main results

* `push_depth`, `push_of_le`, `push_of_lt`, `push_env`: what a push changes
* `pop_of_stale`: a pop of a level that is the root, or not reached, does nothing
-/

namespace Overlay

variable {K N V : Type} [DecidableEq K] {cap : Nat}

/-- A named overlay map. -/
structure Frame (K N V : Type) where
  name : Option N
  values : Map K V

/-- The names of the frames, innermost frame first, listed from the bottom to the top. -/
def namesOf (fs : List (Frame K N V)) : List N :=
  (fs.filterMap Frame.name).reverse

omit [DecidableEq K] in
@[simp] theorem namesOf_nil : namesOf ([] : List (Frame K N V)) = [] := rfl

omit [DecidableEq K] in
@[simp] theorem namesOf_cons (f : Frame K N V) (fs : List (Frame K N V)) :
    namesOf (f :: fs) = namesOf fs ++ f.name.toList := by
  cases h : f.name <;> simp [namesOf, h]

/-- A stack of overlay frames, topmost first, whose depth may exceed its number of frames. -/
@[ext] structure CappedStack (cap : Nat) (K N V : Type) where
  depth : Nat
  frames : List (Frame K N V)
  /-- Frames read below the stack and never written. -/
  inherited : List (Frame K N V)
  /-- Names listed before all others. -/
  remote : List N
  depth_pos : 0 < depth
  length_frames : frames.length = min depth (cap + 1)

namespace CappedStack

/-- The topmost value of `k`. -/
def lookup (s : CappedStack cap K N V) (k : K) : Option V :=
  layered ((s.frames ++ s.inherited).map Frame.values) k

/-- All effective values. -/
def values (s : CappedStack cap K N V) : Map K V :=
  flatten ((s.frames ++ s.inherited).map Frame.values)

/-- The names from the bottom to the top, cut to the last `limit`. -/
def names (limit : Nat) (s : CappedStack cap K N V) : List N :=
  keepLast limit (s.remote ++ namesOf s.inherited ++ namesOf s.frames)

/-- Add a frame that holds the effective values of the keys `cached`; beyond the cap, count
only. -/
def push (cached : Finset K) (name : Option N) (s : CappedStack cap K N V) :
    CappedStack cap K N V :=
  if h : s.depth ≤ cap then
    { s with
      depth := s.depth + 1
      frames := ⟨name, Map.collect cached s.lookup⟩ :: s.frames
      depth_pos := Nat.succ_pos _
      length_frames := by
        have := s.length_frames
        simp only [List.length_cons]
        omega }
  else
    -- the level exists in the count only: later writes fall into the topmost frame below it
    { s with
      depth := s.depth + 1
      depth_pos := Nat.succ_pos _
      length_frames := by
        have := s.length_frames
        omega }

/-- Cut the stack below the level `e`, unless that level is the root or is not reached. -/
def pop (e : Nat) (s : CappedStack cap K N V) : CappedStack cap K N V :=
  if h : e ≤ 1 ∨ s.depth < e then s
  else
    -- levels beyond the cap have no frame to drop
    { s with
      depth := e - 1
      frames := s.frames.drop (s.frames.length - min (e - 1) (cap + 1))
      depth_pos := by omega
      length_frames := by
        have := s.length_frames
        rw [List.length_drop]
        omega }

/-- Write into the topmost frame. -/
def set (k : K) (v : V) (s : CappedStack cap K N V) : CappedStack cap K N V :=
  { s with
    frames := s.frames.modifyHead fun f => { f with values := f.values.insert k v }
    length_frames := by rw [List.length_modifyHead, s.length_frames] }

theorem push_depth (cached : Finset K) (name : Option N) (s : CappedStack cap K N V) :
    (s.push cached name).depth = s.depth + 1 := by
  unfold push
  split_ifs <;> rfl

theorem push_of_le {s : CappedStack cap K N V} (h : s.depth ≤ cap) (cached : Finset K)
    (name : Option N) :
    (s.push cached name).frames = ⟨name, Map.collect cached s.lookup⟩ :: s.frames := by
  rw [push, dif_pos h]

theorem push_of_lt {s : CappedStack cap K N V} (h : cap < s.depth) (cached : Finset K)
    (name : Option N) : (s.push cached name).frames = s.frames := by
  rw [push, dif_neg (Nat.not_le.mpr h)]

theorem push_env (cached : Finset K) (name : Option N) (s : CappedStack cap K N V) :
    (s.push cached name).inherited = s.inherited ∧ (s.push cached name).remote = s.remote := by
  unfold push
  split_ifs <;> exact ⟨rfl, rfl⟩

omit [DecidableEq K] in
theorem pop_of_stale {e : Nat} {s : CappedStack cap K N V} (h : e ≤ 1 ∨ s.depth < e) :
    s.pop e = s :=
  dif_pos h

/-- The operations of the stack. -/
inductive Op (K N V : Type)
  | push (cached : Finset K) (name : Option N)
  | pop (e : Nat)
  | set (k : K) (v : V)
  | lookup (k : K)
  | values
  | names (limit : Nat)

/-- What an operation answers. -/
inductive Reply (K N V : Type)
  | done
  | depth (d : Nat)
  | value (v : Option V)
  | values (m : Map K V)
  | names (ns : List N)

/-- The stack as a step system. -/
def step (s : CappedStack cap K N V) : Op K N V → CappedStack cap K N V × Reply K N V
  | .push cached name => (s.push cached name, .depth (s.depth + 1))
  | .pop e => (s.pop e, .done)
  | .set k v => (s.set k v, .done)
  | .lookup k => (s, .value (s.lookup k))
  | .values => (s, .values s.values)
  | .names limit => (s, .names (s.names limit))

end CappedStack

end Overlay
