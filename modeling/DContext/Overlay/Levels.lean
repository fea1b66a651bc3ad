import DContext.Overlay.Views

/-!
# Stacks that are the same at every level

What can be found out of a stack is what is shown at its levels, each reached by popping those above
it: the values and names there, and those that a fork made there shows, which reads the frames
without what lies below them. Stacks that are the same in this stay so, forks included, and nothing
else can be found out of them.

## Main definitions

* `SameLevels low low' fs fs'`: frames that show the same at every level, with what lies below them
  and without
* `CappedStack.Twin s s'`: two stacks that are the same at every level

## Main results

* `Twin.push`, `Twin.pop`, `Twin.overwrite`, `Twin.fork`: such stacks stay so
* `twin_push`: which keys a push copies makes no difference where nothing is inherited
* `twin_of_reads`: stacks are the same if what is read of them at every level, and of their forks
  there, is the same
-/

namespace Overlay

variable {K N V : Type} [DecidableEq K] {cap : Nat}

/-- Frames over two lower layers that have the same names and show the same at every level, with the
lower layers and without. -/
inductive SameLevels (low low' : List (Map K V)) : List (Frame K N V) → List (Frame K N V) → Prop
  | nil : SameLevels low low' [] []
  | cons {f f' : Frame K N V} {fs fs' : List (Frame K N V)} :
      SameLevels low low' fs fs' → f.name = f'.name →
      (∀ k, layered ((f :: fs).map Frame.values ++ low) k =
        layered ((f' :: fs').map Frame.values ++ low') k) →
      (∀ k, layered ((f :: fs).map Frame.values) k = layered ((f' :: fs').map Frame.values) k) →
      SameLevels low low' (f :: fs) (f' :: fs')

namespace SameLevels

variable {low low' : List (Map K V)} {fs fs' : List (Frame K N V)}

theorem refl (low : List (Map K V)) (fs : List (Frame K N V)) : SameLevels low low fs fs := by
  induction fs with
  | nil => exact .nil
  | cons f fs ih => exact .cons ih rfl (fun _ => rfl) fun _ => rfl

theorem length_eq (h : SameLevels low low' fs fs') : fs.length = fs'.length := by
  induction h with
  | nil => rfl
  | cons _ _ _ _ ih => rw [List.length_cons, List.length_cons, ih]

theorem namesOf_eq (h : SameLevels low low' fs fs') : namesOf fs = namesOf fs' := by
  induction h with
  | nil => rfl
  | cons _ hname _ _ ih => rw [namesOf_cons, namesOf_cons, ih, hname]

/-- The topmost level, where there is one. -/
theorem layered_eq (h : SameLevels low low' fs fs') (hne : fs ≠ []) (k : K) :
    layered (fs.map Frame.values ++ low) k = layered (fs'.map Frame.values ++ low') k := by
  cases h with
  | nil => exact absurd rfl hne
  | cons _ _ hview _ => exact hview k

/-- The topmost level without the lower layers. -/
theorem layered_frames_eq (h : SameLevels low low' fs fs') (k : K) :
    layered (fs.map Frame.values) k = layered (fs'.map Frame.values) k := by
  cases h with
  | nil => rfl
  | cons _ _ _ hown => exact hown k

theorem drop (h : SameLevels low low' fs fs') (n : Nat) :
    SameLevels low low' (fs.drop n) (fs'.drop n) := by
  induction h generalizing n with
  | nil =>
    rw [List.drop_nil]
    exact .nil
  | cons h hname hview hown ih =>
    cases n with
    | zero => exact .cons h hname hview hown
    | succ n => exact ih n

/-- New frames of one name that hold the same. -/
theorem push (h : SameLevels low low' fs fs') (hne : fs ≠ []) (name : Option N) (m : Map K V) :
    SameLevels low low' (⟨name, m⟩ :: fs) (⟨name, m⟩ :: fs') := by
  refine .cons h rfl (fun k => ?_) fun k => ?_
  · rw [List.map_cons, List.map_cons, List.cons_append, List.cons_append, layered_cons,
      layered_cons, h.layered_eq hne]
  · rw [List.map_cons, List.map_cons, layered_cons, layered_cons, h.layered_frames_eq]

/-- A map written into both topmost frames. -/
theorem overwrite (h : SameLevels low low' fs fs') (m : Map K V) :
    SameLevels low low' (fs.modifyHead fun f => { f with values := f.values.extend m })
      (fs'.modifyHead fun f => { f with values := f.values.extend m }) := by
  cases h with
  | nil => exact .nil
  | cons h hname hview hown =>
    refine .cons h hname (fun k => ?_) fun k => ?_
    · have hk := hview k
      simp only [List.map_cons, List.cons_append, layered_cons] at hk ⊢
      rw [Map.lookup_extend, Map.lookup_extend, Option.or_assoc, Option.or_assoc, hk]
    · have hk := hown k
      simp only [List.map_cons, layered_cons] at hk ⊢
      rw [Map.lookup_extend, Map.lookup_extend, Option.or_assoc, Option.or_assoc, hk]

/-- Frames are the same at every level if what is shown there is the same. The induction is on the
frames, from the top. -/
theorem of_drop (hlength : fs.length = fs'.length)
    (hnames : ∀ n, namesOf (fs.drop n) = namesOf (fs'.drop n))
    (hviews : ∀ n < fs.length, ∀ k, layered ((fs.drop n).map Frame.values ++ low) k =
      layered ((fs'.drop n).map Frame.values ++ low') k)
    (howns : ∀ n < fs.length, ∀ k, layered ((fs.drop n).map Frame.values) k =
      layered ((fs'.drop n).map Frame.values) k) :
    SameLevels low low' fs fs' := by
  induction fs generalizing fs' with
  | nil =>
    rw [List.length_nil] at hlength
    rw [List.eq_nil_of_length_eq_zero hlength.symm]
    exact .nil
  | cons f fs ih =>
    cases fs' with
    | nil => cases hlength
    | cons f' fs' =>
      have hbelow : namesOf fs = namesOf fs' := hnames 1
      have hhere := hnames 0
      rw [List.drop_zero, List.drop_zero, namesOf_cons, namesOf_cons, hbelow,
        List.append_cancel_left_eq] at hhere
      have hname : f.name = f'.name := by simpa using congrArg List.head? hhere
      refine .cons (ih (Nat.succ.inj hlength) (fun n => hnames (n + 1)) ?_ ?_) hname
        (hviews 0 (Nat.succ_pos _)) (howns 0 (Nat.succ_pos _))
      · exact fun n hn => hviews (n + 1) (Nat.succ_lt_succ hn)
      · exact fun n hn => howns (n + 1) (Nat.succ_lt_succ hn)

end SameLevels

namespace CappedStack

/-- Two stacks that are the same at every level. -/
structure Twin (s s' : CappedStack cap K N V) : Prop where
  depth : s.depth = s'.depth
  remote : s.remote = s'.remote
  inherited : namesOf s.inherited = namesOf s'.inherited
  levels : SameLevels (s.inherited.map Frame.values) (s'.inherited.map Frame.values) s.frames
    s'.frames

omit [DecidableEq K] in
theorem frames_ne_nil (s : CappedStack cap K N V) : s.frames ≠ [] := by
  have hpos := s.depth_pos
  have hlength := s.length_frames
  intro hnil
  rw [hnil, List.length_nil] at hlength
  omega

omit [DecidableEq K] in
theorem pop_env (e : Nat) (s : CappedStack cap K N V) :
    (s.pop e).inherited = s.inherited ∧ (s.pop e).remote = s.remote := by
  unfold pop
  split_ifs <;> exact ⟨rfl, rfl⟩

omit [DecidableEq K] in
/-- The frames above a level are dropped by a pop to it. -/
theorem pop_frames (s : CappedStack cap K N V) {n : Nat} (hn : n < s.frames.length) :
    (s.pop (s.frames.length - n + 1)).frames = s.frames.drop n := by
  have hlength := s.length_frames
  by_cases hstale : s.frames.length - n + 1 ≤ 1 ∨ s.depth < s.frames.length - n + 1
  · rw [pop_of_stale hstale, show n = 0 by omega, List.drop_zero]
  · rw [pop, dif_neg hstale]
    dsimp only
    congr 1
    omega

theorem lookup_fork (s : CappedStack cap K N V) (k : K) :
    s.fork.lookup k = layered (s.frames.map Frame.values) k := by
  simp [CappedStack.lookup, fork]

omit [DecidableEq K] in
theorem names_fork (s : CappedStack cap K N V) :
    s.fork.names 0 = s.remote ++ namesOf s.frames := by
  simp [CappedStack.names, fork]

/-- What is read of the stacks is the same. -/
structure ReadAlike (s s' : CappedStack cap K N V) : Prop where
  lookup : ∀ k, s.lookup k = s'.lookup k
  names : s.names 0 = s'.names 0

namespace Twin

variable {s s' : CappedStack cap K N V}

theorem refl (s : CappedStack cap K N V) : Twin s s := ⟨rfl, rfl, rfl, .refl _ _⟩

theorem lookup (h : Twin s s') (k : K) : s.lookup k = s'.lookup k := by
  unfold CappedStack.lookup
  rw [List.map_append, List.map_append]
  exact h.levels.layered_eq s.frames_ne_nil k

theorem values (h : Twin s s') : s.values = s'.values := by
  apply Finmap.ext_lookup
  intro k
  rw [CappedStack.values, CappedStack.values, lookup_flatten, lookup_flatten]
  exact h.lookup k

theorem names (h : Twin s s') (limit : Nat) : s.names limit = s'.names limit := by
  rw [CappedStack.names, CappedStack.names, h.remote, h.inherited, h.levels.namesOf_eq]

/-- **Pushes** that copy the same keys. -/
theorem push (h : Twin s s') (cached : Finset K) (name : Option N) :
    Twin (s.push cached name) (s'.push cached name) := by
  obtain ⟨hinherited, hremote⟩ := push_env cached name s
  obtain ⟨hinherited', hremote'⟩ := push_env cached name s'
  refine ⟨?_, ?_, ?_, ?_⟩
  · rw [push_depth, push_depth, h.depth]
  · rw [hremote, hremote', h.remote]
  · rw [hinherited, hinherited', h.inherited]
  · rw [hinherited, hinherited']
    rcases Nat.lt_or_ge cap s.depth with hd | hd
    · rw [push_of_lt hd, push_of_lt (h.depth ▸ hd)]
      exact h.levels
    · rw [push_of_le hd, push_of_le (h.depth ▸ hd), show s.lookup = s'.lookup from funext h.lookup]
      exact h.levels.push s.frames_ne_nil name _

theorem pop (h : Twin s s') (e : Nat) : Twin (s.pop e) (s'.pop e) := by
  by_cases hstale : e ≤ 1 ∨ s.depth < e
  · rw [pop_of_stale hstale, pop_of_stale (h.depth ▸ hstale)]
    exact h
  · have hstale' : ¬ (e ≤ 1 ∨ s'.depth < e) := h.depth ▸ hstale
    rw [CappedStack.pop, CappedStack.pop, dif_neg hstale, dif_neg hstale']
    refine ⟨rfl, h.remote, h.inherited, ?_⟩
    dsimp only
    rw [h.levels.length_eq]
    exact h.levels.drop _

theorem overwrite (h : Twin s s') (m : Map K V) : Twin (s.overwrite m) (s'.overwrite m) :=
  ⟨h.depth, h.remote, h.inherited, h.levels.overwrite m⟩

/-- **Forks**, whatever the forked stacks inherit. -/
theorem fork (h : Twin s s') : Twin s.fork s'.fork := by
  refine ⟨rfl, h.remote, h.levels.namesOf_eq, .cons .nil rfl (fun k => ?_) fun _ => rfl⟩
  simpa [CappedStack.fork] using h.levels.layered_frames_eq k

end Twin

/-- **Which keys are copied** by a push makes no difference to a stack that inherits nothing. -/
theorem twin_push {s : CappedStack cap K N V} (hroot : s.inherited = []) (cached cached' : Finset K)
    (name : Option N) : Twin (s.push cached name) (s.push cached' name) := by
  have hcopy : ∀ (keys : Finset K) (k : K),
      layered (Map.collect keys s.lookup :: s.frames.map Frame.values) k =
        layered (s.frames.map Frame.values) k := by
    intro keys k
    have hlookup : s.lookup k = layered (s.frames.map Frame.values) k := by
      rw [CappedStack.lookup, hroot, List.append_nil]
    rw [layered_cons, Map.lookup_collect, hlookup]
    split_ifs
    · exact Option.or_self
    · exact Option.none_or
  obtain ⟨hinherited, hremote⟩ := push_env cached name s
  obtain ⟨hinherited', hremote'⟩ := push_env cached' name s
  refine ⟨by rw [push_depth, push_depth], hremote.trans hremote'.symm,
    congrArg namesOf (hinherited.trans hinherited'.symm), ?_⟩
  rw [hinherited, hinherited', hroot]
  rcases Nat.lt_or_ge cap s.depth with hd | hd
  · rw [push_of_lt hd, push_of_lt hd]
    exact .refl _ _
  · rw [push_of_le hd, push_of_le hd]
    refine .cons (.refl _ _) rfl (fun k => ?_) fun k => ?_
    · rw [List.map_nil, List.append_nil, List.append_nil, List.map_cons, List.map_cons, hcopy,
        hcopy]
    · rw [List.map_cons, List.map_cons, hcopy, hcopy]

/-- What is read at one level of two stacks, and of their forks there, said of the frames. -/
theorem level_of_reads {s s' : CappedStack cap K N V} (hlength : s.frames.length = s'.frames.length)
    {n : Nat} (hn : n < s.frames.length)
    (h : ReadAlike (s.pop (s.frames.length - n + 1)) (s'.pop (s.frames.length - n + 1)))
    (hfork : ReadAlike (s.pop (s.frames.length - n + 1)).fork
      (s'.pop (s.frames.length - n + 1)).fork) :
    (∀ k, layered ((s.frames.drop n).map Frame.values ++ s.inherited.map Frame.values) k =
        layered ((s'.frames.drop n).map Frame.values ++ s'.inherited.map Frame.values) k) ∧
      (∀ k, layered ((s.frames.drop n).map Frame.values) k =
        layered ((s'.frames.drop n).map Frame.values) k) ∧
      s.remote ++ namesOf s.inherited ++ namesOf (s.frames.drop n) =
        s'.remote ++ namesOf s'.inherited ++ namesOf (s'.frames.drop n) ∧
      s.remote ++ namesOf (s.frames.drop n) = s'.remote ++ namesOf (s'.frames.drop n) := by
  obtain ⟨hinherited, hremote⟩ := pop_env (s.frames.length - n + 1) s
  obtain ⟨hinherited', hremote'⟩ := pop_env (s.frames.length - n + 1) s'
  have hframes := pop_frames s hn
  have hframes' := pop_frames s' (hlength ▸ hn)
  rw [← hlength] at hframes'
  refine ⟨fun k => ?_, fun k => ?_, ?_, ?_⟩
  · have hlookup := h.lookup k
    rw [CappedStack.lookup, CappedStack.lookup] at hlookup
    rwa [hframes, hframes', hinherited, hinherited', List.map_append, List.map_append] at hlookup
  · have hlookup := hfork.lookup k
    rwa [lookup_fork, lookup_fork, hframes, hframes'] at hlookup
  · have hnames := h.names
    rw [CappedStack.names, CappedStack.names, keepLast_zero, keepLast_zero] at hnames
    rwa [hframes, hframes', hinherited, hinherited', hremote, hremote'] at hnames
  · have hnames := hfork.names
    rwa [names_fork, names_fork, hframes, hframes', hremote, hremote'] at hnames

/-- **Stacks are the same at every level** if their depths are, and what is read of them at each
level and of their forks there, and their lowest frames have no names. -/
theorem twin_of_reads {s s' : CappedStack cap K N V} (hdepth : s.depth = s'.depth)
    (hreads : ∀ e ≤ cap + 2, ReadAlike (s.pop e) (s'.pop e) ∧
      ReadAlike (s.pop e).fork (s'.pop e).fork)
    (hroot : namesOf (s.frames.drop (s.frames.length - 1)) = [])
    (hroot' : namesOf (s'.frames.drop (s'.frames.length - 1)) = []) : s.Twin s' := by
  have hbound := s.length_frames
  have hlength : s.frames.length = s'.frames.length := by rw [hbound, s'.length_frames, hdepth]
  have hpos : 0 < s.frames.length := List.length_pos_iff.mpr s.frames_ne_nil
  have hlevel := fun n (hn : n < s.frames.length) =>
    level_of_reads hlength hn (hreads _ (by omega)).1 (hreads _ (by omega)).2
  obtain ⟨-, -, hall, hremote⟩ := hlevel (s.frames.length - 1) (by omega)
  rw [hroot, hlength, hroot', List.append_nil, List.append_nil] at hall hremote
  rw [hremote, List.append_cancel_left_eq] at hall
  refine ⟨hdepth, hremote, hall, .of_drop hlength (fun n => ?_) (fun n hn => (hlevel n hn).1)
    fun n hn => (hlevel n hn).2.1⟩
  rcases Nat.lt_or_ge n s.frames.length with hn | hn
  · have hown := (hlevel n hn).2.2.2
    rwa [hremote, List.append_cancel_left_eq] at hown
  · rw [List.drop_eq_nil_of_le hn, List.drop_eq_nil_of_le (hlength ▸ hn)]

end CappedStack

end Overlay
