import DContext.Store.Reading

/-!
# The shape of a store

Every store the crate can build has its scopes nested one level apart, the root unnamed and at
depth 1, and as many frozen scopes as its depth asks for, up to the limit. Nodes repeat the
remote chain of their store, and no barrier is ever set.

## Main definitions

* `WellFormed s`: the shape
* `CutTo d s s'`: `s'` is `s` with the scopes above depth `d` removed
* `Reachable s`: the stores built from `new` and `from_values_with_chain`

## Main results

* `popScope_cutTo`: what a pop leaves, whichever way `Arc::try_unwrap` goes
* `Reachable.wellFormed`: every reachable store has the shape
* `WellFormed.ext_frames`: a store of this shape is its frames, its depth and its surroundings
-/

namespace DContext

open Overlay

variable {U : TypeUniverse}

namespace ContextStore

/-- The nodes below a scope at depth `d` named `name`: one level apart down to the unnamed root,
each carrying the remote chain of the store. -/
def Nested (remote : List String) (base : Nat) : Nat → Option String → List (ScopeNode U) → Prop
  | d, name, [] => d = 1 ∧ name = none
  | d, _, n :: parent =>
    d = n.depth + 1 ∧ n.remoteChain = remote ∧ n.remoteChainBaseDepth = base ∧
      n.savedScopeBarrier = none ∧ Nested remote base n.depth n.name parent

/-- The shape of the stores the crate builds. -/
structure WellFormed (s : ContextStore U) : Prop where
  barrier : s.scopeBarrier = none
  base_le : s.remoteChainBaseDepth ≤ 1
  depth_pos : 0 < s.depth
  nested : Nested s.remoteChain s.remoteChainBaseDepth (min s.depth (maxScopeDepth + 1))
    s.currentName s.chain

theorem Nested.depth_eq {remote : List String} {base : Nat} {ns : List (ScopeNode U)} :
    ∀ {d : Nat} {name : Option String}, Nested remote base d name ns → d = ns.length + 1 := by
  induction ns with
  | nil => exact fun h => h.1
  | cons n parent ih =>
    intro d name h
    have hn : n.depth = parent.length + 1 := ih h.2.2.2.2
    rw [h.1, hn, List.length_cons]

theorem Nested.pos_of_mem {remote : List String} {base : Nat} {ns : List (ScopeNode U)} :
    ∀ {d : Nat} {name : Option String}, Nested remote base d name ns → ∀ n ∈ ns, 0 < n.depth := by
  induction ns with
  | nil => exact fun _ n hn => by cases hn
  | cons n parent ih =>
    intro d name h
    have hn : n.depth = parent.length + 1 := h.2.2.2.2.depth_eq
    exact List.forall_mem_cons.mpr ⟨by omega, ih h.2.2.2.2⟩

/-- In a nested chain the base depth, 0 or 1, hides no name. -/
theorem Nested.namesAbove_eq {remote : List String} {base : Nat} (hb : base ≤ 1)
    {ns : List (ScopeNode U)} :
    ∀ {d : Nat} {name : Option String}, Nested remote base d name ns →
      (if d > base then name.toList else []) ++ namesAbove 0 base ns =
        name.toList ++ ns.filterMap ScopeNode.name := by
  induction ns with
  | nil =>
    rintro d name ⟨-, rfl⟩
    simp [namesAbove]
  | cons n parent ih =>
    intro d name h
    have hn : n.depth = parent.length + 1 := h.2.2.2.2.depth_eq
    have hd : d > base := by
      rw [h.1]
      omega
    rw [if_pos hd, namesAbove, if_neg (by omega), ih h.2.2.2.2, List.filterMap_cons]
    cases n.name <;> rfl

namespace WellFormed

variable {s s' : ContextStore U}

theorem length_ownFrames (h : s.WellFormed) :
    s.ownFrames.length = min s.depth (maxScopeDepth + 1) := by
  rw [h.nested.depth_eq, ownFrames, List.length_cons, List.length_map]

theorem visibleMaps_eq (h : s.WellFormed) :
    s.visibleMaps = (s.ownFrames ++ s.inheritedFrames).map Frame.values := by
  have hall : (s.chain.takeWhile fun n => decide (0 < n.depth)) = s.chain :=
    List.takeWhile_eq_self_iff.mpr fun n hn => by
      simpa using h.nested.pos_of_mem n hn
  have hmap : ∀ ns : List (ScopeNode U),
      (ns.map ScopeNode.frame).map Frame.values = ns.map ScopeNode.values := fun ns => by
    rw [List.map_map]
    rfl
  rw [visibleMaps, h.barrier, Option.getD_none, hall, Option.isNone_none, if_pos rfl, ownFrames,
    inheritedFrames, List.cons_append, List.map_cons, List.map_append, List.map_append, hmap, hmap]

theorem getValue_eq (h : s.WellFormed) (key : Key) :
    s.getValue key = layered ((s.ownFrames ++ s.inheritedFrames).map Frame.values) key := by
  rw [getValue_eq_layered, h.visibleMaps_eq]

theorem collectValues_eq (h : s.WellFormed) :
    s.collectValues = flatten ((s.ownFrames ++ s.inheritedFrames).map Frame.values) := by
  rw [collectValues_eq_flatten, h.visibleMaps_eq]

theorem scopeChain_eq (h : s.WellFormed) (maxLen : Nat) :
    s.scopeChain maxLen =
      keepLast maxLen (s.remoteChain ++ namesOf s.inheritedFrames ++ namesOf s.ownFrames) := by
  have hlocal : (if s.depth > s.remoteChainBaseDepth then s.currentName.toList else []) ++
      namesAbove 0 s.remoteChainBaseDepth s.chain =
        s.currentName.toList ++ s.chain.filterMap ScopeNode.name := by
    rw [← h.nested.namesAbove_eq h.base_le]
    have hb := h.base_le
    have hiff : s.depth > s.remoteChainBaseDepth ↔
        min s.depth (maxScopeDepth + 1) > s.remoteChainBaseDepth := by
      unfold maxScopeDepth
      omega
    simp only [hiff]
  have hnames : ∀ ns : List (ScopeNode U),
      namesOf (ns.map ScopeNode.frame) = (ns.filterMap ScopeNode.name).reverse := fun ns => by
    rw [namesOf, List.filterMap_map]
    rfl
  rw [scopeChain, h.barrier, Option.getD_none, hlocal, Option.isNone_none, if_pos rfl,
    truncateChain_eq_keepLast, inheritedFrames, ownFrames, hnames, namesOf_cons, hnames,
    List.reverse_append]
  congr 2
  cases s.currentName <;> rfl

/-- A store of this shape is its frames, its depth and its surroundings. -/
theorem ext_frames (h : s.WellFormed) (h' : s'.WellFormed) (hdepth : s.depth = s'.depth)
    (hframes : s.ownFrames = s'.ownFrames) (hremote : s.remoteChain = s'.remoteChain)
    (hbase : s.remoteChainBaseDepth = s'.remoteChainBaseDepth)
    (hfrozen : s.frozenParent = s'.frozenParent) : s = s' := by
  -- Down the chain: the depths are forced by nesting, the remote chain and barrier by the shape.
  have hchain : ∀ (ns ns' : List (ScopeNode U)) (d : Nat) (name : Option String),
      Nested s.remoteChain s.remoteChainBaseDepth d name ns →
      Nested s.remoteChain s.remoteChainBaseDepth d name ns' →
      ns.map ScopeNode.frame = ns'.map ScopeNode.frame → ns = ns' := by
    intro ns
    induction ns with
    | nil => exact fun ns' d name _ _ he => (List.map_eq_nil_iff.mp he.symm).symm
    | cons n parent ih =>
      intro ns' d name hn hn' he
      cases ns' with
      | nil => cases he
      | cons n' parent' =>
        obtain ⟨hhead, htail⟩ := List.cons.inj he
        obtain ⟨hd, hr, hb, hs, hrest⟩ := hn
        obtain ⟨hd', hr', hb', hs', hrest'⟩ := hn'
        obtain ⟨hname, hvalues⟩ := Frame.mk.inj hhead
        have hdn : n.depth = n'.depth := by omega
        have hnode : n = n' := by
          cases n
          cases n'
          simp_all
        subst hnode
        rw [ih parent' _ _ hrest hrest' htail]
  obtain ⟨hhead, htail⟩ := List.cons.inj hframes
  obtain ⟨hname, hvalues⟩ := Frame.mk.inj hhead
  have hnested' := h'.nested
  rw [← hremote, ← hbase, ← hdepth, ← hname] at hnested'
  have hc : s.chain = s'.chain := hchain _ _ _ _ h.nested hnested' htail
  have hbar : s.scopeBarrier = s'.scopeBarrier := by rw [h.barrier, h'.barrier]
  cases s
  cases s'
  simp_all

end WellFormed

/-! ## Popping -/

/-- `s'` is `s` with the scopes above depth `d` removed, all else as it was. -/
structure CutTo (d : Nat) (s s' : ContextStore U) : Prop where
  wf : s'.WellFormed
  depth : s'.depth = d
  frames : s'.ownFrames =
    s.ownFrames.drop (s.ownFrames.length - min d (maxScopeDepth + 1))
  remote : s'.remoteChain = s.remoteChain
  base : s'.remoteChainBaseDepth = s.remoteChainBaseDepth
  frozen : s'.frozenParent = s.frozenParent

theorem restoreShared_eq (n : ScopeNode U) (parent : List (ScopeNode U)) (s : ContextStore U) :
    restoreShared n parent s = restoreOwned n parent s := by
  rw [restoreShared, Map.collect_keys]
  rfl

namespace CutTo

/-- A cut below a cut is a cut. -/
theorem trans {s s' s'' : ContextStore U} {d d' : Nat} (h : CutTo d s s') (hs : s.WellFormed)
    (hd : d ≤ s.depth) (hd' : d' ≤ d) (h' : CutTo d' s' s'') : CutTo d' s s'' := by
  have hlen := hs.length_ownFrames
  have hlen' := h.wf.length_ownFrames
  rw [h.depth] at hlen'
  refine ⟨h'.wf, h'.depth, ?_, h'.remote.trans h.remote, h'.base.trans h.base,
    h'.frozen.trans h.frozen⟩
  rw [h'.frames, hlen', h.frames, List.drop_drop]
  congr 1
  omega

/-- There is one store cut at a depth. -/
theorem unique {s s' s'' : ContextStore U} {d : Nat} (h : CutTo d s s') (h' : CutTo d s s'') :
    s' = s'' :=
  h.wf.ext_frames h'.wf (h.depth.trans h'.depth.symm) (h.frames.trans h'.frames.symm)
    (h.remote.trans h'.remote.symm) (h.base.trans h'.base.symm) (h.frozen.trans h'.frozen.symm)

/-- Restoring the innermost node removes the active scope. -/
theorem restoreOwned {s : ContextStore U} (hs : s.WellFormed) {n : ScopeNode U}
    {parent : List (ScopeNode U)} (hc : s.chain = n :: parent) :
    CutTo n.depth s (restoreOwned n parent s) := by
  have hn := hs.nested
  rw [hc] at hn
  obtain ⟨hd, hr, hb, hbarrier, hrest⟩ := hn
  have hlen := hs.length_ownFrames
  have hpos : n.depth = parent.length + 1 := hrest.depth_eq
  have hmin : min n.depth (maxScopeDepth + 1) = n.depth := Nat.min_eq_left (by omega)
  refine ⟨⟨hbarrier, hb.trans_le hs.base_le, ?_, ?_⟩, rfl, ?_, hr, hb, rfl⟩
  · show 0 < n.depth
    omega
  · show Nested n.remoteChain n.remoteChainBaseDepth (min n.depth (maxScopeDepth + 1)) n.name parent
    rw [hr, hb, hmin]
    exact hrest
  · rw [hmin, show s.ownFrames.length - n.depth = 1 by omega, ownFrames, ownFrames, hc]
    rfl

/-- Past the limit a lower depth is a cut by itself. -/
theorem ofDead {s : ContextStore U} (hs : s.WellFormed) {d : Nat} (hd : maxScopeDepth < d)
    (hle : d ≤ s.depth) : CutTo d s { s with depth := d } := by
  have hlen := hs.length_ownFrames
  have hmin : min d (maxScopeDepth + 1) = min s.depth (maxScopeDepth + 1) := by omega
  have hnested := hs.nested
  rw [← hmin] at hnested
  refine ⟨⟨hs.barrier, hs.base_le, Nat.zero_lt_of_lt hd, hnested⟩, rfl, ?_, rfl, rfl, rfl⟩
  rw [hmin, hlen, Nat.sub_self, List.drop_zero]
  rfl

end CutTo

theorem popDead_eq (e d : Nat) :
    popDead e d =
      if e ≤ d ∧ maxScopeDepth + 1 < d then max (e - 1) (maxScopeDepth + 1) else d := by
  induction d with
  | zero => simp [popDead]
  | succ d ih =>
    rw [popDead]
    by_cases h : d + 1 ≥ e ∧ d + 1 > maxScopeDepth + 1
    · rw [if_pos h, if_pos h, ih]
      split_ifs <;> omega
    · rw [if_neg h, if_neg h]

theorem popLoop_of_lt (shared : List (ScopeNode U) → Bool) {e : Nat} {s : ContextStore U}
    (h : s.depth < e) (ns : List (ScopeNode U)) (old : Option (ValueMap U)) :
    popLoop shared e ns s old = (s, old) := by
  have hdead : popDead e s.depth = s.depth := by
    rw [popDead_eq, if_neg (by omega)]
  cases ns with
  | nil => rw [popLoop, hdead]
  | cons n parent =>
    rw [popLoop, hdead, if_neg (by omega)]

/-- The loop of `pop_scope` cuts the store to the level below the expected depth. The induction is
on the chain: a dead counter is brought down first, then one node is restored. -/
theorem popLoop_cutTo (shared : List (ScopeNode U) → Bool) {e : Nat} (he : 1 < e)
    (ns : List (ScopeNode U)) :
    ∀ (s : ContextStore U) (old : Option (ValueMap U)), s.chain = ns → s.WellFormed →
      e ≤ s.depth → CutTo (e - 1) s (popLoop shared e ns s old).1 := by
  induction ns with
  | nil =>
    intro s old hc hwf hle
    have hlen := hwf.nested.depth_eq
    rw [hc] at hlen
    unfold maxScopeDepth at hlen
    simp only [List.length_nil] at hlen
    omega
  | cons n parent ih =>
    intro s old hc hwf hle
    have hn := hwf.nested
    rw [hc] at hn
    have hdepth : n.depth + 1 = min s.depth (maxScopeDepth + 1) := hn.1.symm
    rw [popLoop, restoreShared_eq, ite_self, popDead_eq]
    by_cases hreal : e ≤ maxScopeDepth + 1
    · have hd : (if e ≤ s.depth ∧ maxScopeDepth + 1 < s.depth then
          max (e - 1) (maxScopeDepth + 1) else s.depth) = min s.depth (maxScopeDepth + 1) := by
        split_ifs <;> omega
      have hcut : CutTo n.depth s (restoreOwned n parent s) := .restoreOwned hwf hc
      rw [hd, if_pos (by omega)]
      rcases Nat.lt_or_ge n.depth e with hdone | hmore
      · rw [popLoop_of_lt shared (s := restoreOwned n parent s) hdone,
          show e - 1 = n.depth by omega]
        exact hcut
      · have hrest := ih (restoreOwned n parent s) (some (addGarbage s.currentValues old)) rfl
          hcut.wf hmore
        exact hcut.trans hwf (by omega) (by omega) hrest
    · have hd : (if e ≤ s.depth ∧ maxScopeDepth + 1 < s.depth then
          max (e - 1) (maxScopeDepth + 1) else s.depth) = e - 1 := by
        split_ifs <;> omega
      rw [hd, if_neg (by omega)]
      exact .ofDead hwf (by omega) (by omega)

/-- **What a pop leaves**, whichever way `Arc::try_unwrap` goes: the store cut to the level below
the expected depth. -/
theorem popScope_cutTo (shared : List (ScopeNode U) → Bool) {e : Nat} {s : ContextStore U}
    (h : s.WellFormed) (he : 1 < e) (hle : e ≤ s.depth) :
    CutTo (e - 1) s (s.popScope shared e).1 := by
  rw [popScope, if_neg (by omega)]
  exact popLoop_cutTo shared he s.chain s none rfl h hle

theorem popScope_of_stale (shared : List (ScopeNode U) → Bool) {e : Nat} {s : ContextStore U}
    (h : s.depth < e ∨ e ≤ 1) : (s.popScope shared e).1 = s := by
  rw [popScope, if_pos h]

/-- Which nodes have other owners makes no difference to what a pop leaves. -/
theorem popScope_shared (shared shared' : List (ScopeNode U) → Bool) {s : ContextStore U}
    (h : s.WellFormed) (e : Nat) : (s.popScope shared e).1 = (s.popScope shared' e).1 := by
  by_cases hstale : s.depth < e ∨ e ≤ 1
  · rw [popScope_of_stale shared hstale, popScope_of_stale shared' hstale]
  · exact (popScope_cutTo shared h (by omega) (by omega)).unique
      (popScope_cutTo shared' h (by omega) (by omega))

/-- A pop leaves the store as it is exactly when the store does not reach the depth. -/
theorem popScope_eq_self_iff (shared : List (ScopeNode U) → Bool) {e : Nat} {s : ContextStore U}
    (h : s.WellFormed) (he : 1 < e) : (s.popScope shared e).1 = s ↔ s.depth < e := by
  constructor
  · intro heq
    by_contra hreach
    have hdepth := (popScope_cutTo shared h he (Nat.not_lt.mp hreach)).depth
    rw [heq] at hdepth
    omega
  · intro hstale
    exact popScope_of_stale shared (.inl hstale)

/-- **Two pops** are one, to the lower of the two depths. -/
theorem popScope_popScope (shared shared' shared'' : List (ScopeNode U) → Bool) {e e' : Nat}
    {s : ContextStore U} (h : s.WellFormed) (he : 1 < e) (he' : 1 < e') :
    ((s.popScope shared e).1.popScope shared' e').1 = (s.popScope shared'' (min e e')).1 := by
  rcases Nat.lt_or_ge s.depth e with hstale | hreach
  · rw [popScope_of_stale shared (.inl hstale)]
    rcases Nat.lt_or_ge s.depth e' with hstale' | hreach'
    · rw [popScope_of_stale shared' (.inl hstale'), popScope_of_stale shared'' (.inl (by omega))]
    · rw [Nat.min_eq_right (by omega)]
      exact (popScope_cutTo shared' h he' hreach').unique (popScope_cutTo shared'' h he' hreach')
  · have hcut := popScope_cutTo shared h he hreach
    have hdepth := hcut.depth
    rcases Nat.lt_or_ge e' e with hlower | hupper
    · rw [Nat.min_eq_right hlower.le]
      have hcut' := popScope_cutTo shared' hcut.wf he' (by omega)
      exact (hcut.trans h (by omega) (by omega) hcut').unique
        (popScope_cutTo shared'' h he' (by omega))
    · rw [popScope_of_stale shared' (.inl (by omega)), Nat.min_eq_left hupper]
      exact hcut.unique (popScope_cutTo shared'' h he hreach)

/-! ## Pushing, writing, forking -/

theorem pushScope_snd (registry : Registry U) (name : Option String) (s : ContextStore U) :
    (s.pushScope registry name).2 = s.depth + 1 := by
  unfold pushScope
  dsimp only
  split_ifs <;> rfl

theorem pushScope_of_le (registry : Registry U) (name : Option String) {s : ContextStore U}
    (h : s.depth ≤ maxScopeDepth) :
    (s.pushScope registry name).1 =
      { s with
        chain := s.freeze s.depth :: s.chain
        currentName := name
        currentValues := Map.collect registry.cachedKeys s.getValue
        depth := s.depth + 1 } := by
  unfold pushScope
  dsimp only
  rw [if_neg (by omega), Map.extend, Finmap.union_empty, Nat.add_sub_cancel]

theorem pushScope_of_lt (registry : Registry U) (name : Option String) {s : ContextStore U}
    (h : maxScopeDepth < s.depth) :
    (s.pushScope registry name).1 = { s with depth := s.depth + 1 } := by
  unfold pushScope
  dsimp only
  rw [if_pos (by omega)]

theorem depth_pushScope (registry : Registry U) (name : Option String) (s : ContextStore U) :
    (s.pushScope registry name).1.depth = s.depth + 1 := by
  rcases Nat.lt_or_ge maxScopeDepth s.depth with hd | hd
  · rw [pushScope_of_lt registry name hd]
  · rw [pushScope_of_le registry name hd]

/-- A push leaves what lies below the store's own scopes. -/
theorem env_pushScope (registry : Registry U) (name : Option String) (s : ContextStore U) :
    (s.pushScope registry name).1.inheritedFrames = s.inheritedFrames ∧
      (s.pushScope registry name).1.remoteChain = s.remoteChain := by
  rcases Nat.lt_or_ge maxScopeDepth s.depth with hd | hd
  · rw [pushScope_of_lt registry name hd]
    exact ⟨rfl, rfl⟩
  · rw [pushScope_of_le registry name hd]
    exact ⟨rfl, rfl⟩

theorem ownFrames_pushScope_of_lt (registry : Registry U) (name : Option String)
    {s : ContextStore U} (h : maxScopeDepth < s.depth) :
    (s.pushScope registry name).1.ownFrames = s.ownFrames := by
  rw [pushScope_of_lt registry name h]
  rfl

theorem ownFrames_pushScope_of_le (registry : Registry U) (name : Option String)
    {s : ContextStore U} (h : s.depth ≤ maxScopeDepth) :
    (s.pushScope registry name).1.ownFrames =
      ⟨name, Map.collect registry.cachedKeys s.getValue⟩ :: s.ownFrames := by
  rw [pushScope_of_le registry name h]
  rfl

theorem WellFormed.pushScope {s : ContextStore U} (h : s.WellFormed) (registry : Registry U)
    (name : Option String) : (s.pushScope registry name).1.WellFormed := by
  rcases Nat.lt_or_ge maxScopeDepth s.depth with hd | hd
  · rw [pushScope_of_lt registry name hd]
    have hmin : min (s.depth + 1) (maxScopeDepth + 1) = min s.depth (maxScopeDepth + 1) := by omega
    refine ⟨h.barrier, h.base_le, Nat.succ_pos _, ?_⟩
    show Nested _ _ (min (s.depth + 1) (maxScopeDepth + 1)) _ _
    rw [hmin]
    exact h.nested
  · rw [pushScope_of_le registry name hd]
    have hn := h.nested
    rw [Nat.min_eq_left (by omega)] at hn
    refine ⟨h.barrier, h.base_le, Nat.succ_pos _, ?_⟩
    show Nested _ _ (min (s.depth + 1) (maxScopeDepth + 1)) _ (s.freeze s.depth :: s.chain)
    exact ⟨Nat.min_eq_left (by omega), rfl, rfl, h.barrier, hn⟩

/-- A push changes no lookup: the new scope holds effective values only. -/
theorem WellFormed.getValue_pushScope {s : ContextStore U} (h : s.WellFormed)
    (registry : Registry U) (name : Option String) (key : Key) :
    (s.pushScope registry name).1.getValue key = s.getValue key := by
  have hpush := h.pushScope registry name
  rw [hpush.getValue_eq, (env_pushScope registry name s).1]
  rcases Nat.lt_or_ge maxScopeDepth s.depth with hd | hd
  · rw [ownFrames_pushScope_of_lt registry name hd, ← h.getValue_eq]
  · rw [ownFrames_pushScope_of_le registry name hd, List.cons_append, List.map_cons,
      layered_cons, ← h.getValue_eq, Map.lookup_collect]
    split_ifs
    · exact Option.or_self
    · exact Option.none_or

/-- Within the limit a push adds its name to the scope chain. -/
theorem WellFormed.scopeChain_pushScope {s : ContextStore U} (h : s.WellFormed)
    (registry : Registry U) (name : Option String) (hd : s.depth ≤ maxScopeDepth) (maxLen : Nat) :
    (s.pushScope registry name).1.scopeChain maxLen =
      keepLast maxLen (s.scopeChain maxLen ++ name.toList) := by
  obtain ⟨hinherited, hremote⟩ := env_pushScope registry name s
  rw [(h.pushScope registry name).scopeChain_eq, h.scopeChain_eq, keepLast_append_keepLast,
    hinherited, hremote, ownFrames_pushScope_of_le registry name hd, namesOf_cons]
  simp only [List.append_assoc]

theorem WellFormed.withValues {s : ContextStore U} (h : s.WellFormed) (m : ValueMap U) :
    { s with currentValues := m }.WellFormed :=
  ⟨h.barrier, h.base_le, h.depth_pos, h.nested⟩

theorem WellFormed.setValue {s : ContextStore U} (h : s.WellFormed) (key : Key)
    (value : ContextValue U) : (s.setValue key value).WellFormed :=
  h.withValues (s.currentValues.insert key value)

theorem WellFormed.mergeWith {s : ContextStore U} (h : s.WellFormed) (source : ContextStore U) :
    (s.mergeWith source).WellFormed :=
  h.withValues (s.currentValues.extend source.collectValues)

theorem WellFormed.popScope {s : ContextStore U} (h : s.WellFormed)
    (shared : List (ScopeNode U) → Bool) (e : Nat) : (s.popScope shared e).1.WellFormed := by
  by_cases hstale : s.depth < e ∨ e ≤ 1
  · rw [popScope_of_stale shared hstale]
    exact h
  · exact (popScope_cutTo shared h (by omega) (by omega)).wf

theorem WellFormed.new : (new : ContextStore U).WellFormed :=
  ⟨rfl, Nat.zero_le 1, Nat.one_pos, rfl, rfl⟩

theorem WellFormed.fromValuesWithChain (values : ValueMap U) (remoteChain : List String) :
    (fromValuesWithChain values remoteChain).WellFormed :=
  ⟨rfl, Nat.le_refl 1, Nat.one_pos, rfl, rfl⟩

theorem WellFormed.forkChild {s : ContextStore U} (h : s.WellFormed) : s.forkChild.WellFormed :=
  ⟨rfl, h.base_le, Nat.one_pos, rfl, rfl⟩

theorem ownFrames_forkChild (s : ContextStore U) : s.forkChild.ownFrames = [⟨none, ∅⟩] := rfl

theorem inheritedFrames_forkChild (s : ContextStore U) :
    s.forkChild.inheritedFrames = s.ownFrames := rfl

/-! ## Reachable stores -/

/-- The stores built from `new` and `from_values_with_chain` by the store's operations. -/
inductive Reachable : ContextStore U → Prop
  | new : Reachable new
  | fromValuesWithChain (values : ValueMap U) (remoteChain : List String) :
      Reachable (fromValuesWithChain values remoteChain)
  | pushScope {s : ContextStore U} (registry : Registry U) (name : Option String) :
      Reachable s → Reachable (s.pushScope registry name).1
  | popScope {s : ContextStore U} (shared : List (ScopeNode U) → Bool) (e : Nat) :
      Reachable s → Reachable (s.popScope shared e).1
  | setValue {s : ContextStore U} (key : Key) (value : ContextValue U) :
      Reachable s → Reachable (s.setValue key value)
  | mergeWith {s : ContextStore U} (source : ContextStore U) :
      Reachable s → Reachable (s.mergeWith source)
  | forkChild {s : ContextStore U} : Reachable s → Reachable s.forkChild

/-- **Every reachable store has the shape.** -/
theorem Reachable.wellFormed {s : ContextStore U} (h : s.Reachable) : s.WellFormed := by
  induction h with
  | new => exact .new
  | fromValuesWithChain values remoteChain => exact .fromValuesWithChain values remoteChain
  | pushScope registry name _ ih => exact ih.pushScope registry name
  | popScope shared e _ ih => exact ih.popScope shared e
  | setValue key value _ ih => exact ih.setValue key value
  | mergeWith source _ ih => exact ih.mergeWith source
  | forkChild _ ih => exact ih.forkChild

end ContextStore

end DContext
