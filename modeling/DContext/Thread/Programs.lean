import DContext.Future.WithContext

/-!
# Programs over one thread

Programs built from the public functions by sequencing, with scopes and attached stores as blocks
whose guard is dropped at the end, and with polls of wrapped futures that run programs of their
own. A program may use what it has read, and keep stores and snapshots past the block that made
them.

## Main definitions

* `Prog U α`: programs with a result of type `α`
* `Prog.run`: what a program does to the cell of its thread
* `Prog.ClearFree`: `clear` occurs inside attached stores and wrapped futures only
* `ContextStore.TopOnly s s'`: `s'` is `s` but for the values of its active scope

## Main results

* `run_pushScope_block`: a scope block leaves the store as it was
* `run_topOnly`: a program changes the values of the active scope only
* `scoped_rollback`: every block of every program undoes what happens inside
-/

namespace DContext

open Overlay

variable {U : TypeUniverse}

/-- Programs over the context of one thread, with a result of type `α`. The block of a scope comes
with the ownership of the nodes its guard meets. -/
inductive Prog (U : TypeUniverse) : Type → Type 1
  | pure {α : Type} (a : α) : Prog U α
  | bind {α β : Type} (p : Prog U α) (k : α → Prog U β) : Prog U β
  | setContextVariable (t : U.TypeId) (key : Key) (value : U.El t) : Prog U Unit
  /-- The callback is user code, so it may be a program too. -/
  | updateContextVariable (t : U.TypeId) (key : Key) (f : U.El t → Prog U (U.El t)) : Prog U Unit
  | mergeWith (source : ContextStore U) : Prog U Unit
  | getContextVariable (t : U.TypeId) (key : Key) : Prog U (Option (U.El t))
  | capture : Prog U (ContextSnapshot U)
  | fork : Prog U (ContextStore U)
  | scopeChain : Prog U (List String)
  | clear : Prog U Unit
  /-- `push_scope(name)`, the body, and the drop of the guard. -/
  | pushScope {α : Type} (name : String) (shared : List (ScopeNode U) → Bool) (body : Prog U α) :
      Prog U α
  /-- `attach_store(store)`, the body, and the drop of the guard. -/
  | attachStore {α : Type} (store : ContextStore U) (body : Prog U α) : Prog U α
  /-- `attach_snapshot(snap)`, the body, and the drop of the guard. -/
  | attachSnapshot {α : Type} (snap : ContextSnapshot U) (body : Prog U α) : Prog U α
  /-- One poll of a wrapped future with this store; the store it keeps is part of the result. -/
  | poll {α : Type} (store : Option (ContextStore U)) (body : Prog U α) :
      Prog U (α × Option (ContextStore U))

namespace Prog

/-- The result of a program, and the cell when it ends. -/
def run (g : Globals U) : {α : Type} → Prog U α → Cell U → α × Cell U
  | _, .pure a, cell => (a, cell)
  | _, .bind p k, cell =>
    let r := p.run g cell
    (k r.1).run g r.2
  | _, .setContextVariable t key value, cell => ((), Thread.setContextVariable t key value cell)
  | _, .updateContextVariable t key f, cell =>
    let old := (Thread.getContextVariable t key cell).getD (U.default t)
    let (new, cell) := (f old).run g cell
    ((), Thread.setContextVariable t key new cell)
  | _, .mergeWith source, cell => ((), Thread.mergeWith source cell)
  | _, .getContextVariable t key, cell => (Thread.getContextVariable t key cell, cell)
  | _, .capture, cell => (Thread.capture g cell, cell)
  | _, .fork, cell => (Thread.fork cell, cell)
  | _, .scopeChain, cell => (Thread.scopeChain g cell, cell)
  | _, .clear, cell => ((), Thread.clear cell)
  | _, .pushScope name shared body, cell =>
    let (cell, guard) := Thread.pushScope g name cell
    let (a, cell) := body.run g cell
    (a, guard.drop shared cell)
  | _, .attachStore store body, cell =>
    let (cell, guard) := Thread.attachStore store cell
    let (a, _) := body.run g cell
    (a, guard.drop)
  | _, .attachSnapshot snap body, cell =>
    let (cell, guard) := Thread.attachSnapshot g snap cell
    let (a, _) := body.run g cell
    (a, guard.drop)
  | _, .poll store body, cell =>
    let (w, cell, prev) := (⟨(), store⟩ : WithContext Unit U).swapIn cell
    let (a, cell) := body.run g cell
    let (w, cell) := w.swapOut cell prev
    ((a, w.store), cell)

/-- An update whose callback leaves the context alone is `update_context_variable` of it. -/
theorem run_update_pure (g : Globals U) (t : U.TypeId) (key : Key) (f : U.El t → U.El t)
    (cell : Cell U) :
    (Prog.updateContextVariable t key fun old => .pure (f old)).run g cell =
      ((), Thread.updateContextVariable t key f cell) := rfl

/-- The poll of a program is the poll of a wrapped future whose inner poll runs the body. -/
theorem run_poll {α : Type} (g : Globals U) (store : Option (ContextStore U)) (body : Prog U α)
    (cell : Cell U) :
    (⟨(), store⟩ : WithContext Unit U).poll
        (fun fut cell => (.returned (.ready (body.run g cell).1), fut, (body.run g cell).2)) cell =
      let r := (Prog.poll store body).run g cell
      (.returned (.ready r.1.1), ⟨(), r.1.2⟩, r.2) := rfl

/-- `clear` occurs inside attached stores and wrapped futures only. -/
def ClearFree : {α : Type} → Prog U α → Prop
  | _, .clear => False
  | _, .bind p k => p.ClearFree ∧ ∀ a, (k a).ClearFree
  | _, .updateContextVariable _ _ f => ∀ old, (f old).ClearFree
  | _, .pushScope _ _ body => body.ClearFree
  | _, _ => True

end Prog

/-! ## What a program can change -/

namespace ContextStore

/-- `s'` is `s` but for the values of its active scope. Only past the limit, where a guard may be
the no-op guard, can the depth have grown. -/
structure TopOnly (s s' : ContextStore U) : Prop where
  eq : s' = { s with currentValues := s'.currentValues, depth := s'.depth }
  depth_le : s.depth ≤ s'.depth
  depth_eq : s.depth ≤ maxScopeDepth → s'.depth = s.depth

theorem TopOnly.refl (s : ContextStore U) : TopOnly s s := ⟨rfl, Nat.le_refl _, fun _ => rfl⟩

theorem TopOnly.trans {s s' s'' : ContextStore U} (h : TopOnly s s') (h' : TopOnly s' s'') :
    TopOnly s s'' := by
  refine ⟨?_, h.depth_le.trans h'.depth_le, ?_⟩
  · rw [h'.eq, h.eq]
  · intro hd
    rw [h'.depth_eq ((h.depth_eq hd).trans_le hd), h.depth_eq hd]

theorem TopOnly.withValues (s : ContextStore U) (m : ValueMap U) :
    TopOnly s { s with currentValues := m } := ⟨rfl, Nat.le_refl _, fun _ => rfl⟩

/-- The frames below the active scope are those of `s`. -/
theorem TopOnly.tail_ownFrames {s s' : ContextStore U} (h : TopOnly s s') :
    s'.ownFrames.drop 1 = s.ownFrames.drop 1 := by
  rw [h.eq]
  rfl

theorem TopOnly.min_depth {s s' : ContextStore U} (h : TopOnly s s') :
    min s'.depth (maxScopeDepth + 1) = min s.depth (maxScopeDepth + 1) := by
  have hle := h.depth_le
  rcases Nat.lt_or_ge maxScopeDepth s.depth with hd | hd
  · omega
  · rw [h.depth_eq hd]

theorem TopOnly.wellFormed {s s' : ContextStore U} (h : TopOnly s s') (hs : s.WellFormed) :
    s'.WellFormed := by
  have hmin := h.min_depth
  have hpos := h.depth_le
  rw [h.eq]
  refine ⟨hs.barrier, hs.base_le, hs.depth_pos.trans_le hpos, ?_⟩
  show Nested _ _ (min s'.depth (maxScopeDepth + 1)) _ _
  rw [hmin]
  exact hs.nested

/-- What happens between a push within the limit and the pop of its guard is undone. -/
theorem TopOnly.popScope_of_le {s s' : ContextStore U} (hs : s.WellFormed) (registry : Registry U)
    (name : Option String) (hd : s.depth ≤ maxScopeDepth)
    (h : TopOnly (s.pushScope registry name).1 s') (shared : List (ScopeNode U) → Bool) :
    (s'.popScope shared (s.depth + 1)).1 = s := by
  have hpush := pushScope_of_le registry name hd
  have hs' : s'.WellFormed := h.wellFormed (hs.pushScope registry name)
  have hpos := hs.depth_pos
  have hcut := popScope_cutTo shared hs' (show 1 < s.depth + 1 by omega) (by
    rw [← depth_pushScope registry name]
    exact h.depth_le)
  rw [Nat.add_sub_cancel] at hcut
  refine hcut.wf.ext_frames hs hcut.depth ?_ ?_ ?_ ?_
  · have hone : s'.ownFrames.length - min s.depth (maxScopeDepth + 1) = 1 := by
      rw [hs'.length_ownFrames, h.min_depth, depth_pushScope]
      omega
    rw [hcut.frames, hone, h.tail_ownFrames, ownFrames_pushScope_of_le registry name hd]
    rfl
  · rw [hcut.remote, h.eq, hpush]
  · rw [hcut.base, h.eq, hpush]
  · rw [hcut.frozen, h.eq, hpush]

/-- Past the limit a push and the pop of its guard only count. -/
theorem TopOnly.popScope_of_lt {s s' : ContextStore U} (hs : s.WellFormed) (registry : Registry U)
    (name : Option String) (hd : maxScopeDepth < s.depth)
    (h : TopOnly (s.pushScope registry name).1 s') (shared : List (ScopeNode U) → Bool) :
    TopOnly s (s'.popScope shared (s.depth + 1)).1 := by
  have hpush := pushScope_of_lt registry name hd
  have hs' : s'.WellFormed := h.wellFormed (hs.pushScope registry name)
  have hpos := hs.depth_pos
  have hle := h.depth_le
  rw [hpush] at h
  have hcut := popScope_cutTo shared hs' (show 1 < s.depth + 1 by omega) (by
    rw [hpush] at hle
    exact hle)
  rw [Nat.add_sub_cancel] at hcut
  have hwf : { s' with depth := s.depth }.WellFormed := by
    rw [h.eq]
    exact hs.withValues s'.currentValues
  have heq : (s'.popScope shared (s.depth + 1)).1 = { s' with depth := s.depth } := by
    refine hcut.wf.ext_frames hwf hcut.depth ?_ hcut.remote hcut.base hcut.frozen
    have hnone : s'.ownFrames.length - min s.depth (maxScopeDepth + 1) = 0 := by
      rw [hs'.length_ownFrames]
      omega
    rw [hcut.frames, hnone, List.drop_zero]
    rfl
  rw [heq, h.eq]
  exact ⟨rfl, Nat.le_refl _, fun _ => rfl⟩

end ContextStore

namespace Prog

open ContextStore

/-- **A scope block** within the limit leaves the store as it was, if its body changes the active
scope only. -/
theorem run_pushScope_block {α : Type} (g : Globals U) (name : String)
    (shared : List (ScopeNode U) → Bool) (body : Prog U α) {s : ContextStore U}
    (hs : s.WellFormed) (hd : s.depth ≤ maxScopeDepth)
    (hbody : ∃ s', (body.run g (some (s.pushScope g.registry (some name)).1)).2 = some s' ∧
      TopOnly (s.pushScope g.registry (some name)).1 s') :
    ((Prog.pushScope name shared body).run g (some s)).2 = some s := by
  obtain ⟨s', hrun, htop⟩ := hbody
  have hreal : ¬ s.depth + 1 = usizeMax := by
    unfold maxScopeDepth at hd
    unfold usizeMax
    omega
  simp only [run, Thread.pushScope_some, hrun, Thread.scopeGuard_drop, if_neg hreal]
  rw [htop.popScope_of_le hs g.registry (some name) hd shared]

/-- **A program changes the values of the active scope only.** The induction is on the program;
blocks undo what their body does, and the body of a scope is treated on the pushed scope. -/
theorem run_topOnly {α : Type} (g : Globals U) (p : Prog U α) (hp : p.ClearFree) :
    ∀ s : ContextStore U, s.WellFormed → ∃ s', (p.run g (some s)).2 = some s' ∧ TopOnly s s' := by
  induction p with
  | pure a => exact fun s _ => ⟨s, rfl, .refl s⟩
  | bind p k ihp ihk =>
    intro s hs
    obtain ⟨s₁, hrun₁, htop₁⟩ := ihp hp.1 s hs
    obtain ⟨s₂, hrun₂, htop₂⟩ := ihk (p.run g (some s)).1 (hp.2 _) s₁ (htop₁.wellFormed hs)
    refine ⟨s₂, ?_, htop₁.trans htop₂⟩
    rw [← hrun₁] at hrun₂
    exact hrun₂
  | setContextVariable t key value => exact fun s _ => ⟨_, rfl, .withValues s _⟩
  | updateContextVariable t key f ih =>
    intro s hs
    obtain ⟨s', hrun, htop⟩ :=
      ih ((Thread.getContextVariable t key (some s)).getD (U.default t)) (hp _) s hs
    simp only [run, hrun]
    exact ⟨_, rfl, htop.trans (.withValues s' _)⟩
  | mergeWith source => exact fun s _ => ⟨_, rfl, .withValues s _⟩
  | getContextVariable t key => exact fun s _ => ⟨s, rfl, .refl s⟩
  | capture => exact fun s _ => ⟨s, rfl, .refl s⟩
  | fork => exact fun s _ => ⟨s, rfl, .refl s⟩
  | scopeChain => exact fun s _ => ⟨s, rfl, .refl s⟩
  | clear => exact hp.elim
  | pushScope name shared body ih =>
    intro s hs
    have hbody := ih hp _ (hs.pushScope g.registry (some name))
    rcases Nat.lt_or_ge maxScopeDepth s.depth with hd | hd
    · obtain ⟨s', hrun, htop⟩ := hbody
      simp only [run, Thread.pushScope_some, hrun, Thread.scopeGuard_drop]
      refine ⟨_, rfl, ?_⟩
      split_ifs with hmax
      · have hpush := pushScope_of_lt g.registry (some name) hd
        rw [hpush] at htop
        refine ⟨?_, (Nat.le_succ _).trans htop.depth_le, fun h => absurd h (Nat.not_le.mpr hd)⟩
        rw [htop.eq]
      · exact htop.popScope_of_lt hs g.registry (some name) hd shared
    · exact ⟨s, run_pushScope_block g name shared body hs hd hbody, .refl s⟩
  | attachStore store body ih => exact fun s _ => ⟨s, rfl, .refl s⟩
  | attachSnapshot snap body ih => exact fun s _ => ⟨s, rfl, .refl s⟩
  | poll store body ih => exact fun s _ => ⟨s, rfl, .refl s⟩

/-- **Scoped rollback**: from every reachable store, a block of an attached store or snapshot
leaves the store as it was, and so does the block of a scope within the limit. -/
theorem scoped_rollback (g : Globals U) {s : ContextStore U} (hs : s.Reachable) :
    (∀ {α : Type} (store : ContextStore U) (p : Prog U α),
        ((Prog.attachStore store p).run g (some s)).2 = some s) ∧
      (∀ {α : Type} (snap : ContextSnapshot U) (p : Prog U α),
        ((Prog.attachSnapshot snap p).run g (some s)).2 = some s) ∧
      (s.depth ≤ maxScopeDepth →
        ∀ {α : Type} (name : String) (shared : List (ScopeNode U) → Bool) (p : Prog U α),
          p.ClearFree → ((Prog.pushScope name shared p).run g (some s)).2 = some s) := by
  refine ⟨fun store p => rfl, fun snap p => rfl, ?_⟩
  intro hd α name shared p hp
  have hbody := run_topOnly g p hp _ (hs.wellFormed.pushScope g.registry (some name))
  exact run_pushScope_block g name shared p hs.wellFormed hd hbody

/-- A scope that writes, forks and opens another scope, on a new thread. -/
theorem scoped_rollback_new :
    ((Prog.pushScope "request" (fun _ => true)
        (.bind (.setContextVariable PrimitiveType.u64 "user" (7 : UInt64)) fun _ =>
          .bind .fork fun child => .pushScope "inner" (fun _ => true) (.mergeWith child)) :
        Prog primitiveTypes Unit).run (.withRegistry .empty) (some .new)).2 = some .new :=
  (scoped_rollback (.withRegistry .empty) .new).2.2 (by decide) "request" (fun _ => true) _
    ⟨trivial, fun _ => ⟨trivial, fun _ => trivial⟩⟩

end Prog

end DContext
