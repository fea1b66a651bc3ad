import DContext.Store.WellFormed
import DContext.System.Run

/-!
# The store refines a depth-capped stack of overlay maps

What the store is for is a stack of overlay maps with a depth counter. The store computes it with
frozen nodes, a counter-only regime past the limit, and two ways of restoring a node; none of
them shows: every operation answers as the stack does and moves the stack it stands for.

## Main definitions

* `toStack s h`: the stack a store of the right shape stands for
* `StoreOp U`, `storeStep`: the store as a step system
* `StoreOp.abs`: the stack operation an operation stands for

## Main results

* `storeStep_refines`: one operation
* `store_refines_cappedStack`: every run, from every reachable store
-/

namespace DContext

open Overlay StepSystem

variable {U : TypeUniverse}

namespace ContextStore

/-- The stack of overlay maps a store stands for. -/
def toStack (s : ContextStore U) (h : s.WellFormed) :
    CappedStack maxScopeDepth Key String (ContextValue U) where
  depth := s.depth
  frames := s.ownFrames
  inherited := s.inheritedFrames
  remote := s.remoteChain
  depth_pos := h.depth_pos
  length_frames := h.length_ownFrames

theorem toStack_lookup {s : ContextStore U} (h : s.WellFormed) :
    (s.toStack h).lookup = s.getValue :=
  funext fun k => (h.getValue_eq k).symm

theorem toStack_pushScope {s : ContextStore U} (h : s.WellFormed) (registry : Registry U)
    (name : Option String) :
    (s.pushScope registry name).1.toStack (h.pushScope registry name) =
      (s.toStack h).push registry.cachedKeys name := by
  obtain ⟨hinherited, hremote⟩ := env_pushScope registry name s
  obtain ⟨hinherited', hremote'⟩ := CappedStack.push_env registry.cachedKeys name (s.toStack h)
  ext1
  · rw [CappedStack.push_depth]
    exact depth_pushScope registry name s
  · rcases Nat.lt_or_ge maxScopeDepth s.depth with hd | hd
    · exact (ownFrames_pushScope_of_lt registry name hd).trans
        (CappedStack.push_of_lt (s := s.toStack h) hd _ _).symm
    · rw [CappedStack.push_of_le (s := s.toStack h) hd, toStack_lookup h]
      exact ownFrames_pushScope_of_le registry name hd
  · exact hinherited.trans hinherited'.symm
  · exact hremote.trans hremote'.symm

theorem toStack_popScope {s : ContextStore U} (h : s.WellFormed)
    (shared : List (ScopeNode U) → Bool) (e : Nat) :
    (s.popScope shared e).1.toStack (h.popScope shared e) = (s.toStack h).pop e := by
  by_cases hstale : e ≤ 1 ∨ s.depth < e
  · have heq := popScope_of_stale shared hstale.symm
    rw [CappedStack.pop_of_stale hstale]
    ext1
    · exact congrArg ContextStore.depth heq
    · exact congrArg ownFrames heq
    · exact congrArg inheritedFrames heq
    · exact congrArg ContextStore.remoteChain heq
  · have hcut : CutTo (e - 1) s (s.popScope shared e).1 :=
      popScope_cutTo shared h (by omega) (by omega)
    rw [CappedStack.pop, dif_neg (show ¬ (e ≤ 1 ∨ (s.toStack h).depth < e) from hstale)]
    ext1
    · exact hcut.depth
    · exact hcut.frames
    · exact congrArg (List.map ScopeNode.frame) hcut.frozen
    · exact hcut.remote

theorem toStack_setValue {s : ContextStore U} (h : s.WellFormed) (key : Key)
    (value : ContextValue U) :
    (s.setValue key value).toStack (h.setValue key value) = (s.toStack h).set key value := rfl

/-- The operations of a store. A pop comes with the ownership of the nodes it meets. -/
inductive StoreOp (U : TypeUniverse)
  | pushScope (registry : Registry U) (name : Option String)
  | popScope (shared : List (ScopeNode U) → Bool) (expectedDepth : Nat)
  | setValue (key : Key) (value : ContextValue U)
  | getValue (key : Key)
  | collectValues
  | scopeChain (maxLen : Nat)

/-- The store as a step system. -/
def storeStep (s : ContextStore U) :
    StoreOp U → ContextStore U × CappedStack.Reply Key String (ContextValue U)
  | .pushScope registry name =>
      ((s.pushScope registry name).1, .depth (s.pushScope registry name).2)
  | .popScope shared e => ((s.popScope shared e).1, .done)
  | .setValue key value => (s.setValue key value, .done)
  | .getValue key => (s, .value (s.getValue key))
  | .collectValues => (s, .values s.collectValues)
  | .scopeChain maxLen => (s, .names (s.scopeChain maxLen))

/-- The stack operation a store operation stands for. -/
def StoreOp.abs : StoreOp U → CappedStack.Op Key String (ContextValue U)
  | .pushScope registry name => .push registry.cachedKeys name
  | .popScope _ e => .pop e
  | .setValue key value => .set key value
  | .getValue key => .lookup key
  | .collectValues => .values
  | .scopeChain maxLen => .names maxLen

/-- `s` stands for the stack `t`. -/
def StandsFor (s : ContextStore U) (t : CappedStack maxScopeDepth Key String (ContextValue U)) :
    Prop :=
  ∃ h : s.WellFormed, s.toStack h = t

/-- **One operation** of the store is the operation of the stack. -/
theorem storeStep_refines (s : ContextStore U)
    (t : CappedStack maxScopeDepth Key String (ContextValue U)) (op : StoreOp U)
    (h : s.StandsFor t) :
    (s.storeStep op).1.StandsFor (t.step op.abs).1 ∧ (s.storeStep op).2 = (t.step op.abs).2 := by
  obtain ⟨hwf, rfl⟩ := h
  cases op with
  | pushScope registry name =>
    refine ⟨⟨hwf.pushScope registry name, toStack_pushScope hwf registry name⟩, ?_⟩
    exact congrArg CappedStack.Reply.depth (pushScope_snd registry name s)
  | popScope shared e =>
    exact ⟨⟨hwf.popScope shared e, toStack_popScope hwf shared e⟩, rfl⟩
  | setValue key value => exact ⟨⟨hwf.setValue key value, toStack_setValue hwf key value⟩, rfl⟩
  | getValue key =>
    exact ⟨⟨hwf, rfl⟩, congrArg CappedStack.Reply.value (hwf.getValue_eq key)⟩
  | collectValues =>
    exact ⟨⟨hwf, rfl⟩, congrArg CappedStack.Reply.values hwf.collectValues_eq⟩
  | scopeChain maxLen =>
    exact ⟨⟨hwf, rfl⟩, congrArg CappedStack.Reply.names (hwf.scopeChain_eq maxLen)⟩

/-- **The store refines the capped stack**: from every reachable store, every run of operations
gets the replies of the stack and ends in a store that stands for the stack's final state,
whichever way each `Arc::try_unwrap` goes. -/
theorem store_refines_cappedStack {s : ContextStore U} (hs : s.Reachable)
    (ops : List (StoreOp U)) :
    (run storeStep s ops).2 =
        (run CappedStack.step (s.toStack hs.wellFormed) (ops.map StoreOp.abs)).2 ∧
      ∃ h : (run storeStep s ops).1.WellFormed,
        (run storeStep s ops).1.toStack h =
          (run CappedStack.step (s.toStack hs.wellFormed) (ops.map StoreOp.abs)).1 := by
  obtain ⟨hstate, hreplies⟩ :=
    run_simulates storeStep_refines ops s (s.toStack hs.wellFormed) ⟨hs.wellFormed, rfl⟩
  exact ⟨hreplies, hstate⟩

/-- A push, a write and a stale pop on a fresh store. -/
theorem store_refines_cappedStack_new :
    (run storeStep (new : ContextStore primitiveTypes)
        [.pushScope Registry.empty (some "a"), .setValue "k" (u64Value 1),
          .popScope (fun _ => true) 7, .getValue "k"]).2 =
      (run CappedStack.step ((new : ContextStore primitiveTypes).toStack WellFormed.new)
        [.push ∅ (some "a"), .set "k" (u64Value 1), .pop 7, .lookup "k"]).2 :=
  (store_refines_cappedStack Reachable.new
    [.pushScope Registry.empty (some "a"), .setValue "k" (u64Value 1),
      .popScope (fun _ => true) 7, .getValue "k"]).1

end ContextStore

end DContext
