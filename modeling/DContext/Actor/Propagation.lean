import DContext.Actor.Interceptors
import DContext.Future.Nesting
import DContext.Store.Names

/-!
# Restoring a context by hand

Before the inbound interceptor wrapped handlers, a handler restored its context by hand, with a
future around its own. The two ways differ in the scope of the call, which only the interceptor
opens. A handler that takes no notice of names does the same in both.

## Main definitions

* `PropagatedFuture F U`, `PropagatedFuture.poll`: the future of `with_propagated_context`
* `SameButNames cell cell'`: the cells differ in names at most
* `NameBlind innerPoll`: what is polled takes no notice of names

## Main results

* `initialContext_sameButNames`: both ways start from one context, up to names
* `propagated_agrees`: both ways poll alike
-/

namespace DContext

open Overlay StepSystem

variable {U : TypeUniverse} {F O : Type}

/-! ## The future -/

/-- The future of `with_propagated_context`: not polled yet, or waiting for the inner future, with a
context attached or as it is, or at its end. -/
inductive PropagatedFuture (F : Type) (U : TypeUniverse)
  | unresumed (headers : Headers U) (f : F)
  | attached (task : WithContext F U)
  | bare (f : F)
  | finished

namespace PropagatedFuture

/-- The poll of the inner future in its context, and what is left of the future after it. -/
def resumeAttached (innerPoll : PollFn F O U) (task : WithContext F U) (cell : Cell U) :
    Exit O × PropagatedFuture F U × Cell U :=
  match task.poll innerPoll cell with
  | (.returned .pending, task, cell) => (.returned .pending, .attached task, cell)
  | (exit, _, cell) => (exit, .finished, cell)

/-- The same for an inner future that is awaited as it is. -/
def resumeBare (innerPoll : PollFn F O U) (f : F) (cell : Cell U) :
    Exit O × PropagatedFuture F U × Cell U :=
  match innerPoll f cell with
  | (.returned .pending, f, cell) => (.returned .pending, .bare f, cell)
  | (exit, _, cell) => (exit, .finished, cell)

/-- Polling `with_propagated_context(ctx, f)`: the first poll extracts the context. -/
def poll (g : Globals U) (innerPoll : PollFn F O U) : PollFn (PropagatedFuture F U) O U
  | .unresumed headers f, cell =>
    match extractContext g headers with
    | some snap => resumeAttached innerPoll (Future.attach g f snap) cell
    | none => resumeBare innerPoll f cell
  | .attached task, cell => resumeAttached innerPoll task cell
  | .bare f, cell => resumeBare innerPoll f cell
  -- an async block panics when it is polled after its end
  | .finished, cell => (.unwound, .finished, cell)

end PropagatedFuture

/-! ## Cells that differ in names -/

/-- The cells differ in names at most. -/
def SameButNames (cell cell' : Cell U) : Prop :=
  cell.map (ContextStore.mapNames .erase) = cell'.map (ContextStore.mapNames .erase)

/-- What is polled takes no notice of names: in cells that differ in names it does the same, and
leaves such cells. -/
def NameBlind (innerPoll : PollFn F O U) : Prop :=
  ∀ fut cell cell', SameButNames cell cell' →
    (innerPoll fut cell).1 = (innerPoll fut cell').1 ∧
      (innerPoll fut cell).2.1 = (innerPoll fut cell').2.1 ∧
      SameButNames (innerPoll fut cell).2.2 (innerPoll fut cell').2.2

/-- Reading a value takes no notice of names. -/
theorem SameButNames.getContextVariable {cell cell' : Cell U} (h : SameButNames cell cell')
    (t : U.TypeId) (key : Key) :
    Thread.getContextVariable t key cell = Thread.getContextVariable t key cell' := by
  have herase : ∀ cell : Cell U, Thread.getContextVariable t key
      (cell.map (ContextStore.mapNames .erase)) = Thread.getContextVariable t key cell := by
    intro cell
    cases cell <;> simp [Thread.getContextVariable]
  rw [← herase cell, ← herase cell', h]

/-- **Both ways start from one context**, up to names. -/
theorem initialContext_sameButNames (g : Globals U) (shared : List (ScopeNode U) → Bool)
    (wrapper : HandlerWrapper U) (cell : Cell U) :
    SameButNames (some (HandlerFuture.initialContext g shared wrapper cell))
      (some (storeFromSnapshotWithRegistry wrapper.snapshot g.registry)) := by
  have hvalues : (storeFromSnapshotWithRegistry (wrapper.scopedSnapshot g shared cell).1
      g.registry).currentValues =
        (storeFromSnapshotWithRegistry wrapper.snapshot g.registry).currentValues := by
    apply Finmap.ext_lookup
    intro key
    have hread := HandlerFuture.getValue_initialContext g shared wrapper cell key
    rw [← getValue_storeFromSnapshot] at hread
    unfold HandlerFuture.initialContext storeFromSnapshotWithRegistry at hread
    rwa [ContextStore.getValue_fromValuesWithChain,
      ContextStore.getValue_fromValuesWithChain] at hread
  have herase : ∀ snap : ContextSnapshot U,
      (storeFromSnapshotWithRegistry snap g.registry).mapNames .erase =
        .fromValuesWithChain (storeFromSnapshotWithRegistry snap g.registry).currentValues [] := by
    intro snap
    unfold storeFromSnapshotWithRegistry ContextStore.fromValuesWithChain ContextStore.mapNames
    simp [NameMap.erase]
  unfold SameButNames HandlerFuture.initialContext
  rw [Option.map_some, Option.map_some, herase, herase, hvalues]

/-! ## Side by side -/

/-- The two futures after the same polls: waiting for the same future in contexts that differ in
names, or both at their end. -/
inductive Abreast : HandlerFuture F U → PropagatedFuture F U → Prop
  | waiting (inner : F) {store store' : Cell U} (h : SameButNames store store') :
      Abreast (.suspended ⟨inner, store⟩) (.attached ⟨inner, store'⟩)
  | finished : Abreast .finished .finished

/-- A poll that ends alike, on cells that differ in names. -/
def SameReply (reply reply' : Exit O × Cell U) : Prop :=
  reply.1 = reply'.1 ∧ SameButNames reply.2 reply'.2

section Abreast

variable {innerPoll : PollFn F O U}

theorem resume_abreast (hblind : NameBlind innerPoll) (inner : F) {store store' : Cell U}
    (h : SameButNames store store') (cell : Cell U) :
    let r := HandlerFuture.resume innerPoll ⟨inner, store⟩ cell
    let r' := PropagatedFuture.resumeAttached innerPoll ⟨inner, store'⟩ cell
    SameReply (r.1, r.2.2) (r'.1, r'.2.2) ∧ Abreast r.2.1 r'.2.1 := by
  obtain ⟨hexit, hinner, hleft⟩ := hblind inner store store' h
  unfold HandlerFuture.resume PropagatedFuture.resumeAttached
  rcases hpoll : innerPoll inner store with ⟨exit, next, left⟩
  rcases hpoll' : innerPoll inner store' with ⟨exit', next', left'⟩
  rw [hpoll, hpoll'] at hexit hinner hleft
  dsimp only at hexit hinner hleft
  subst hexit hinner
  cases exit with
  | returned result =>
    rw [WithContext.poll_of_returned hpoll, WithContext.poll_of_returned hpoll']
    cases result with
    | ready output => exact ⟨⟨rfl, rfl⟩, .finished⟩
    | pending => exact ⟨⟨rfl, rfl⟩, .waiting next hleft⟩
  | unwound =>
    rw [WithContext.poll_of_unwound hpoll, WithContext.poll_of_unwound hpoll']
    exact ⟨⟨rfl, hleft⟩, .finished⟩

theorem poll_abreast (hblind : NameBlind innerPoll) (g : Globals U)
    (shared : List (ScopeNode U) → Bool) {future : HandlerFuture F U}
    {future' : PropagatedFuture F U} (h : Abreast future future') (cell : Cell U) :
    let r := future.poll g shared innerPoll cell
    let r' := future'.poll g innerPoll cell
    SameReply (r.1, r.2.2) (r'.1, r'.2.2) ∧ Abreast r.2.1 r'.2.1 := by
  cases h with
  | waiting inner h => exact resume_abreast hblind inner h cell
  | finished => exact ⟨⟨rfl, rfl⟩, .finished⟩

theorem run_abreast (hblind : NameBlind innerPoll) (g : Globals U)
    (shared : List (ScopeNode U) → Bool) (cells : List (Cell U)) :
    ∀ {future : HandlerFuture F U} {future' : PropagatedFuture F U}, Abreast future future' →
      List.Forall₂ SameReply (run (pollStep (HandlerFuture.poll g shared innerPoll)) future cells).2
        (run (pollStep (PropagatedFuture.poll g innerPoll)) future' cells).2 := by
  induction cells with
  | nil => exact fun _ => .nil
  | cons cell cells ih =>
    intro future future' h
    obtain ⟨hreply, hnext⟩ := poll_abreast hblind g shared h cell
    exact .cons hreply (ih hnext)

end Abreast

/-- **Restoring by hand agrees with the interceptor.** A message gets a wrapper exactly when there
is a context to restore by hand, from its headers as they came or as the interceptor leaves them. A
handler that takes no notice of names is then polled alike in both ways, however often and on
whatever threads; and the scope chain that it starts with differs by the scope of the call. -/
theorem propagated_agrees (policy : ErrorPolicy) (g : Globals U) (headers : Headers U)
    (actorName : String) (shared : List (ScopeNode U) → Bool) (innerPoll : PollFn F O U)
    (hblind : NameBlind innerPoll) (next : F) (cells : List (Cell U)) :
    let received := (onReceive policy g headers).1
    let byHand := fun headers =>
      (run (pollStep (PropagatedFuture.poll g innerPoll)) (.unresumed headers next) cells).2
    (wrapHandler actorName received).map HandlerWrapper.snapshot = extractContext g headers ∧
      byHand received = byHand headers ∧
      ∀ wrapper, wrapHandler actorName received = some wrapper →
        List.Forall₂ SameReply
            (run (pollStep (HandlerFuture.poll g shared innerPoll)) (wrapper.call next) cells).2
            (byHand headers) ∧
          ∀ cell, (HandlerFuture.initialContext g shared wrapper cell).scopeChain
              g.maxScopeChainLen =
            keepLast g.maxScopeChainLen
              ((storeFromSnapshotWithRegistry wrapper.snapshot g.registry).scopeChain
                g.maxScopeChainLen ++ ["remote:" ++ actorName]) := by
  intro received byHand
  obtain ⟨hwrapper, hextract⟩ := extractContext_onReceive policy g headers actorName
  refine ⟨hwrapper, ?_, fun wrapper hsome => ⟨?_, fun cell => ?_⟩⟩
  · cases cells with
    | nil => rfl
    | cons cell cells =>
      have hfirst : PropagatedFuture.poll g innerPoll (.unresumed received next) cell =
          PropagatedFuture.poll g innerPoll (.unresumed headers next) cell := by
        simp only [PropagatedFuture.poll]
        rw [hextract]
      show (run _ _ (cell :: cells)).2 = (run _ _ (cell :: cells)).2
      rw [run_cons, run_cons, pollStep, pollStep, hfirst]
  · rw [hsome, Option.map_some] at hwrapper
    cases cells with
    | nil => exact .nil
    | cons cell cells =>
      have hfirst : PropagatedFuture.poll g innerPoll (.unresumed headers next) cell =
          PropagatedFuture.resumeAttached innerPoll (Future.attach g next wrapper.snapshot)
            cell := by
        simp only [PropagatedFuture.poll, ← hwrapper]
      obtain ⟨hreply, hrest⟩ := resume_abreast hblind next
        (initialContext_sameButNames g shared wrapper cell) cell
      show List.Forall₂ SameReply (run _ _ (cell :: cells)).2 (run _ _ (cell :: cells)).2
      rw [run_cons, run_cons, pollStep, pollStep, HandlerFuture.poll_unresumed, hfirst]
      exact .cons hreply (run_abreast hblind g shared cells hrest)
  · have hname : wrapper.scopeName = "remote:" ++ actorName := by
      obtain ⟨header, -, rfl⟩ := Option.map_eq_some_iff.mp hsome
      rfl
    rw [HandlerFuture.scopeChain_initialContext, scopeChain_storeFromSnapshot,
      keepLast_append_keepLast, hname]

/-- A handler that reads a number. -/
def reader : PollFn Unit (Option (primitiveTypes.El .u64)) primitiveTypes := fun fut cell =>
  (.returned (.ready (Thread.getContextVariable PrimitiveType.u64 "k" cell)), fut, cell)

theorem reader_nameBlind : NameBlind reader := by
  intro fut cell cell' h
  have hread := h.getContextVariable PrimitiveType.u64 "k"
  refine ⟨?_, rfl, h⟩
  unfold reader
  rw [hread]

/-- A message with a number, from under one scope. -/
def numberHeaders : Headers primitiveTypes :=
  Finmap.insert HeaderType.snapshot ⟨⟨Finmap.insert "k" (u64Value 7) ∅, ["a"]⟩⟩ ∅

/-- The handler of the number reads it in both ways. -/
theorem propagated_agrees_reader :
    ∃ wrapper, wrapHandler "b" numberHeaders = some wrapper ∧
      List.Forall₂ SameReply
        (run (pollStep (HandlerFuture.poll (.withRegistry ⟨buildMap numberCalls⟩) (fun _ => true)
          reader)) (wrapper.call ()) [none]).2
        [(.returned (.ready (some (7 : UInt64))), none)] := by
  have hagrees := propagated_agrees .reject (.withRegistry ⟨buildMap numberCalls⟩) numberHeaders
    "b" (fun _ => true) reader reader_nameBlind () [none]
  exact ⟨_, rfl, (hagrees.2.2 _ rfl).1⟩

end DContext
