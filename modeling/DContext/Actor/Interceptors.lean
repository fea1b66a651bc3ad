import DContext.Actor.Headers
import DContext.Thread.Programs

/-!
# The interceptors of the actor runtime

The outbound interceptor captures the context of the sender into a header. The inbound interceptor
turns bytes into a snapshot, and wraps the future of the handler: its first poll attaches the
snapshot once to push a scope for the call and capture the result, and then polls the handler with
that attached.

## Main definitions

* `ErrorPolicy`, `Disposition`: what is done about a failure
* `onSend`, `onReceive`, `wrapHandler`: the interceptors
* `HandlerFuture F U`, `HandlerFuture.poll`: the future that `wrap_handler` makes
* `extractContext`: reading the headers by hand

## Main results

* `extractContext_onReceive`: receiving makes the same snapshot as reading by hand
* `getValue_initialContext`, `scopeChain_initialContext`: what the handler finds
* `HandlerFuture.poll_returned`: a poll that returns leaves the cell as it was
-/

namespace DContext

open Overlay

variable {U : TypeUniverse} {F O : Type}

/-- `ErrorPolicy`. -/
inductive ErrorPolicy
  | logAndContinue
  | reject
  deriving DecidableEq, Repr

/-- `Disposition`, as far as the interceptors use it. -/
inductive Disposition
  | «continue»
  | reject (reason : String)
  deriving DecidableEq, Repr

/-- What an interceptor answers after a failure, which it has logged. -/
def ErrorPolicy.disposition (policy : ErrorPolicy) (reason : String) : Disposition :=
  if policy = .reject then .reject reason else .«continue»

/-- `ContextOutboundInterceptor::on_send`, on a thread with this cell. -/
def onSend (policy : ErrorPolicy) (g : Globals U) (iter : IterationOrder U) (remote : Bool)
    (cell : Cell U) (headers : Headers U) : Headers U × Disposition :=
  if remote then
    match (Thread.capture g cell).serialize g iter with
    | .ok bytes => (headers.insert .context ⟨bytes⟩, .«continue»)
    | .error e => (headers, policy.disposition ("dcontext serialization failed: " ++ e.display))
  else (headers.insert .snapshot ⟨Thread.capture g cell⟩, .«continue»)

/-- `bytes_to_snapshot`. -/
def bytesToSnapshot (g : Globals U) (bytes : Bytes) : Option (ContextSnapshot U) :=
  (ContextSnapshot.deserialize g bytes).toOption

/-- `ContextInboundInterceptor::on_receive`. -/
def onReceive (policy : ErrorPolicy) (g : Globals U) (headers : Headers U) :
    Headers U × Disposition :=
  if (headers.lookup HeaderType.snapshot).isSome then (headers, .«continue»)
  else
    match headers.lookup HeaderType.context with
    | some wireHeader =>
      match bytesToSnapshot g wireHeader.bytes with
      | some snap => (headers.insert .snapshot ⟨snap⟩, .«continue»)
      | none =>
        (headers, policy.disposition "dcontext deserialization failed: corrupt wire bytes")
    | none => (headers, .«continue»)

/-- The closure that `wrap_handler` returns, by what it captures. -/
structure HandlerWrapper (U : TypeUniverse) where
  snapshot : ContextSnapshot U
  scopeName : String

/-- `ContextInboundInterceptor::wrap_handler`. -/
def wrapHandler (actorName : String) (headers : Headers U) : Option (HandlerWrapper U) :=
  (headers.lookup HeaderType.snapshot).map fun header => ⟨header.snapshot, "remote:" ++ actorName⟩

/-- `extract_context`. -/
def extractContext (g : Globals U) (headers : Headers U) : Option (ContextSnapshot U) :=
  match headers.lookup HeaderType.snapshot with
  | some header => some header.snapshot
  | none => (headers.lookup HeaderType.context).bind fun header => bytesToSnapshot g header.bytes

/-- **Receiving makes the snapshot** that `extract_context` would read from the headers, before
and after. -/
theorem extractContext_onReceive (policy : ErrorPolicy) (g : Globals U) (headers : Headers U)
    (actorName : String) :
    (wrapHandler actorName (onReceive policy g headers).1).map HandlerWrapper.snapshot =
        extractContext g headers ∧
      extractContext g (onReceive policy g headers).1 = extractContext g headers := by
  unfold onReceive extractContext wrapHandler
  cases hsnapshot : headers.lookup HeaderType.snapshot with
  | some header => simp [hsnapshot]
  | none =>
    cases hcontext : headers.lookup HeaderType.context with
    | none => simp [hsnapshot, hcontext]
    | some header =>
      cases hsnap : bytesToSnapshot g header.bytes with
      | none => simp [hsnapshot, hcontext, hsnap]
      | some snap => simp [hsnap]

/-! ## The wrapped handler -/

/-- The future that `wrap_handler` makes of the future of a handler: not polled yet, or waiting for
the handler, or at its end. -/
inductive HandlerFuture (F : Type) (U : TypeUniverse)
  | unresumed (wrapper : HandlerWrapper U) (next : F)
  | suspended (task : WithContext F U)
  | finished

namespace HandlerWrapper

/-- Calling the closure. -/
def call (wrapper : HandlerWrapper U) (next : F) : HandlerFuture F U := .unresumed wrapper next

/-- The first block of the future, which is ready at its first poll: with the snapshot attached, a
scope is pushed, captured and left. `shared` is what its guard meets. -/
def scopedSnapshot (g : Globals U) (shared : List (ScopeNode U) → Bool)
    (wrapper : HandlerWrapper U) (cell : Cell U) : ContextSnapshot U × Cell U :=
  let r := (Prog.poll (some (storeFromSnapshotWithRegistry wrapper.snapshot g.registry))
    (.pushScope wrapper.scopeName shared .capture)).run g cell
  (r.1.1, r.2)

end HandlerWrapper

namespace HandlerFuture

/-- The poll of the handler, and what is left of the future after it. -/
def resume (innerPoll : PollFn F O U) (task : WithContext F U) (cell : Cell U) :
    Exit O × HandlerFuture F U × Cell U :=
  match task.poll innerPoll cell with
  | (.returned .pending, task, cell) => (.returned .pending, .suspended task, cell)
  | (exit, _, cell) => (exit, .finished, cell)

/-- Polling the future. -/
def poll (g : Globals U) (shared : List (ScopeNode U) → Bool) (innerPoll : PollFn F O U) :
    PollFn (HandlerFuture F U) O U
  | .unresumed wrapper next, cell =>
    let (snapshot, cell) := wrapper.scopedSnapshot g shared cell
    resume innerPoll (Future.attach g next snapshot) cell
  | .suspended task, cell => resume innerPoll task cell
  -- an async block panics when it is polled after its end
  | .finished, cell => (.unwound, .finished, cell)

/-- The context with which the first poll polls the handler. -/
def initialContext (g : Globals U) (shared : List (ScopeNode U) → Bool)
    (wrapper : HandlerWrapper U) (cell : Cell U) : ContextStore U :=
  storeFromSnapshotWithRegistry (wrapper.scopedSnapshot g shared cell).1 g.registry

/-- The first poll polls the handler with its initial context, above the cell as it is. -/
theorem poll_unresumed (g : Globals U) (shared : List (ScopeNode U) → Bool)
    (innerPoll : PollFn F O U) (wrapper : HandlerWrapper U) (next : F) (cell : Cell U) :
    (wrapper.call next).poll g shared innerPoll cell =
      resume innerPoll ⟨next, some (initialContext g shared wrapper cell)⟩ cell := rfl

/-- The scope of the call shows no other values: the handler finds those of the snapshot that the
registry accepts. -/
theorem getValue_initialContext (g : Globals U) (shared : List (ScopeNode U) → Bool)
    (wrapper : HandlerWrapper U) (cell : Cell U) (key : Key) :
    (initialContext g shared wrapper cell).getValue key =
      (wrapper.snapshot.values.lookup key).filter fun v =>
        g.registry.isValidValue key v && !g.registry.isLocalKey key := by
  have hwf := (storeFromSnapshot_reachable wrapper.snapshot g.registry).wellFormed
  rw [initialContext, getValue_storeFromSnapshot]
  show ((captureWithRegistry g.maxScopeChainLen _ g.registry).values.lookup key).filter _ = _
  rw [lookup_captureWithRegistry, hwf.getValue_pushScope, getValue_storeFromSnapshot]
  cases wrapper.snapshot.values.lookup key with
  | none => simp
  | some v =>
    cases hlocal : g.registry.isLocalKey key <;> cases hvalid : g.registry.isValidValue key v <;>
      simp [Option.filter, hvalid]

/-- The scope of the call is the last of the chain. -/
theorem scopeChain_initialContext (g : Globals U) (shared : List (ScopeNode U) → Bool)
    (wrapper : HandlerWrapper U) (cell : Cell U) :
    (initialContext g shared wrapper cell).scopeChain g.maxScopeChainLen =
      keepLast g.maxScopeChainLen (wrapper.snapshot.scopeChain ++ [wrapper.scopeName]) := by
  have hwf := (storeFromSnapshot_reachable wrapper.snapshot g.registry).wellFormed
  have hdepth : (storeFromSnapshotWithRegistry wrapper.snapshot g.registry).depth ≤
      maxScopeDepth := (by decide : 1 ≤ maxScopeDepth)
  rw [initialContext, scopeChain_storeFromSnapshot]
  show keepLast _ (ContextStore.scopeChain _ _) = _
  rw [hwf.scopeChain_pushScope g.registry _ hdepth, scopeChain_storeFromSnapshot, keepLast_keepLast,
    keepLast_append_keepLast]
  rfl

theorem resume_returned {innerPoll : PollFn F O U} {task : WithContext F U} {cell : Cell U}
    {result : Poll O} (h : (resume innerPoll task cell).1 = .returned result) :
    (resume innerPoll task cell).2.2 = cell := by
  unfold resume at h ⊢
  rcases hinner : innerPoll task.inner task.store with ⟨exit, inner, left⟩
  cases exit with
  | returned result' =>
    rw [WithContext.poll_of_returned hinner]
    cases result' <;> rfl
  | unwound =>
    rw [WithContext.poll_of_unwound hinner] at h
    cases h

/-- **A poll that returns** leaves the cell as it was. -/
theorem poll_returned (g : Globals U) (shared : List (ScopeNode U) → Bool)
    (innerPoll : PollFn F O U) (future : HandlerFuture F U) (cell : Cell U) {result : Poll O}
    (h : (future.poll g shared innerPoll cell).1 = .returned result) :
    (future.poll g shared innerPoll cell).2.2 = cell := by
  cases future with
  | unresumed wrapper next => exact resume_returned h
  | suspended task => exact resume_returned h
  | finished => cases h

end HandlerFuture

end DContext
