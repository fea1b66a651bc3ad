import DContext.Actor.Interceptors

/-!
# Hops between actors

A message carries the context of its sender to the handler of another actor, by the snapshot within
a process and by bytes to another one. Either way the handler starts with the values that are not
local-only, and its scope chain is that of the sender with the name of the call.

## Main definitions

* `Link U`, `deliver`: the way of a message, and what becomes of it
* `Arrives g s path h`: the context `h` is `s`, less its local-only values, after the calls `path`
* `Hop g s actor h`, `Hops g s actors h`: one remote hop, and any number of them

## Main results

* `remote_hops`: remote hops carry the context end to end
* `local_hop_iff`: what a local hop preserves
* `local_hop_loses_localOnly`: a value that it loses
-/

namespace DContext

open ByteFormat Overlay

variable {U : TypeUniverse}

/-- The values that a store shows under registered keys have their registered types. -/
def Typed (registry : Registry U) (s : ContextStore U) : Prop :=
  ∀ key val reg, s.getValue key = some val → registry.map.lookup key = some reg →
    val.typeId = reg.typeId

/-- The way of a message: within the process, or over a transport to another one, where the headers
of the crate are registered along with others. -/
inductive Link (U : TypeUniverse)
  | within
  | remote (transport : Transport U) (registry : HeaderRegistry U)

/-- `ctx.remote`. -/
def Link.isRemote : Link U → Bool
  | .within => false
  | .remote .. => true

/-- The headers that arrive. -/
def Link.carry : Link U → Headers U → Headers U
  | .within, headers => headers
  | .remote transport registry, headers => transport.carry (registerContextHeaders registry) headers

/-- A message without headers, sent from a thread with this cell to an actor: nothing when an
interceptor rejects it, else the wrapper of its handler, if there is one. -/
def deliver (sendPolicy receivePolicy : ErrorPolicy) (g : Globals U) (iter : IterationOrder U)
    (link : Link U) (actorName : String) (cell : Cell U) : Option (Option (HandlerWrapper U)) :=
  match onSend sendPolicy g iter link.isRemote cell ∅ with
  | (sent, .«continue») =>
    match onReceive receivePolicy g (link.carry sent) with
    | (received, .«continue») => some (wrapHandler actorName received)
    | (_, .reject _) => none
  | (_, .reject _) => none

/-- The context `h` is the context `s` after the calls `path`: all its values that are registered
and not local-only and no others, and its scope chain with the names of the calls. -/
structure Arrives (g : Globals U) (s : ContextStore U) (path : List String) (h : ContextStore U) :
    Prop where
  carried : ∀ key reg, g.registry.map.lookup key = some reg → reg.localOnly = false →
    h.getValue key = s.getValue key
  absent : ∀ key, g.registry.map.lookup key = none ∨ g.registry.isLocalKey key = true →
    h.getValue key = none
  scopeChain : h.scopeChain g.maxScopeChainLen =
    keepLast g.maxScopeChainLen (s.scopeChain g.maxScopeChainLen ++ path)

/-- The context `h` is the initial one of a handler of the actor, after a message from a thread with
the context `s` that could be serialized. -/
structure Hop (g : Globals U) (s : ContextStore U) (actorName : String) (h : ContextStore U) :
    Prop where
  hop : ∃ (sendPolicy receivePolicy : ErrorPolicy) (iter : IterationOrder U) (bytes : ByteVec)
    (transport : Transport U) (registry : HeaderRegistry U) (wrapper : HandlerWrapper U)
    (shared : List (ScopeNode U) → Bool) (cell : Cell U),
    (Thread.capture g (some s)).serialize g iter = .ok bytes.1 ∧
    deliver sendPolicy receivePolicy g iter (.remote transport registry) actorName (some s) =
      some (some wrapper) ∧
    h = HandlerFuture.initialContext g shared wrapper cell

/-- One remote hop after the other, at least one; each message is sent with the initial context of
the last handler. -/
inductive Hops (g : Globals U) (s : ContextStore U) : List String → ContextStore U → Prop
  | one {actorName : String} {h : ContextStore U} : Hop g s actorName h → Hops g s [actorName] h
  | snoc {actors : List String} {actorName : String} {h h' : ContextStore U} :
      Hops g s actors h → Hop g h actorName h' → Hops g s (actors ++ [actorName]) h'

/-- The name of the scope of a call. -/
def callName (actorName : String) : String := "remote:" ++ actorName

/-! ## One hop -/

section Hop

variable {g : Globals U} {s : ContextStore U}

/-- A wrapper whose snapshot shows what the sender shows of the values that may travel. -/
theorem arrives_of_wrapper (htyped : Typed g.registry s) (wrapper : HandlerWrapper U)
    (hvalues : ∀ key reg, g.registry.map.lookup key = some reg → reg.localOnly = false →
      wrapper.snapshot.values.lookup key = s.getValue key)
    (hchain : wrapper.snapshot.scopeChain = s.scopeChain g.maxScopeChainLen)
    (shared : List (ScopeNode U) → Bool) (cell : Cell U) :
    Arrives g s [wrapper.scopeName] (HandlerFuture.initialContext g shared wrapper cell) := by
  refine ⟨?_, ?_, ?_⟩
  · intro key reg hreg hlocal
    rw [HandlerFuture.getValue_initialContext, hvalues key reg hreg hlocal,
      isLocalKey_of_registered hreg, hlocal]
    cases hval : s.getValue key with
    | none => rfl
    | some val =>
      have hvalid : g.registry.isValidValue key val = true := by
        rw [Registry.isValidValue, hreg, Option.any_some, decide_eq_true_iff]
        exact (htyped key val reg hval hreg).symm
      rw [Option.filter_some, hvalid]
      rfl
  · intro key hkey
    rw [HandlerFuture.getValue_initialContext]
    rcases hkey with hnone | hlocal
    · cases wrapper.snapshot.values.lookup key with
      | none => rfl
      | some val => simp [Option.filter, Registry.isValidValue, hnone]
    · cases wrapper.snapshot.values.lookup key with
      | none => rfl
      | some val => simp [Option.filter, hlocal]
  · rw [HandlerFuture.scopeChain_initialContext, hchain]

/-- The bytes of a typed context are read back, with all that may travel. -/
theorem deserialize_capture (hU : U.RoundTrips) {calls : List (BuilderCall U)}
    (hcalls : ∀ call ∈ calls, call.RoundTrips) (hg : g.registry = ⟨buildMap calls⟩)
    (htyped : Typed g.registry s) {iter : IterationOrder U} {bytes : ByteVec}
    (hbytes : (Thread.capture g (some s)).serialize g iter = .ok bytes.1) :
    ∃ result, ContextSnapshot.deserialize g bytes.1 = .ok result ∧
      result.scopeChain = s.scopeChain g.maxScopeChainLen ∧
      ∀ key reg, g.registry.map.lookup key = some reg → reg.localOnly = false →
        result.values.lookup key = s.getValue key := by
  have hsafe : LocalSafe g.registry.map := hg ▸ built_localSafe ⟨calls, rfl⟩
  have hcross : ∀ key val, (Thread.capture g (some s)).values.lookup key = some val →
      g.registry.map.lookup key = none ∧ transcode g.registry g.registry key val = .ok none ∨
        transcode g.registry g.registry key val = .ok (some val) := by
    intro key val hval
    obtain ⟨valueBytes, hvalue⟩ := encoded_of_serialize hbytes hval
    obtain ⟨hlocal, hget⟩ := lookup_capture_eq_some_iff.mp hval
    rw [hg] at hlocal hvalue htyped ⊢
    rcases transcode_captured hU hcalls hlocal hvalue with
      habsent | ⟨reg, hreg, -, ⟨-, htrans⟩ | htype⟩
    · exact .inl habsent
    · exact .inr htrans
    · exact absurd (htyped key val reg hget hreg) htype
  obtain ⟨values, hvalues⟩ : ∃ values, Crosses g.registry g.registry
      (Thread.capture g (some s)).values values := by
    apply exists_crosses
    intro key val hval
    rcases hcross key val hval with ⟨-, htrans⟩ | htrans
    · exact ⟨_, htrans⟩
    · exact ⟨_, htrans⟩
  refine ⟨⟨values, s.scopeChain g.maxScopeChainLen⟩,
    (deserialize_serialize_iff hsafe hbytes _).mpr ⟨rfl, hvalues⟩, rfl, ?_⟩
  intro key reg hreg hlocal
  cases hget : s.getValue key with
  | none =>
    apply hvalues.of_absent
    show (captureWithRegistry _ s g.registry).values.lookup key = none
    rw [lookup_captureWithRegistry, hget]
    split_ifs <;> rfl
  | some val =>
    have hval := lookup_capture_eq_some_iff.mpr
      ⟨(isLocalKey_of_registered hreg).trans hlocal, hget⟩
    have htrans := hvalues.of_lookup hval
    rcases hcross key val hval with ⟨hnone, -⟩ | hsome
    · rw [hreg] at hnone
      cases hnone
    · rw [hsome] at htrans
      exact (Except.ok.inj htrans).symm

/-- **A remote hop** of a typed context that can be serialized carries it to the handler, whatever
the receiving thread has in its cell. -/
theorem deliver_remote (hU : U.RoundTrips) {calls : List (BuilderCall U)}
    (hcalls : ∀ call ∈ calls, call.RoundTrips) (hg : g.registry = ⟨buildMap calls⟩)
    (htyped : Typed g.registry s) {iter : IterationOrder U} {bytes : ByteVec}
    (hbytes : (Thread.capture g (some s)).serialize g iter = .ok bytes.1)
    (sendPolicy receivePolicy : ErrorPolicy) (transport : Transport U)
    (registry : HeaderRegistry U) (actorName : String) :
    ∃ wrapper, deliver sendPolicy receivePolicy g iter (.remote transport registry) actorName
        (some s) = some (some wrapper) ∧
      ∀ shared cell, Arrives g s [callName actorName]
        (HandlerFuture.initialContext g shared wrapper cell) := by
  obtain ⟨result, hresult, hchain, hvalues⟩ := deserialize_capture hU hcalls hg htyped hbytes
  refine ⟨⟨result, callName actorName⟩, ?_, ?_⟩
  · have hsent : onSend sendPolicy g iter true (some s) ∅ =
        (Finmap.insert HeaderType.context ⟨bytes.1⟩ ∅, .«continue») := by
      rw [onSend, if_pos rfl, hbytes]
    have hsnapshot := transport.lookup_snapshot (registerContextHeaders registry)
      (Finmap.insert HeaderType.context ⟨bytes.1⟩ ∅)
    have hcontext := transport.lookup_context registry
      (Finmap.insert HeaderType.context ⟨bytes.1⟩ ∅)
    rw [Finmap.lookup_insert] at hcontext
    have hreceived : onReceive receivePolicy g
        (transport.carry (registerContextHeaders registry)
          (Finmap.insert HeaderType.context ⟨bytes.1⟩ ∅)) =
        (Finmap.insert HeaderType.snapshot ⟨result⟩
          (transport.carry (registerContextHeaders registry)
            (Finmap.insert HeaderType.context ⟨bytes.1⟩ ∅)), .«continue») := by
      simp [onReceive, hsnapshot, hcontext, bytesToSnapshot, hresult, Except.toOption]
    simp only [deliver, Link.isRemote, hsent, Link.carry, hreceived, wrapHandler,
      Finmap.lookup_insert]
    rfl
  · intro shared cell
    exact arrives_of_wrapper htyped ⟨result, callName actorName⟩ hvalues hchain shared cell

end Hop

/-! ## Any number of hops -/

section Hops

variable {g : Globals U} {s t u : ContextStore U} {path path' : List String}

theorem Arrives.typed (h : Arrives g s path t) (htyped : Typed g.registry s) :
    Typed g.registry t := by
  intro key val reg hval hreg
  cases hlocal : reg.localOnly with
  | false =>
    rw [h.carried key reg hreg hlocal] at hval
    exact htyped key val reg hval hreg
  | true =>
    rw [h.absent key (.inr ((isLocalKey_of_registered hreg).trans hlocal))] at hval
    cases hval

/-- The second path goes on where the first one ends: capping the chain in between is invisible. -/
theorem Arrives.trans (h : Arrives g s path t) (h' : Arrives g t path' u) :
    Arrives g s (path ++ path') u := by
  refine ⟨?_, h'.absent, ?_⟩
  · intro key reg hreg hlocal
    rw [h'.carried key reg hreg hlocal, h.carried key reg hreg hlocal]
  · rw [h'.scopeChain, h.scopeChain, keepLast_append_keepLast, List.append_assoc]

theorem Hop.arrives (hU : U.RoundTrips) {calls : List (BuilderCall U)}
    (hcalls : ∀ call ∈ calls, call.RoundTrips) (hg : g.registry = ⟨buildMap calls⟩)
    (htyped : Typed g.registry s) {actorName : String} (h : Hop g s actorName t) :
    Arrives g s [callName actorName] t := by
  obtain ⟨sendPolicy, receivePolicy, iter, bytes, transport, registry, wrapper, shared, cell,
    hbytes, hdeliver, rfl⟩ := h.hop
  obtain ⟨wrapper', hdeliver', harrives⟩ := deliver_remote hU hcalls hg htyped hbytes sendPolicy
    receivePolicy transport registry actorName
  obtain rfl : wrapper' = wrapper :=
    Option.some.inj (Option.some.inj (hdeliver'.symm.trans hdeliver))
  exact harrives shared cell

/-- Hop after hop the path grows by the name of the call. -/
theorem Hops.arrives (hU : U.RoundTrips) {calls : List (BuilderCall U)}
    (hcalls : ∀ call ∈ calls, call.RoundTrips) (hg : g.registry = ⟨buildMap calls⟩)
    (htyped : Typed g.registry s) {actors : List String} (h : Hops g s actors t) :
    Arrives g s (actors.map callName) t := by
  induction h with
  | one hhop => exact hhop.arrives hU hcalls hg htyped
  | snoc _ hhop ih =>
    rw [List.map_append]
    exact ih.trans (hhop.arrives hU hcalls hg (ih.typed htyped))

end Hops

/-- **Remote hops carry the context end to end.** A message from a typed context that can be
serialized reaches a handler that starts with its values and its path, whatever the receiving
thread has in its cell; no poll of that handler that returns changes this cell; and any number of
hops carry the context along the path of their calls. -/
theorem remote_hops (hU : U.RoundTrips) (calls : List (BuilderCall U))
    (hcalls : ∀ call ∈ calls, call.RoundTrips) (maxContextSize maxScopeChainLen : Nat) :
    let g : Globals U := ⟨⟨buildMap calls⟩, maxContextSize, maxScopeChainLen⟩
    (∀ s : ContextStore U, Typed g.registry s → ∀ (iter : IterationOrder U) (bytes : ByteVec),
        (Thread.capture g (some s)).serialize g iter = .ok bytes.1 →
        ∀ (sendPolicy receivePolicy : ErrorPolicy) (transport : Transport U)
          (registry : HeaderRegistry U) (actorName : String),
          ∃ wrapper, deliver sendPolicy receivePolicy g iter (.remote transport registry) actorName
              (some s) = some (some wrapper) ∧
            ∀ (shared : List (ScopeNode U) → Bool) (cell : Cell U),
              Arrives g s ["remote:" ++ actorName]
                (HandlerFuture.initialContext g shared wrapper cell)) ∧
      (∀ {F O : Type} (shared : List (ScopeNode U) → Bool) (innerPoll : PollFn F O U)
        (wrapper : HandlerWrapper U) (next : F) (cell : Cell U),
        (wrapper.call next).poll g shared innerPoll cell =
          HandlerFuture.resume innerPoll
            ⟨next, some (HandlerFuture.initialContext g shared wrapper cell)⟩ cell) ∧
      (∀ {F O : Type} (shared : List (ScopeNode U) → Bool) (innerPoll : PollFn F O U)
        (future : HandlerFuture F U) (cell : Cell U) (result : Poll O),
        (future.poll g shared innerPoll cell).1 = .returned result →
        (future.poll g shared innerPoll cell).2.2 = cell) ∧
      ∀ (s h : ContextStore U) (actors : List String), Typed g.registry s → Hops g s actors h →
        Arrives g s (actors.map fun actorName => "remote:" ++ actorName) h := by
  intro g
  refine ⟨?_, ?_, ?_, ?_⟩
  · intro s htyped iter bytes hbytes sendPolicy receivePolicy transport registry actorName
    exact deliver_remote hU hcalls rfl htyped hbytes sendPolicy receivePolicy transport registry
      actorName
  · intro F O shared innerPoll wrapper next cell
    exact HandlerFuture.poll_unresumed g shared innerPoll wrapper next cell
  · intro F O shared innerPoll future cell result hreturned
    exact HandlerFuture.poll_returned g shared innerPoll future cell hreturned
  · intro s h actors htyped hhops
    exact hhops.arrives hU hcalls rfl htyped

theorem numberStore_typed :
    Typed (⟨buildMap numberCalls⟩ : Registry primitiveTypes) numberStore := by
  intro key val reg hget hreg
  obtain ⟨rfl, rfl⟩ := getValue_numberStore hget
  have hreg' : (buildMap numberCalls).lookup "k" =
      some (newRegistration PrimitiveType.u64 "k" .new) := rfl
  obtain rfl := Option.some.inj (hreg.symm.trans hreg')
  rfl

/-- The bytes of a capture of the number. -/
theorem serialize_capture_numberStore (iter : IterationOrder primitiveTypes) :
    (Thread.capture ⟨⟨buildMap numberCalls⟩, 0, 64⟩ (some numberStore)).serialize
      ⟨⟨buildMap numberCalls⟩, 0, 64⟩ iter =
        .ok (wireContextFormat.write ⟨2, [⟨"k", 1, u64.write 7⟩], []⟩) := serialize_number iter []

/-- The number reaches an actor in another process. -/
theorem remote_hops_number :
    ∃ wrapper, deliver .reject .reject ⟨⟨buildMap numberCalls⟩, 0, 64⟩ .arbitrary
        (.remote .direct ∅) "a" (some numberStore) = some (some wrapper) ∧
      Arrives ⟨⟨buildMap numberCalls⟩, 0, 64⟩ numberStore ["remote:a"]
        (HandlerFuture.initialContext ⟨⟨buildMap numberCalls⟩, 0, 64⟩ (fun _ => true) wrapper
          none) := by
  obtain ⟨wrapper, hdeliver, harrives⟩ := (remote_hops primitiveTypes_roundTrips numberCalls
    numberCalls_roundTrips 0 64).1 numberStore numberStore_typed .arbitrary ⟨_, by decide⟩
    (serialize_capture_numberStore .arbitrary) .reject .reject .direct ∅ "a"
  exact ⟨wrapper, hdeliver, harrives (fun _ => true) none⟩

/-! ## Local hops -/

/-- **A local hop** takes the capture along, so it carries what a remote hop carries. -/
theorem deliver_within {g : Globals U} {s : ContextStore U} (htyped : Typed g.registry s)
    (sendPolicy receivePolicy : ErrorPolicy) (iter : IterationOrder U) (actorName : String) :
    ∃ wrapper, deliver sendPolicy receivePolicy g iter .within actorName (some s) =
        some (some wrapper) ∧
      ∀ shared cell, Arrives g s [callName actorName]
        (HandlerFuture.initialContext g shared wrapper cell) := by
  refine ⟨⟨Thread.capture g (some s), callName actorName⟩, ?_, ?_⟩
  · have hreceived : onReceive receivePolicy g
        (Finmap.insert HeaderType.snapshot ⟨Thread.capture g (some s)⟩ (∅ : Headers U)) =
          (Finmap.insert HeaderType.snapshot ⟨Thread.capture g (some s)⟩ ∅, .«continue») := by
      simp [onReceive]
    simp [deliver, onSend, Link.isRemote, Link.carry, hreceived, wrapHandler, callName]
  · intro shared cell
    refine arrives_of_wrapper htyped ⟨Thread.capture g (some s), callName actorName⟩ ?_ rfl shared
      cell
    intro key reg hreg hlocal
    show (captureWithRegistry _ s g.registry).values.lookup key = _
    rw [lookup_captureWithRegistry, isLocalKey_of_registered hreg, hlocal]
    rfl

/-- **What a local hop preserves**: a registered key reads in the handler as it did for the sender
exactly when it is not local-only, or read as nothing already there. -/
theorem local_hop_iff (g : Globals U) (s : ContextStore U) (htyped : Typed g.registry s)
    (key : Key) (hkey : g.registry.map.lookup key ≠ none) (t : U.TypeId)
    (sendPolicy receivePolicy : ErrorPolicy) (iter : IterationOrder U) (actorName : String) :
    ∃ wrapper, deliver sendPolicy receivePolicy g iter .within actorName (some s) =
        some (some wrapper) ∧
      ∀ (shared : List (ScopeNode U) → Bool) (cell : Cell U),
        Thread.getContextVariable t key
            (some (HandlerFuture.initialContext g shared wrapper cell)) =
          Thread.getContextVariable t key (some s) ↔
        g.registry.isLocalKey key = false ∨ Thread.getContextVariable t key (some s) = none := by
  obtain ⟨wrapper, hdeliver, harrives⟩ :=
    deliver_within htyped sendPolicy receivePolicy iter actorName
  refine ⟨wrapper, hdeliver, ?_⟩
  intro shared cell
  have hget : ∀ s : ContextStore U, Thread.getContextVariable t key (some s) =
      (s.getValue key).bind (·.downcast t) := fun _ => rfl
  obtain ⟨reg, hreg⟩ := Option.ne_none_iff_exists'.mp hkey
  rw [hget, hget, isLocalKey_of_registered hreg]
  cases hlocal : reg.localOnly with
  | false =>
    rw [(harrives shared cell).carried key reg hreg hlocal]
    simp
  | true =>
    rw [(harrives shared cell).absent key (.inr ((isLocalKey_of_registered hreg).trans hlocal))]
    simp [eq_comm]

/-- The number reads the same in an actor of the same process. -/
theorem local_hop_number :
    ∃ wrapper, deliver .reject .reject ⟨⟨buildMap numberCalls⟩, 0, 64⟩ .arbitrary .within "a"
        (some numberStore) = some (some wrapper) ∧
      Thread.getContextVariable PrimitiveType.u64 "k"
        (some (HandlerFuture.initialContext ⟨⟨buildMap numberCalls⟩, 0, 64⟩ (fun _ => true)
          wrapper none)) = some (7 : UInt64) := by
  obtain ⟨wrapper, hdeliver, hiff⟩ := local_hop_iff ⟨⟨buildMap numberCalls⟩, 0, 64⟩ numberStore
    numberStore_typed "k" (by intro h; cases h) PrimitiveType.u64 .reject .reject .arbitrary "a"
  exact ⟨wrapper, hdeliver, (hiff (fun _ => true) none).mpr (.inl rfl)⟩

/-- A registry that keeps `k` in its process. -/
def localCalls : List (BuilderCall primitiveTypes) := [.register .u64 "k" [.localOnly]]

/-- A local-only number is lost on the way to an actor of the same process. -/
theorem local_hop_loses_localOnly :
    Typed (⟨buildMap localCalls⟩ : Registry primitiveTypes) numberStore ∧
      Thread.getContextVariable PrimitiveType.u64 "k" (some numberStore) = some (7 : UInt64) ∧
      ∃ wrapper, deliver .reject .reject ⟨⟨buildMap localCalls⟩, 0, 64⟩ .arbitrary .within "a"
          (some numberStore) = some (some wrapper) ∧
        Thread.getContextVariable PrimitiveType.u64 "k"
          (some (HandlerFuture.initialContext ⟨⟨buildMap localCalls⟩, 0, 64⟩ (fun _ => true)
            wrapper none)) = none := by
  refine ⟨?_, rfl, _, rfl, rfl⟩
  intro key val reg hget hreg
  obtain ⟨rfl, rfl⟩ := getValue_numberStore hget
  have hreg' : (buildMap localCalls).lookup "k" =
      some (newRegistration PrimitiveType.u64 "k" (.configure [.localOnly])) := rfl
  obtain rfl := Option.some.inj (hreg.symm.trans hreg')
  rfl

end DContext
