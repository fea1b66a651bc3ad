import DContext.Actor.Handlers
import DContext.Actor.Hops
import DContext.Future.Nesting
import DContext.Wire.Relay

/-!
# Actors that exchange messages

Any number of processes with any number of threads, on which handlers run and send messages in
turn. A message may be received late, out of order, more than once or never, and its handlers are
polled on any threads of the receiving process, between whatever else these threads do. The context
of a handler is that of its message all the same: it follows the chain of messages, and nothing
else.

## Main definitions

* `Cluster P T U`: the processes, their threads and their configuration
* `Sending P F U`, `Sending.handling`: what is sent, and the handling that it leads to
* `Handling P F O U`, `Handling.poll`: the handling of a message, with the record of its polls
* `Mail P T F O U`, `step`: the threads and the handlings, with all that has been sent
* `Caused c innerPoll outside p s`: a chain of messages leads to the sending `s` of the process `p`

## Main results

* `polledOn_congr`: a handler with a context does the same on all threads
* `handlers_caused`: every handling of every run is that of a message of such a chain
* `handlers_find`: what a handler finds at its first poll
-/

namespace DContext

open Overlay StepSystem

variable {U : TypeUniverse}

namespace Messaging

/-- The processes and their threads, what each process has registered at its startup, its limits,
and the policies of its two interceptors. -/
structure Cluster (P T : Type) (U : TypeUniverse) where
  home : T → P
  calls : P → List (BuilderCall U)
  maxContextSize : P → Nat
  maxScopeChainLen : P → Nat
  outbound : P → ErrorPolicy
  inbound : P → ErrorPolicy

/-- The globals of a process. -/
def Cluster.globals {P T : Type} (c : Cluster P T U) (p : P) : Globals U :=
  ⟨⟨buildMap (c.calls p)⟩, c.maxContextSize p, c.maxScopeChainLen p⟩

variable {P T F O : Type}

/-! ## Messages -/

/-- What is sent: the content of the cell at that moment, and the future that the receiving actor
makes of the message. -/
structure Sending (P F : Type) (U : TypeUniverse) where
  cell : Cell U
  iter : IterationOrder U
  link : Link U
  receiver : P
  actorName : String
  handler : F

namespace Sending

/-- A message within a process stays there. -/
def destination (s : Sending P F U) (sender : P) : P :=
  if s.link.isRemote then s.receiver else sender

/-- The message as it arrives, unless the outbound interceptor rejects it. -/
def message (c : Cluster P T U) (sender : P) (s : Sending P F U) :
    Option (Actors.Message F U) :=
  match onSend (c.outbound sender) (c.globals sender) s.iter s.link.isRemote s.cell ∅ with
  | (sent, .«continue») => some ⟨s.link.carry sent, s.actorName, s.handler⟩
  | (_, .reject _) => none

theorem message_of_onSend {c : Cluster P T U} {sender : P} {s : Sending P F U} {sent : Headers U}
    (h : onSend (c.outbound sender) (c.globals sender) s.iter s.link.isRemote s.cell ∅ =
      (sent, .«continue»)) :
    s.message c sender = some ⟨s.link.carry sent, s.actorName, s.handler⟩ := by
  rw [message, h]

end Sending

/-- The future of a handler as the runtime polls it, unless the inbound interceptor rejects the
message. -/
def receive (c : Cluster P T U) (p : P) (message : Actors.Message F U) :
    Option (Actors.Delivered F U) :=
  match onReceive (c.inbound p) (c.globals p) message.headers with
  | (received, .«continue») =>
    match wrapHandler message.actorName received with
    | some wrapper => some (.wrapped (wrapper.call message.handler))
    | none => some (.bare message.handler)
  | (_, .reject _) => none

/-- The handling of a message: its future, what its polls have found in the cell and answered, and
what they have sent. -/
structure Handling (P F O : Type) (U : TypeUniverse) where
  process : P
  future : Actors.Delivered F U
  record : List (Cell U × Poll O)
  sent : List (Sending P F U)

/-- The handling that a message leads to when it is received. -/
def Sending.handling (c : Cluster P T U) (sender : P) (s : Sending P F U) :
    Option (Handling P F O U) :=
  (s.message c sender).bind fun message =>
    (receive c (s.destination sender) message).map fun future =>
      ⟨s.destination sender, future, [], []⟩

/-! ## Polls -/

/-- The poll of the future of a handler that returns normally, with what it sends. -/
abbrev SendingPoll (P F O : Type) (U : TypeUniverse) :=
  F → Cell U → (Poll O × F × Cell U) × List (Sending P F U)

/-- The poll without what it sends. -/
def sendless (innerPoll : SendingPoll P F O U) : Schedule.ReturningPoll F O U := fun fut cell =>
  (innerPoll fut cell).1

/-- What a poll of a wrapped handler polls in turn, and what this finds in the cell. -/
def found (g : Globals U) (shared : List (ScopeNode U) → Bool) :
    HandlerFuture F U → Cell U → Option (F × Cell U)
  | .unresumed wrapper next, cell =>
    some (next, some (HandlerFuture.initialContext g shared wrapper cell))
  | .suspended task, _ => some (task.inner, task.store)
  | .finished, _ => none

namespace Handling

variable (c : Cluster P T U) (innerPoll : SendingPoll P F O U)

/-- One poll of a handling, on a thread with this cell: the handling and the cell then, and what the
poll has sent. A future that is ready is not polled again. -/
def poll (shared : List (ScopeNode U) → Bool) (h : Handling P F O U) (cell : Cell U) :
    Handling P F O U × Cell U × List (Sending P F U) :=
  match h.future with
  | .wrapped future =>
    match found (c.globals h.process) shared future cell with
    | none => (h, cell, [])
    | some (fut, content) =>
      let r := future.poll (c.globals h.process) shared
        (Schedule.returning (sendless innerPoll)) cell
      let inner := innerPoll fut content
      ({ h with
          future := .wrapped r.2.1
          record := h.record ++ [(content, inner.1.1)]
          sent := h.sent ++ inner.2 }, r.2.2, inner.2)
  | .bare fut =>
    let inner := innerPoll fut cell
    ({ h with
        future := match inner.1.1 with
          | .ready _ => .done
          | .pending => .bare inner.1.2.1
        record := h.record ++ [(cell, inner.1.1)]
        sent := h.sent ++ inner.2 }, inner.1.2.2, inner.2)
  | .done => (h, cell, [])

/-- The handling after polls on threads with these cells. -/
def polledOn (h : Handling P F O U) (cells : List (Cell U)) : Handling P F O U :=
  cells.foldl (fun h cell => (h.poll c innerPoll (fun _ => false) cell).1) h

/-- Whether the message has brought a context. -/
def HasContext (h : Handling P F O U) : Prop :=
  ∃ future, h.future = .wrapped future

end Handling

/-! ## The system -/

/-- The threads, the handlings there are, and everything that has been sent, with the process of
the sender. -/
structure Mail (P T F O : Type) (U : TypeUniverse) where
  cell : T → Cell U
  handlings : List (Handling P F O U)
  sent : List (P × Sending P F U)
  /-- What code outside handlers has sent. -/
  outgoing : List (P × Sending P F U)
  /-- What code outside handlers, and handlers without context, have left in the cells. -/
  ambient : T → Cell U

/-- What happens. A number names a message or a handling; a poll comes with the ownership of the
nodes it meets. -/
inductive Event (P T F : Type) (U : TypeUniverse)
  /-- Code outside handlers changes the context of its thread in any way. -/
  | outside (t : T) (content : Cell U)
  /-- Code outside handlers sends a message, with what its thread then holds. -/
  | send (t : T) (s : Sending P F U)
  | receive (k : Nat)
  | poll (t : T) (i : Nat) (shared : List (ScopeNode U) → Bool)

variable [DecidableEq P] [DecidableEq T]

def step (c : Cluster P T U) (innerPoll : SendingPoll P F O U) (m : Mail P T F O U) :
    Event P T F U → Mail P T F O U × Unit
  | .outside t content =>
    ({ m with
        cell := Function.update m.cell t content
        ambient := Function.update m.ambient t content }, ())
  | .send t s =>
    let sending := (c.home t, { s with cell := m.cell t })
    ({ m with sent := m.sent ++ [sending], outgoing := m.outgoing ++ [sending] }, ())
  | .receive k =>
    match m.sent[k]? with
    | none => (m, ())
    | some (sender, s) =>
      match s.handling c sender with
      | none => (m, ())
      | some h => ({ m with handlings := m.handlings ++ [h] }, ())
  | .poll t i shared =>
    match m.handlings[i]? with
    | none => (m, ())
    | some h =>
      if h.process = c.home t then
        let r := h.poll c innerPoll shared (m.cell t)
        ({ m with
            cell := Function.update m.cell t r.2.1
            ambient := match h.future with
              | .wrapped _ => m.ambient
              | _ => Function.update m.ambient t r.2.1
            handlings := m.handlings.set i r.1
            sent := m.sent ++ r.2.2.map fun s => (h.process, s) }, ())
      else (m, ())

/-- Threads with these cells, before the first message. -/
def start (cells : T → Cell U) : Mail P T F O U := ⟨cells, [], [], [], cells⟩

/-- The system after some events. -/
def after (c : Cluster P T U) (innerPoll : SendingPoll P F O U) (cells : T → Cell U)
    (events : List (Event P T F U)) : Mail P T F O U :=
  (run (step c innerPoll) (start cells) events).1

/-! ## One handler, on whatever threads -/

section Handling

variable (c : Cluster P T U) (innerPoll : SendingPoll P F O U)

omit [DecidableEq P] [DecidableEq T]

/-- Which nodes have other owners makes no difference to a poll. -/
theorem Handling.poll_shared (shared shared' : List (ScopeNode U) → Bool)
    (h : Handling P F O U) (cell : Cell U) :
    h.poll c innerPoll shared cell = h.poll c innerPoll shared' cell := by
  obtain ⟨process, future, record, sent⟩ := h
  cases future with
  | wrapped future => cases future <;> rfl
  | bare fut => rfl
  | done => rfl

/-- A poll stays in its process, and continues what there was. -/
theorem Handling.poll_continues (h : Handling P F O U) (cell : Cell U) :
    let r := h.poll c innerPoll (fun _ => false) cell
    r.1.process = h.process ∧ h.record <+: r.1.record ∧ r.1.sent = h.sent ++ r.2.2 := by
  obtain ⟨process, future, record, sent⟩ := h
  cases future with
  | wrapped future =>
    cases future with
    | unresumed wrapper next => exact ⟨rfl, List.prefix_append _ _, rfl⟩
    | suspended task => exact ⟨rfl, List.prefix_append _ _, rfl⟩
    | finished => exact ⟨rfl, List.prefix_refl _, (List.append_nil sent).symm⟩
  | bare fut => exact ⟨rfl, List.prefix_append _ _, rfl⟩
  | done => exact ⟨rfl, List.prefix_refl _, (List.append_nil sent).symm⟩

/-- The future of a wrapped handler comes out of a poll as it would on another cell. -/
theorem handlerFuture_poll_cell (g : Globals U) (shared : List (ScopeNode U) → Bool)
    (pollInner : PollFn F O U) (future : HandlerFuture F U) (cell cell' : Cell U) :
    (future.poll g shared pollInner cell).2.1 = (future.poll g shared pollInner cell').2.1 := by
  have hresume : ∀ task : WithContext F U, (HandlerFuture.resume pollInner task cell).2.1 =
      (HandlerFuture.resume pollInner task cell').2.1 := by
    intro task
    rcases h : pollInner task.inner task.store with ⟨exit, inner, left⟩
    unfold HandlerFuture.resume
    cases exit with
    | returned result =>
      rw [WithContext.poll_of_returned h, WithContext.poll_of_returned h]
      cases result <;> rfl
    | unwound => rw [WithContext.poll_of_unwound h, WithContext.poll_of_unwound h]
  cases future with
  | unresumed wrapper next => exact hresume _
  | suspended task => exact hresume task
  | finished => rfl

theorem found_cell (g : Globals U) (shared : List (ScopeNode U) → Bool)
    (future : HandlerFuture F U) (cell cell' : Cell U) :
    found g shared future cell = found g shared future cell' := by
  cases future <;> rfl

/-- **A poll of a handler with a context** does the same on every cell, and leaves it alone. -/
theorem Handling.poll_of_hasContext {h : Handling P F O U} (hcontext : h.HasContext)
    (cell cell' : Cell U) :
    (h.poll c innerPoll (fun _ => false) cell).1 = (h.poll c innerPoll (fun _ => false) cell').1 ∧
      (h.poll c innerPoll (fun _ => false) cell).2.1 = cell ∧
      (h.poll c innerPoll (fun _ => false) cell).1.HasContext := by
  obtain ⟨process, future, record, sent⟩ := h
  obtain ⟨future, rfl⟩ := hcontext
  have hleft := Actors.wrapped_poll_cell (c.globals process) (fun _ => false)
    (sendless innerPoll) future cell
  simp only [Handling.poll, found_cell _ _ future cell' cell]
  cases found (c.globals process) (fun _ => false) future cell with
  | none => exact ⟨rfl, rfl, _, rfl⟩
  | some p =>
    refine ⟨?_, hleft, _, rfl⟩
    dsimp only
    rw [handlerFuture_poll_cell _ _ _ future cell cell']

/-- **A handler with a context does the same on all threads.** -/
theorem Handling.polledOn_congr {h : Handling P F O U} (hcontext : h.HasContext)
    {cells cells' : List (Cell U)} (hlength : cells.length = cells'.length) :
    h.polledOn c innerPoll cells = h.polledOn c innerPoll cells' := by
  induction cells generalizing h cells' with
  | nil => rw [List.eq_nil_of_length_eq_zero hlength.symm]
  | cons cell cells ih =>
    obtain _ | ⟨cell', cells'⟩ := cells'
    · cases hlength
    · obtain ⟨hsame, -, hnext⟩ := h.poll_of_hasContext c innerPoll hcontext cell cell'
      have hrest := ih hnext (Nat.succ.inj hlength)
      rw [hsame] at hrest
      show Handling.polledOn c innerPoll (h.poll c innerPoll _ cell).1 cells = _
      rw [hsame]
      exact hrest

theorem Handling.polledOn_concat (h : Handling P F O U) (cells : List (Cell U)) (cell : Cell U) :
    h.polledOn c innerPoll (cells ++ [cell]) =
      ((h.polledOn c innerPoll cells).poll c innerPoll (fun _ => false) cell).1 :=
  List.foldl_concat ..

theorem Handling.polledOn_continues (cells : List (Cell U)) : ∀ h : Handling P F O U,
    (h.polledOn c innerPoll cells).process = h.process ∧
      h.record <+: (h.polledOn c innerPoll cells).record := by
  induction cells with
  | nil => exact fun h => ⟨rfl, List.prefix_refl _⟩
  | cons cell cells ih =>
    intro h
    obtain ⟨hprocess, hrecord, -⟩ := h.poll_continues c innerPoll cell
    obtain ⟨hprocess', hrecord'⟩ := ih (h.poll c innerPoll (fun _ => false) cell).1
    exact ⟨hprocess'.trans hprocess, hrecord.trans hrecord'⟩

end Handling

/-! ## Chains of messages -/

/-- A chain of messages leads to what the process `p` sends: code outside handlers has sent it, or a
handler of an earlier message of the chain sends it when it is polled, on some threads. -/
inductive Caused (c : Cluster P T U) (innerPoll : SendingPoll P F O U)
    (outside : P → Sending P F U → Prop) : P → Sending P F U → Prop
  | outside {p : P} {s : Sending P F U} : outside p s → Caused c innerPoll outside p s
  | handler {p : P} {s s' : Sending P F U} {h : Handling P F O U} (cells : List (Cell U)) :
      Caused c innerPoll outside p s → s.handling c p = some h →
      s' ∈ (h.polledOn c innerPoll cells).sent → Caused c innerPoll outside h.process s'

section Caused

variable {c : Cluster P T U} {innerPoll : SendingPoll P F O U}

omit [DecidableEq P] [DecidableEq T] in
theorem Caused.mono {outside outside' : P → Sending P F U → Prop}
    (hsub : ∀ p s, outside p s → outside' p s) {p : P} {s : Sending P F U}
    (h : Caused c innerPoll outside p s) : Caused c innerPoll outside' p s := by
  induction h with
  | outside hs => exact .outside (hsub _ _ hs)
  | handler cells _ hhandling hsent ih => exact .handler cells ih hhandling hsent

variable (c innerPoll)

/-- Everything that is sent has its chain of messages, every handling is that of a message after
some polls, and the cells hold what was left there outside handlers with a context. -/
structure Coherent (m : Mail P T F O U) : Prop where
  cell : m.cell = m.ambient
  caused : ∀ p s, (p, s) ∈ m.sent → Caused c innerPoll (fun p s => (p, s) ∈ m.outgoing) p s
  handled : ∀ h ∈ m.handlings, ∃ p s h₀ polls, (p, s) ∈ m.sent ∧ s.handling c p = some h₀ ∧
    h = h₀.polledOn c innerPoll polls

omit [DecidableEq P] [DecidableEq T] in
theorem start_coherent (cells : T → Cell U) :
    Coherent c innerPoll (start cells : Mail P T F O U) where
  cell := rfl
  caused _ _ h := by cases h
  handled _ h := by cases h

variable {c innerPoll}

/-- A poll of one of the handlings: what it sends has a chain of messages too. -/
theorem Coherent.poll {m : Mail P T F O U} (hm : Coherent c innerPoll m) (t : T) (i : Nat)
    (shared : List (ScopeNode U) → Bool) :
    Coherent c innerPoll (step c innerPoll m (.poll t i shared)).1 := by
  cases hi : m.handlings[i]? with
  | none =>
    simp only [step, hi]
    exact hm
  | some h =>
    simp only [step, hi, Handling.poll_shared c innerPoll shared fun _ => false]
    split_ifs with hhome
    · obtain ⟨p, s, h₀, polls, hsent, hhandling, hpolled⟩ := hm.handled h (List.mem_of_getElem? hi)
      obtain ⟨hprocess, -, hsent'⟩ := h.poll_continues c innerPoll (m.cell t)
      have hnext : (h.poll c innerPoll (fun _ => false) (m.cell t)).1 =
          h₀.polledOn c innerPoll (polls ++ [m.cell t]) := by
        rw [Handling.polledOn_concat, ← hpolled]
      refine ⟨?_, ?_, ?_⟩
      · cases hfuture : h.future with
        | wrapped future =>
          obtain ⟨-, hleft, -⟩ :=
            h.poll_of_hasContext c innerPoll ⟨future, hfuture⟩ (m.cell t) (m.cell t)
          dsimp only
          rw [hleft, Function.update_eq_self]
          exact hm.cell
        | bare fut =>
          dsimp only
          rw [hm.cell]
        | done =>
          dsimp only
          rw [hm.cell]
      · intro p' s' hmem
        rcases List.mem_append.mp hmem with hold | hnew
        · exact hm.caused p' s' hold
        · obtain ⟨s'', hs'', heq⟩ := List.mem_map.mp hnew
          obtain ⟨rfl, rfl⟩ := Prod.mk.inj heq
          have hprocess₀ : h.process = h₀.process := by
            rw [hpolled]
            exact (Handling.polledOn_continues c innerPoll polls h₀).1
          rw [hprocess₀]
          refine .handler (polls ++ [m.cell t]) (hm.caused p s hsent) hhandling ?_
          rw [← hnext, hsent']
          exact List.mem_append_right _ hs''
      · intro h' hmem
        rcases List.mem_or_eq_of_mem_set hmem with hold | rfl
        · obtain ⟨p', s', h₁, polls', hrest⟩ := hm.handled h' hold
          exact ⟨p', s', h₁, polls', List.mem_append_left _ hrest.1, hrest.2⟩
        · exact ⟨p, s, h₀, _, List.mem_append_left _ hsent, hhandling, hnext⟩
    · exact hm

/-- **Every event keeps the chains.** -/
theorem step_coherent (m : Mail P T F O U) (event : Event P T F U) (hm : Coherent c innerPoll m) :
    Coherent c innerPoll (step c innerPoll m event).1 := by
  cases event with
  | outside t content =>
    refine ⟨?_, hm.caused, hm.handled⟩
    show Function.update m.cell t content = Function.update m.ambient t content
    rw [hm.cell]
  | send t s =>
    refine ⟨hm.cell, ?_, ?_⟩
    · intro p s' hmem
      rcases List.mem_append.mp hmem with hold | hnew
      · exact (hm.caused p s' hold).mono fun _ _ h => List.mem_append_left _ h
      · exact .outside (List.mem_append_right _ hnew)
    · intro h hmem
      obtain ⟨p, s', h₀, polls, hrest⟩ := hm.handled h hmem
      exact ⟨p, s', h₀, polls, List.mem_append_left _ hrest.1, hrest.2⟩
  | receive k =>
    cases hk : m.sent[k]? with
    | none =>
      simp only [step, hk]
      exact hm
    | some e =>
      obtain ⟨p, s⟩ := e
      cases hs : (s.handling c p : Option (Handling P F O U)) with
      | none =>
        simp only [step, hk, hs]
        exact hm
      | some h =>
        simp only [step, hk, hs]
        refine ⟨hm.cell, hm.caused, ?_⟩
        intro h' hmem
        rcases List.mem_append.mp hmem with hold | hnew
        · exact hm.handled h' hold
        · obtain rfl := List.mem_singleton.mp hnew
          exact ⟨p, s, h', [], List.mem_of_getElem? hk, hs, rfl⟩
  | poll t i shared => exact hm.poll t i shared

theorem after_coherent (cells : T → Cell U) (events : List (Event P T F U)) :
    Coherent c innerPoll (after c innerPoll cells events) :=
  run_invariant step_coherent events _ (start_coherent c innerPoll cells)

end Caused

/-- **Contexts follow the chains of messages**, in every interleaving of sends, receipts and polls,
where messages may be lost, repeated and reordered and handlers return from their polls normally.
Everything that is sent has a chain of messages that leads to it from code outside handlers. Every
handling is that of such a message, and when it has a context, it has found, answered and sent what
it would after as many polls on any other threads; and no poll of a handler with a context leaves
anything in a cell. -/
theorem handlers_caused (c : Cluster P T U) (innerPoll : SendingPoll P F O U) (cells : T → Cell U)
    (events : List (Event P T F U)) :
    let m := after c innerPoll cells events
    (∀ p s, (p, s) ∈ m.sent → Caused c innerPoll (fun p s => (p, s) ∈ m.outgoing) p s) ∧
      (∀ h ∈ m.handlings, ∃ p s h₀ polls, (p, s) ∈ m.sent ∧ s.handling c p = some h₀ ∧
        h = h₀.polledOn c innerPoll polls ∧
        (h₀.HasContext → ∀ polls' : List (Cell U), polls'.length = polls.length →
          h = h₀.polledOn c innerPoll polls')) ∧
      ∀ t, m.cell t = m.ambient t := by
  intro m
  have hm : Coherent c innerPoll m := after_coherent cells events
  refine ⟨hm.caused, ?_, congrFun hm.cell⟩
  intro h hmem
  obtain ⟨p, s, h₀, polls, hsent, hhandling, hpolled⟩ := hm.handled h hmem
  refine ⟨p, s, h₀, polls, hsent, hhandling, hpolled, ?_⟩
  intro hcontext polls' hlength
  rw [hpolled]
  exact Handling.polledOn_congr c innerPoll hcontext hlength.symm

/-! ## What a handler finds -/

/-- What a message takes along under a key, when it is sent. -/
def Sending.taken (c : Cluster P T U) (p : P) (s : Sending P F U) (key : Key) :
    Option (ContextValue U) :=
  if (c.globals p).registry.isLocalKey key then none else s.cell.bind (·.getValue key)

/-- What of it the receiver accepts, in the process itself or as it is read from bytes. -/
def Sending.accepted (c : Cluster P T U) (p : P) (s : Sending P F U) (key : Key) :
    Option (ContextValue U) :=
  if s.link.isRemote then
    (s.taken c p key).bind
      (route key (c.globals p).registry [(c.globals (s.destination p)).registry])
  else (s.taken c p key).filter ((c.globals p).registry.isValidValue key)

section Find

variable {c : Cluster P T U} {p : P} {s : Sending P F U}

omit [DecidableEq P] [DecidableEq T]

theorem lookup_capture (key : Key) :
    (Thread.capture (c.globals p) s.cell).values.lookup key = s.taken c p key := by
  unfold Sending.taken
  cases s.cell with
  | none =>
    show (∅ : ValueMap U).lookup key = _
    rw [Finmap.lookup_empty, Option.bind_none, ite_self]
  | some store => exact lookup_captureWithRegistry (c.globals p).maxScopeChainLen store _ key

theorem scopeChain_capture :
    (Thread.capture (c.globals p) s.cell).scopeChain = Thread.scopeChain (c.globals p) s.cell := by
  cases s.cell <;> rfl

/-- A handler with a context got it from the headers of its message. -/
theorem extractContext_of_receive {message : Actors.Message F U} {future : HandlerFuture F U}
    (h : receive c p message = some (.wrapped future)) :
    ∃ snapshot, extractContext (c.globals p) message.headers = some snapshot ∧
      future = .unresumed ⟨snapshot, callName message.actorName⟩ message.handler := by
  have hextract := (extractContext_onReceive (c.inbound p) (c.globals p) message.headers
    message.actorName).1
  unfold receive at h
  rcases hreceived : onReceive (c.inbound p) (c.globals p) message.headers with
    ⟨received, disposition⟩
  rw [hreceived] at h hextract
  cases disposition with
  | reject reason => cases h
  | «continue» =>
    dsimp only at h hextract
    unfold wrapHandler at h hextract
    cases hheader : received.lookup HeaderType.snapshot with
    | none =>
      rw [hheader] at h
      cases h
    | some header =>
      rw [hheader] at h hextract
      obtain rfl := Actors.Delivered.wrapped.inj (Option.some.inj h)
      exact ⟨header.snapshot, hextract.symm, rfl⟩

/-- The context in the headers of a message is the capture of its sender, as it was or through
bytes. -/
theorem extractContext_of_message {message : Actors.Message F U} {snapshot : ContextSnapshot U}
    (g : Globals U) (h : s.message c p = some message)
    (hsnapshot : extractContext g message.headers = some snapshot) :
    message.actorName = s.actorName ∧ message.handler = s.handler ∧
      if s.link.isRemote then
        ∃ bytes, (Thread.capture (c.globals p) s.cell).serialize (c.globals p) s.iter = .ok bytes ∧
          ContextSnapshot.deserialize g bytes = .ok snapshot
      else snapshot = Thread.capture (c.globals p) s.cell := by
  unfold Sending.message onSend at h
  cases hlink : s.link with
  | within =>
    rw [hlink] at h
    obtain rfl := Option.some.inj h
    refine ⟨rfl, rfl, ?_⟩
    rw [extractContext, Link.carry, Finmap.lookup_insert] at hsnapshot
    exact (Option.some.inj hsnapshot).symm
  | remote transport registry =>
    rw [hlink] at h
    have harrived : ∀ sent : Headers U, extractContext g
        (transport.carry (registerContextHeaders registry) sent) =
          (sent.lookup HeaderType.context).bind fun header => bytesToSnapshot g header.bytes := by
      intro sent
      rw [extractContext, transport.lookup_snapshot, transport.lookup_context]
    cases hbytes : (Thread.capture (c.globals p) s.cell).serialize (c.globals p) s.iter with
    | ok bytes =>
      simp only [Link.isRemote, if_true, hbytes] at h
      obtain rfl := Option.some.inj h
      refine ⟨rfl, rfl, bytes, rfl, ?_⟩
      rw [Link.carry, harrived, Finmap.lookup_insert, Option.bind_some] at hsnapshot
      unfold bytesToSnapshot at hsnapshot
      cases hread : ContextSnapshot.deserialize g bytes with
      | ok result =>
        rw [hread] at hsnapshot
        rw [Option.some.inj hsnapshot]
      | error e =>
        rw [hread] at hsnapshot
        cases hsnapshot
    | error e =>
      simp only [Link.isRemote, if_true, hbytes] at h
      unfold ErrorPolicy.disposition at h
      split_ifs at h
      obtain rfl := Option.some.inj h
      rw [Link.carry, harrived, Finmap.lookup_empty] at hsnapshot
      cases hsnapshot

/-- **A message that brings a context** has brought the capture of its sender, as it was or through
bytes. -/
theorem Sending.handling_wrapped {h : Handling P F O U} (hhandling : s.handling c p = some h)
    (hcontext : h.HasContext) :
    ∃ snapshot, h = ⟨s.destination p, .wrapped (.unresumed ⟨snapshot, callName s.actorName⟩
        s.handler), [], []⟩ ∧
      if s.link.isRemote then
        ∃ bytes, (Thread.capture (c.globals p) s.cell).serialize (c.globals p) s.iter = .ok bytes ∧
          ContextSnapshot.deserialize (c.globals (s.destination p)) bytes = .ok snapshot
      else snapshot = Thread.capture (c.globals p) s.cell := by
  obtain ⟨message, hmessage, hreceive⟩ := Option.bind_eq_some_iff.mp hhandling
  obtain ⟨delivered, hdelivered, rfl⟩ := Option.map_eq_some_iff.mp hreceive
  obtain ⟨future, rfl⟩ := hcontext
  obtain ⟨snapshot, hsnapshot, rfl⟩ := extractContext_of_receive hdelivered
  obtain ⟨hname, hhandler, hbrought⟩ := extractContext_of_message _ hmessage hsnapshot
  rw [hname, hhandler]
  exact ⟨snapshot, rfl, hbrought⟩

/-- At its first poll a handler with a context finds its initial context. -/
theorem Handling.polledOn_head (innerPoll : SendingPoll P F O U) {snapshot : ContextSnapshot U}
    {h : Handling P F O U} {name : String} {next : F}
    (hfuture : h.future = .wrapped (.unresumed ⟨snapshot, name⟩ next)) (hrecord : h.record = [])
    (polls : List (Cell U)) : ∀ first ∈ (h.polledOn c innerPoll polls).record.head?,
      first.1 = some (HandlerFuture.initialContext (c.globals h.process) (fun _ => false)
        ⟨snapshot, name⟩ none) := by
  obtain ⟨process, future, record, sent⟩ := h
  dsimp only at hfuture hrecord
  subst hfuture hrecord
  intro first hfirst
  cases polls with
  | nil => cases hfirst
  | cons cell cells =>
    obtain ⟨-, rest, hrest⟩ := Handling.polledOn_continues c innerPoll cells
      (Handling.poll c innerPoll (fun _ => false)
        ⟨process, .wrapped (.unresumed ⟨snapshot, name⟩ next), [], sent⟩ cell).1
    have hpolled : (Handling.polledOn c innerPoll
        ⟨process, .wrapped (.unresumed ⟨snapshot, name⟩ next), [], sent⟩ (cell :: cells)).record =
          _ := hrest.symm
    rw [hpolled] at hfirst
    obtain rfl := Option.some.inj hfirst
    rfl

/-- The values that a snapshot brings, when it has been read from bytes. -/
theorem lookup_of_bytes {q : P} {bytes : ByteVec} {snapshot : ContextSnapshot U}
    (hbytes : (Thread.capture (c.globals p) s.cell).serialize (c.globals p) s.iter = .ok bytes.1)
    (hread : ContextSnapshot.deserialize (c.globals q) bytes.1 = .ok snapshot) (key : Key) :
    (snapshot.values.lookup key).filter (fun v =>
        (c.globals q).registry.isValidValue key v && !(c.globals q).registry.isLocalKey key) =
      (s.taken c p key).bind (route key (c.globals p).registry [(c.globals q).registry]) := by
  have hsafe : LocalSafe (c.globals q).registry.map := built_localSafe ⟨c.calls q, rfl⟩
  have haccepted : Accepted (c.globals q).registry snapshot.values :=
    deserialize_accepted hsafe (built_decodersTyped ⟨c.calls q, rfl⟩) hread
  obtain ⟨-, hvalues⟩ := (deserialize_serialize_iff hsafe hbytes snapshot).mp hread
  have hlookup := hvalues.lookup_eq key
  rw [lookup_capture] at hlookup
  have hkept : (snapshot.values.lookup key).filter (fun v =>
      (c.globals q).registry.isValidValue key v && !(c.globals q).registry.isLocalKey key) =
        snapshot.values.lookup key := by
    cases hval : snapshot.values.lookup key with
    | none => rfl
    | some val =>
      obtain ⟨hvalid, hlocal⟩ := haccepted key val hval
      simp [Option.filter, hvalid, hlocal]
  rw [hkept, hlookup]
  congr 1
  funext val
  exact (Option.bind_fun_some _).symm

/-- The values that a capture brings in its own process. -/
theorem lookup_of_capture (key : Key) :
    ((Thread.capture (c.globals p) s.cell).values.lookup key).filter (fun v =>
        (c.globals p).registry.isValidValue key v && !(c.globals p).registry.isLocalKey key) =
      (s.taken c p key).filter ((c.globals p).registry.isValidValue key) := by
  rw [lookup_capture]
  unfold Sending.taken
  cases hlocal : (c.globals p).registry.isLocalKey key <;> simp

/-- **What the initial context shows** of what the sender showed. -/
theorem initialContext_of_handling {h : Handling P F O U} (hhandling : s.handling c p = some h)
    (hcontext : h.HasContext) (hfits : s.link.isRemote → ∃ bytes : ByteVec,
      (Thread.capture (c.globals p) s.cell).serialize (c.globals p) s.iter = .ok bytes.1) :
    ∃ snapshot, h = ⟨s.destination p, .wrapped (.unresumed ⟨snapshot, callName s.actorName⟩
        s.handler), [], []⟩ ∧
      snapshot.scopeChain = Thread.scopeChain (c.globals p) s.cell ∧
      ∀ key, (snapshot.values.lookup key).filter (fun v =>
          (c.globals (s.destination p)).registry.isValidValue key v &&
            !(c.globals (s.destination p)).registry.isLocalKey key) = s.accepted c p key := by
  obtain ⟨snapshot, hh, hbrought⟩ := s.handling_wrapped hhandling hcontext
  refine ⟨snapshot, hh, ?_⟩
  unfold Sending.accepted
  cases hremote : s.link.isRemote with
  | true =>
    obtain ⟨bytes, hbytes⟩ := hfits hremote
    rw [hremote, if_pos rfl] at hbrought
    obtain ⟨bytes', hbytes', hread⟩ := hbrought
    obtain rfl := Except.ok.inj (hbytes'.symm.trans hbytes)
    have hsafe : LocalSafe (c.globals (s.destination p)).registry.map :=
      built_localSafe ⟨c.calls (s.destination p), rfl⟩
    have hchain := ((deserialize_serialize_iff hsafe hbytes snapshot).mp hread).1
    exact ⟨hchain.trans scopeChain_capture, fun key => lookup_of_bytes hbytes hread key⟩
  | false =>
    rw [hremote, if_neg Bool.false_ne_true] at hbrought
    have hsame : s.destination p = p := by
      rw [Sending.destination, hremote]
      rfl
    rw [hbrought, hsame]
    exact ⟨scopeChain_capture, fun key => lookup_of_capture key⟩

end Find

/-- **What a handler finds at its first poll**, in every interleaving, when its message brings a
context: under each key what its sender showed there when it sent the message, less what is
local-only, as the registries of the two processes make of it; and the scope chain of the sender
then, with the name of the call. -/
theorem handlers_find (c : Cluster P T U) (innerPoll : SendingPoll P F O U) (cells : T → Cell U)
    (events : List (Event P T F U)) :
    let m := after c innerPoll cells events
    ∀ h ∈ m.handlings, ∃ p s h₀ polls, (p, s) ∈ m.sent ∧ s.handling c p = some h₀ ∧
      h = h₀.polledOn c innerPoll polls ∧
      (h₀.HasContext → (s.link.isRemote → ∃ bytes : ByteVec,
          (Thread.capture (c.globals p) s.cell).serialize (c.globals p) s.iter = .ok bytes.1) →
        ∀ first ∈ h.record.head?, ∃ ctx, first.1 = some ctx ∧
          (∀ key, ctx.getValue key = s.accepted c p key) ∧
          ctx.scopeChain (c.maxScopeChainLen h.process) = keepLast (c.maxScopeChainLen h.process)
            (Thread.scopeChain (c.globals p) s.cell ++ ["remote:" ++ s.actorName])) := by
  intro m h hmem
  have hm : Coherent c innerPoll m := after_coherent cells events
  obtain ⟨p, s, h₀, polls, hsent, hhandling, hpolled⟩ := hm.handled h hmem
  refine ⟨p, s, h₀, polls, hsent, hhandling, hpolled, ?_⟩
  intro hcontext hfits first hfirst
  obtain ⟨snapshot, hh₀, hchain, hvalues⟩ := initialContext_of_handling hhandling hcontext hfits
  have hprocess : h.process = s.destination p := by
    rw [hpolled, (Handling.polledOn_continues c innerPoll polls h₀).1, hh₀]
  rw [hpolled] at hfirst
  have hfound := Handling.polledOn_head innerPoll (congrArg Handling.future hh₀)
    (congrArg Handling.record hh₀) polls first hfirst
  refine ⟨_, hfound, fun key => ?_, ?_⟩
  · rw [HandlerFuture.getValue_initialContext, ← hvalues key, hh₀]
  · rw [hprocess]
    have hscopes := HandlerFuture.scopeChain_initialContext (c.globals h₀.process)
      (fun _ => false) ⟨snapshot, callName s.actorName⟩ none
    rw [hh₀, hchain] at hscopes
    rw [hh₀]
    exact hscopes

/-- A handler that answers with the number it reads. -/
def numberReader : SendingPoll Bool Unit (Option (primitiveTypes.El .u64)) primitiveTypes :=
  fun _ cell => ((.ready (Thread.getContextVariable PrimitiveType.u64 "k" cell), (), cell), [])

/-- Two processes, each of one thread, that have registered the number. -/
def numberCluster : Cluster Bool Bool primitiveTypes where
  home := id
  calls _ := numberCalls
  maxContextSize _ := 0
  maxScopeChainLen _ := 64
  outbound _ := .reject
  inbound _ := .reject

/-- A message from a thread that holds the number, to the other process. -/
def numberSending (iter : IterationOrder primitiveTypes) : Sending Bool Unit primitiveTypes :=
  ⟨some numberStore, iter, .remote .direct ∅, true, "a", ()⟩

/-- What it leads to when it is received. -/
def numberHandling : Handling Bool Unit (Option (primitiveTypes.El .u64)) primitiveTypes :=
  ⟨true, .wrapped (.unresumed ⟨⟨Finmap.insert "k" (u64Value 7) ∅, []⟩, "remote:a"⟩ ()), [], []⟩

theorem handling_numberSending (iter : IterationOrder primitiveTypes) :
    (numberSending iter).handling numberCluster false = some numberHandling := by
  have hsent : onSend .reject (numberCluster.globals false) iter true (some numberStore) ∅ =
      (Finmap.insert .context ⟨wireContextFormat.write ⟨2, [⟨"k", 1, ByteFormat.u64.write 7⟩], []⟩⟩
        ∅, .«continue») := by
    rw [onSend, if_pos rfl]
    rw [show (Thread.capture (numberCluster.globals false) (some numberStore)).serialize
      (numberCluster.globals false) iter = _ from serialize_capture_numberStore iter]
  have hmessage : (numberSending iter).message numberCluster false = some
      ⟨Link.carry (.remote .direct ∅) (Finmap.insert .context
        ⟨wireContextFormat.write ⟨2, [⟨"k", 1, ByteFormat.u64.write 7⟩], []⟩⟩ ∅), "a", ()⟩ :=
    Sending.message_of_onSend hsent
  rw [Sending.handling, hmessage]
  rfl

/-- The message is sent, received and handled. -/
def numberSent (iter : IterationOrder primitiveTypes) :
    List (Event Bool Bool Unit primitiveTypes) :=
  [.outside false (some numberStore), .send false (numberSending iter), .receive 0,
    .poll true 0 fun _ => false]

/-- The handler finds the number of the other process, and the call. -/
theorem handlers_find_numberSent :
    let m := after numberCluster numberReader (fun _ => none) (numberSent .arbitrary)
    ∃ h ∈ m.handlings, ∃ first ∈ h.record.head?, ∃ ctx, first.1 = some ctx ∧
      ctx.getValue "k" = some (u64Value 7) ∧ ctx.scopeChain 64 = ["remote:a"] := by
  intro m
  let sent := (run (step numberCluster numberReader) (start fun _ => none)
    ((numberSent .arbitrary).take 2)).1
  have hreceived : (step numberCluster numberReader sent (.receive 0)).1 =
      { sent with handlings := [numberHandling] } := by
    have hfirst : sent.sent[0]? = some (false, numberSending .arbitrary) := rfl
    simp only [step, hfirst, handling_numberSending]
    rfl
  have hm : m = (step numberCluster numberReader { sent with handlings := [numberHandling] }
      (.poll true 0 fun _ => false)).1 := by
    rw [← hreceived]
    rfl
  have hsent : m.sent = [(false, numberSending .arbitrary)] := by
    rw [hm]
    rfl
  have hhandlings : m.handlings =
      [(numberHandling.poll numberCluster numberReader (fun _ => false) none).1] := by
    rw [hm]
    rfl
  have hmem : (numberHandling.poll numberCluster numberReader (fun _ => false) none).1 ∈
      m.handlings := by
    rw [hhandlings]
    exact List.mem_cons_self
  obtain ⟨p, s, h₀, polls, hs, hhandling, -, hfinds⟩ :=
    handlers_find numberCluster numberReader (fun _ => none) (numberSent .arbitrary) _ hmem
  have hs' : (p, s) ∈ [(false, numberSending .arbitrary)] := hsent ▸ hs
  obtain ⟨rfl, rfl⟩ := Prod.mk.inj (List.mem_singleton.mp hs')
  obtain rfl := Option.some.inj ((handling_numberSending .arbitrary).symm.trans hhandling)
  obtain ⟨ctx, hctx, hvalues, hchain⟩ := hfinds ⟨_, rfl⟩
    (fun _ => ⟨⟨_, by decide⟩, serialize_capture_numberStore .arbitrary⟩) _ rfl
  exact ⟨_, hmem, _, rfl, ctx, hctx, (hvalues "k").trans rfl, hchain⟩

/-- A handler that answers with the number it reads, and sends it on to a handler like itself if it
is told to. -/
noncomputable def forwarder :
    SendingPoll Unit Bool (Option (primitiveTypes.El .u64)) primitiveTypes := fun forwards cell =>
  ((.ready (Thread.getContextVariable PrimitiveType.u64 "k" cell), forwards, cell),
    if forwards then [⟨cell, .arbitrary, .within, (), "b", false⟩] else [])

/-- A thread that sends the number, and another one that handles both messages. -/
noncomputable def forwarding : List (Event Unit Bool Bool primitiveTypes) :=
  [.outside false (some numberStore), .send false ⟨none, .arbitrary, .within, (), "a", true⟩,
    .receive 0, .poll true 0 fun _ => false, .receive 1, .poll true 1 fun _ => false]

example :
    let m := after ⟨fun _ => (), fun _ => numberCalls, fun _ => 0, fun _ => 64, fun _ => .reject,
      fun _ => .reject⟩ forwarder (fun _ => none) forwarding
    m.handlings.map (fun h => h.record.map Prod.snd) =
      [[.ready (some (7 : UInt64))], [.ready (some (7 : UInt64))]] := rfl

end Messaging

end DContext
