import DContext.Store.Provenance
import DContext.Wire.Upgrade

/-!
# Processes that exchange contexts

Any number of processes, each with its own registry and any number of threads. The threads of a
process hand stores and snapshots to each other; bytes that were serialized anywhere are delivered
anywhere, once, several times, late or never. The processes' steps interleave in any order.

## Main definitions

* `Network U ι`, `NetworkOp U ι`, `Network.step`: the threads, and what happens
* `Traces g home written p key value`: the value was written under the key, and has come to the
  process `p` by encoding and decoding alone
* `HeldBy Q p`: all that a process holds meets a condition

## Main results

* `Process.step_heldBy`: one step of one thread
* `network_traces`: nothing is shown anywhere that was not written under its key
* `network_local_only`: local-only values are written in the process that shows them
* `network_exact`: where all processes know the same keys, they show what was written
-/

namespace DContext

open Overlay StepSystem

variable {U : TypeUniverse} {ι π : Type}

/-! ## One thread -/

/-- Whether the operation reads bytes. -/
def ProcessOp.isDeserialize : ProcessOp U → Bool
  | .deserialize _ => true
  | _ => false

/-- The values that an operation writes on a thread, with their keys; nothing is written to an
empty cell. -/
def Process.writes (p : Process U) : ProcessOp U → List (Key × ContextValue U)
  | .setContextVariable t key value => if p.cell.isSome then [(key, ⟨t, value⟩)] else []
  | .updateContextVariable t key f =>
    if p.cell.isSome then
      [(key, ⟨t, f ((Thread.getContextVariable t key p.cell).getD (U.default t))⟩)]
    else []
  | _ => []

/-- Everything that a process holds in a store or a snapshot meets the condition, and all it has
sent was serialized from such a snapshot. -/
structure HeldBy (g : Globals U) (Q : Key → ContextValue U → Prop) (p : Process U) : Prop where
  cell : ∀ s ∈ p.cell, s.HoldsOnly Q
  guards : ∀ guard ∈ p.guards, ∀ s ∈ guard.prev, s.HoldsOnly Q
  stores : ∀ s ∈ p.stores, s.HoldsOnly Q
  snaps : ∀ snap ∈ p.snaps, snap.values.All Q
  sent : ∀ bytes ∈ p.sent, ∃ (snap : ContextSnapshot U) (iter : IterationOrder U),
    snap.serialize g iter = .ok bytes ∧ snap.values.All Q

namespace HeldBy

variable {g : Globals U} {Q : Key → ContextValue U → Prop} {p : Process U}

theorem mono (h : HeldBy g Q p) {Q' : Key → ContextValue U → Prop}
    (hQ : ∀ key value, Q key value → Q' key value) : HeldBy g Q' p where
  cell s hs := (h.cell s hs).mono hQ
  guards guard hguard s hs := (h.guards guard hguard s hs).mono hQ
  stores s hs := (h.stores s hs).mono hQ
  snaps snap hsnap := (h.snaps snap hsnap).mono hQ
  sent bytes hbytes := by
    obtain ⟨snap, iter, hserialize, hvalues⟩ := h.sent bytes hbytes
    exact ⟨snap, iter, hserialize, hvalues.mono hQ⟩

theorem start (g : Globals U) : HeldBy g Q (Process.start (some .new)) where
  cell s hs := by
    obtain rfl := Option.some.inj hs
    exact .new
  guards _ h := by cases h
  stores _ h := by cases h
  snaps _ h := by cases h
  sent _ h := by cases h

/-- Another store in the cell. -/
theorem withCell (h : HeldBy g Q p) {cell : Cell U} (hcell : ∀ s ∈ cell, s.HoldsOnly Q) :
    HeldBy g Q { p with cell := cell } :=
  ⟨hcell, h.guards, h.stores, h.snaps, h.sent⟩

/-- The store in the cell after one of its operations. -/
theorem withStore (h : HeldBy g Q p) {R : Type} {f : ContextStore U → ContextStore U × R}
    (hf : ∀ s, s.HoldsOnly Q → (f s).1.HoldsOnly Q) :
    ∀ s ∈ (tryApply p.cell f).1, s.HoldsOnly Q := by
  intro s hs
  cases hcell : p.cell with
  | none =>
    rw [hcell] at hs
    cases hs
  | some s₀ =>
    rw [hcell, tryApply_some] at hs
    obtain rfl := Option.some.inj hs
    exact hf s₀ (h.cell s₀ hcell)

theorem addStore (h : HeldBy g Q p) {s : ContextStore U} (hs : s.HoldsOnly Q) :
    HeldBy g Q { p with stores := p.stores ++ [s] } := by
  refine ⟨h.cell, h.guards, ?_, h.snaps, h.sent⟩
  exact List.forall_mem_append.mpr ⟨h.stores, List.forall_mem_singleton.mpr hs⟩

theorem addSnap (h : HeldBy g Q p) {snap : ContextSnapshot U} (hsnap : snap.values.All Q) :
    HeldBy g Q { p with snaps := p.snaps ++ [snap] } := by
  refine ⟨h.cell, h.guards, h.stores, ?_, h.sent⟩
  exact List.forall_mem_append.mpr ⟨h.snaps, List.forall_mem_singleton.mpr hsnap⟩

/-- A store is put in the cell, and the guard keeps what was there. -/
theorem attach (h : HeldBy g Q p) {s : ContextStore U} (hs : s.HoldsOnly Q) :
    HeldBy g Q { p with
      cell := (Thread.attachStore s p.cell).1
      guards := p.guards ++ [(Thread.attachStore s p.cell).2] } := by
  refine ⟨?_, ?_, h.stores, h.snaps, h.sent⟩
  · intro s' hs'
    obtain rfl := Option.some.inj hs'
    exact hs
  · exact List.forall_mem_append.mpr ⟨h.guards, List.forall_mem_singleton.mpr h.cell⟩

/-- A value that meets the condition is written, if there is a store to write to. -/
theorem write (h : HeldBy g Q p) {t : U.TypeId} {key : Key} {value : U.El t}
    (hvalue : p.cell.isSome = true → Q key ⟨t, value⟩) :
    HeldBy g Q { p with cell := Thread.setContextVariable t key value p.cell } := by
  refine h.withCell ?_
  cases hcell : p.cell with
  | none =>
    intro s hs
    cases hs
  | some s₀ =>
    intro s hs
    obtain rfl := Option.some.inj hs
    rw [hcell] at hvalue
    exact (h.cell s₀ hcell).setValue (hvalue rfl)

/-- What was converted is not looked at again. -/
theorem withConverted (h : HeldBy g Q p) (converted : List (ContextStore U)) :
    HeldBy g Q { p with converted := converted } :=
  ⟨h.cell, h.guards, h.stores, h.snaps, h.sent⟩

end HeldBy

/-- **One step of one thread** keeps a condition that its writes meet, and the values of what it
reads. -/
theorem Process.step_heldBy {g : Globals U} {Q : Key → ContextValue U → Prop} {p : Process U}
    (h : HeldBy g Q p) (op : ProcessOp U) (hwrites : ∀ w ∈ p.writes op, Q w.1 w.2)
    (hread : ∀ bytes snap, op = .deserialize bytes →
      ContextSnapshot.deserialize g bytes = .ok snap → snap.values.All Q) :
    HeldBy g Q (step g p op).1 := by
  cases op with
  | pushScope name =>
    exact h.withCell (h.withStore fun s hs => hs.pushScope g.registry (some name))
  | dropScopeGuard shared guard =>
    refine h.withCell ?_
    unfold ScopeGuard.drop leaveScope
    split_ifs
    · exact h.cell
    · exact h.withStore fun s hs => hs.popScope shared guard.expectedDepth
  | setContextVariable t key value =>
    refine h.write fun hsome => hwrites (key, ⟨t, value⟩) ?_
    rw [writes, if_pos hsome]
    exact List.mem_singleton_self _
  | updateContextVariable t key f =>
    refine h.write fun hsome => hwrites (key, ⟨t, _⟩) ?_
    rw [writes, if_pos hsome]
    exact List.mem_singleton_self _
  | mergeWith i =>
    simp only [step]
    split
    · next source hsource =>
      have hvalues := (h.stores source (List.mem_of_getElem? hsource)).collectValues
      exact h.withCell (h.withStore fun s hs => hs.overwrite hvalues)
    · exact h
  | clear => exact h.withCell (h.withStore fun _ _ => .new)
  | fork =>
    refine h.addStore ?_
    cases hcell : p.cell with
    | none => exact .new
    | some s => exact (h.cell s hcell).forkChild
  | attachStore i =>
    simp only [step]
    split
    · next s hs => exact h.attach (h.stores s (List.mem_of_getElem? hs))
    · exact h
  | attachSnapshot i =>
    simp only [step]
    split
    · next snap hsnap =>
      have hvalues := h.snaps snap (List.mem_of_getElem? hsnap)
      exact (h.attach (.ofSnapshot hvalues g.registry)).withConverted _
    · exact h
  | dropAttachGuard i =>
    simp only [step]
    split
    · next guard hguard => exact h.withCell (h.guards guard (List.mem_of_getElem? hguard))
    · exact h
  | capture =>
    refine h.addSnap ?_
    cases hcell : p.cell with
    | none => exact .empty
    | some s => exact (h.cell s hcell).capture g.maxScopeChainLen g.registry
  | cloneSnapshot i =>
    simp only [step]
    split
    · next snap hsnap => exact h.addSnap (h.snaps snap (List.mem_of_getElem? hsnap))
    · exact h
  | convert i =>
    simp only [step]
    split
    · next snap hsnap =>
      have hvalues := h.snaps snap (List.mem_of_getElem? hsnap)
      exact (h.addStore (.ofSnapshot hvalues g.registry)).withConverted _
    · exact h
  | serialize i iter =>
    simp only [step]
    split
    · next snap hsnap =>
      split
      · next bytes hbytes =>
        refine ⟨h.cell, h.guards, h.stores, h.snaps, ?_⟩
        have hvalues := h.snaps snap (List.mem_of_getElem? hsnap)
        exact List.forall_mem_append.mpr
          ⟨h.sent, List.forall_mem_singleton.mpr ⟨snap, iter, hbytes, hvalues⟩⟩
      · exact h
    · exact h
  | deserialize bytes =>
    simp only [step]
    split
    · next snap hsnap => exact h.addSnap (hread bytes snap rfl hsnap)
    · exact h

/-! ## All of them -/

/-- The threads, and all that was ever written: by which thread, under which key, which value. -/
structure Network (U : TypeUniverse) (ι : Type) where
  thread : ι → Process U
  written : List (ι × Key × ContextValue U)

/-- What can happen. A thread acts, bytes that a thread has sent are delivered to another, or a
store or a snapshot is handed to another thread of the process. -/
inductive NetworkOp (U : TypeUniverse) (ι : Type)
  | act (t : ι) (op : { op : ProcessOp U // op.isDeserialize = false })
  | deliver (t sender : ι) (i : Nat)
  | handStore (t source : ι) (i : Nat)
  | handSnapshot (t source : ι) (i : Nat)

namespace Network

variable [DecidableEq ι]

/-- Threads that have done nothing, each with the store of a new thread. -/
def start : Network U ι := ⟨fun _ => Process.start (some .new), []⟩

/-- The process of a thread becomes another. -/
def put (net : Network U ι) (t : ι) (p : Process U) : Network U ι :=
  { net with thread := Function.update net.thread t p }

/-- The same thread moves on in two networks, and the others stay as related as they are. -/
theorem put_related {R : ι → Process U → Process U → Prop} {net net' : Network U ι}
    (h : ∀ t, R t (net.thread t) (net'.thread t)) {t : ι} {p p' : Process U} (hp : R t p p')
    (t' : ι) : R t' ((net.put t p).thread t') ((net'.put t p').thread t') := by
  by_cases ht : t' = t
  · subst ht
    show R t' (Function.update net.thread t' p t') (Function.update net'.thread t' p' t')
    rw [Function.update_self, Function.update_self]
    exact hp
  · show R t' (Function.update net.thread t p t') (Function.update net'.thread t p' t')
    rw [Function.update_of_ne ht, Function.update_of_ne ht]
    exact h t'

/-- One thread moves on, and the others stay as they are. -/
theorem forall_put {P : ι → Process U → Prop} {net : Network U ι} (h : ∀ t, P t (net.thread t))
    {t : ι} {p : Process U} (hp : P t p) (t' : ι) : P t' ((net.put t p).thread t') :=
  @put_related U ι _ (fun t p _ => P t p) net net h t p p hp t'

variable [DecidableEq π]

/-- What happens, where `home` is the process of each thread and `g` the state of each process. -/
def step (g : π → Globals U) (home : ι → π) (net : Network U ι) :
    NetworkOp U ι → Network U ι × Unit
  | .act t op =>
    let p := net.thread t
    ({ net.put t (Process.step (g (home t)) p op.1).1 with
        written := net.written ++ (p.writes op.1).map fun w => (t, w.1, w.2) }, ())
  | .deliver t sender i =>
    match (net.thread sender).sent[i]? with
    | none => (net, ())
    | some bytes =>
      -- what is delivered is in a `Vec<u8>`
      if bytes.length < 2 ^ 64 then
        (net.put t (Process.step (g (home t)) (net.thread t) (.deserialize bytes)).1, ())
      else (net, ())
  | .handStore t source i =>
    match (net.thread source).stores[i]? with
    | none => (net, ())
    | some s =>
      if home t = home source then
        (net.put t { net.thread t with stores := (net.thread t).stores ++ [s] }, ())
      else (net, ())
  | .handSnapshot t source i =>
    match (net.thread source).snaps[i]? with
    | none => (net, ())
    | some snap =>
      if home t = home source then
        (net.put t { net.thread t with snaps := (net.thread t).snaps ++ [snap] }, ())
      else (net, ())

end Network

/-- The value was written under the key by a thread of the process, or has come to it from a
process it had come to, encoded there and decoded here. -/
inductive Traces (g : π → Globals U) (home : ι → π) (written : List (ι × Key × ContextValue U)) :
    π → Key → ContextValue U → Prop
  | written {t : ι} {key : Key} {value : ContextValue U} (hw : (t, key, value) ∈ written) :
      Traces g home written (home t) key value
  | crossed {p q : π} {key : Key} {value value' : ContextValue U} {bytes : ByteVec}
      (htrace : Traces g home written p key value)
      (hencoded : valueEncoder (g p).registry key value = .ok bytes.1)
      (htrans : transcode (g p).registry (g q).registry key value = .ok (some value')) :
      Traces g home written q key value'

theorem Traces.mono {g : π → Globals U} {home : ι → π}
    {written written' : List (ι × Key × ContextValue U)} (hsub : written ⊆ written') {p : π}
    {key : Key} {value : ContextValue U} (h : Traces g home written p key value) :
    Traces g home written' p key value := by
  induction h with
  | written hw => exact .written (hsub hw)
  | crossed _ hencoded htrans ih => exact .crossed ih hencoded htrans

/-- All that the threads hold traces to writes. -/
def Traced (g : π → Globals U) (home : ι → π) (net : Network U ι) : Prop :=
  ∀ t, HeldBy (g (home t)) (Traces g home net.written (home t)) (net.thread t)

section network

variable [DecidableEq ι] {g : π → Globals U} {home : ι → π} {net : Network U ι}

/-- One thread moves on, and others see more writes than before. -/
theorem Traced.put (h : Traced g home net) {written : List (ι × Key × ContextValue U)}
    (hsub : net.written ⊆ written) {t : ι} {p : Process U}
    (hp : HeldBy (g (home t)) (Traces g home written (home t)) p) :
    Traced g home { net.put t p with written := written } := by
  have hmore : ∀ t', HeldBy (g (home t')) (Traces g home written (home t')) (net.thread t') :=
    fun t' => (h t').mono fun key value => .mono hsub
  exact Network.forall_put hmore hp

omit [DecidableEq ι] in
/-- What is delivered was sent, so it has crossed from a process it had come to. -/
theorem Traced.read (h : Traced g home net) (hsafe : ∀ q, LocalSafe (g q).registry.map)
    {t sender : ι} {i : Nat} {bytes : Bytes} (hsent : (net.thread sender).sent[i]? = some bytes)
    (hsize : bytes.length < 2 ^ 64) {snap : ContextSnapshot U}
    (hsnap : ContextSnapshot.deserialize (g (home t)) bytes = .ok snap) :
    snap.values.All (Traces g home net.written (home t)) := by
  obtain ⟨source, iter, hserialize, hvalues⟩ :=
    (h sender).sent bytes (List.mem_of_getElem? hsent)
  have hbytes : source.serialize (g (home sender)) iter =
      .ok (⟨bytes, hsize⟩ : ByteVec).1 := hserialize
  have hcross := ((deserialize_serialize_iff (hsafe (home t)) hbytes snap).mp hsnap).2
  intro key value hvalue
  cases hval : source.values.lookup key with
  | none =>
    rw [hcross.of_absent hval] at hvalue
    cases hvalue
  | some val =>
    have htrans := hcross.of_lookup hval
    rw [hvalue] at htrans
    obtain ⟨valueBytes, hencoded⟩ := encoded_of_serialize hbytes hval
    exact .crossed (hvalues key val hval) hencoded htrans

/-- **One step of the network.** -/
theorem Network.step_traced [DecidableEq π] (hsafe : ∀ q, LocalSafe (g q).registry.map)
    (net : Network U ι) (op : NetworkOp U ι) (h : Traced g home net) :
    Traced g home (Network.step g home net op).1 := by
  cases op with
  | act t op =>
    refine h.put (List.subset_append_left _ _) ?_
    refine Process.step_heldBy ((h t).mono fun key value =>
      .mono (List.subset_append_left _ _)) op.1 ?_ ?_
    · intro w hw
      exact .written (List.mem_append_right _ (List.mem_map_of_mem hw))
    · intro bytes snap hop
      have hread := op.2
      rw [hop] at hread
      cases hread
  | deliver t sender i =>
    simp only [Network.step]
    split
    · exact h
    · next bytes hsent =>
      split_ifs with hsize
      · refine h.put (List.Subset.refl _) (Process.step_heldBy (h t) _ ?_ ?_)
        · intro w hw
          cases hw
        · intro bytes' snap hop hsnap
          obtain rfl := ProcessOp.deserialize.inj hop
          exact h.read hsafe hsent hsize hsnap
      · exact h
  | handStore t source i =>
    simp only [Network.step]
    split
    · exact h
    · next s hs =>
      split_ifs with hhome
      · refine h.put (List.Subset.refl _) ((h t).addStore ?_)
        rw [hhome]
        exact (h source).stores s (List.mem_of_getElem? hs)
      · exact h
  | handSnapshot t source i =>
    simp only [Network.step]
    split
    · exact h
    · next snap hsnap =>
      split_ifs with hhome
      · refine h.put (List.Subset.refl _) ((h t).addSnap ?_)
        rw [hhome]
        exact (h source).snaps snap (List.mem_of_getElem? hsnap)
      · exact h

omit [DecidableEq ι] in
theorem start_traced (g : π → Globals U) (home : ι → π) : Traced g home (Network.start) :=
  fun t => .start (g (home t))

end network

/-! ## What is shown -/

/-- The process shows the value under the key: in its cell, in a store it holds or in a
snapshot. -/
def Process.Shows (p : Process U) (key : Key) (value : ContextValue U) : Prop :=
  (∃ s ∈ p.cell, s.getValue key = some value) ∨ (∃ s ∈ p.stores, s.getValue key = some value) ∨
    ∃ snap ∈ p.snaps, snap.values.lookup key = some value

theorem HeldBy.of_shows {g : Globals U} {Q : Key → ContextValue U → Prop} {p : Process U}
    (h : HeldBy g Q p) {key : Key} {value : ContextValue U} (hshows : p.Shows key value) :
    Q key value := by
  rcases hshows with ⟨s, hs, hvalue⟩ | ⟨s, hs, hvalue⟩ | ⟨snap, hsnap, hvalue⟩
  · exact (h.cell s hs).getValue hvalue
  · exact (h.stores s hs).getValue hvalue
  · exact h.snaps snap hsnap key value hvalue

/-- What crosses is what the receiver makes of some entry of that key. -/
theorem entry_of_transcode {sender receiver : Registry U} (hsafe : LocalSafe receiver.map)
    {key : Key} {value value' : ContextValue U}
    (h : transcode sender receiver key value = .ok (some value')) :
    ∃ entry, deserializeEntry receiver entry = .ok (some (key, value')) := by
  unfold transcode at h
  cases hencoded : valueEncoder sender key value with
  | error e => simp [hencoded] at h
  | ok bytes =>
    simp only [hencoded] at h
    cases hentry : deserializeEntry receiver ⟨key, wireKeyVersion sender key, bytes⟩ with
    | error e => simp [hentry, Except.map] at h
    | ok restored =>
      cases restored with
      | none => simp [hentry, Except.map] at h
      | some kv =>
        obtain ⟨k, v⟩ := kv
        obtain ⟨rfl, -⟩ := deserializeEntry_key hsafe hentry
        simp only [hentry, Except.map, Option.map_some, Except.ok.injEq, Option.some.injEq] at h
        subst h
        exact ⟨_, hentry⟩

/-- What crosses to a process is under no key that is local-only there. -/
theorem transcode_local {sender receiver : Registry U} (hsafe : LocalSafe receiver.map) {key : Key}
    {value value' : ContextValue U} (h : transcode sender receiver key value = .ok (some value')) :
    receiver.isLocalKey key = false := by
  obtain ⟨entry, hentry⟩ := entry_of_transcode hsafe h
  exact (deserializeEntry_key hsafe hentry).2

section main

variable [DecidableEq ι] [DecidableEq π]

theorem run_traced {g : π → Globals U} {home : ι → π} (hbuilt : ∀ q, Built (g q).registry.map)
    (ops : List (NetworkOp U ι)) :
    Traced g home (run (Network.step g home) Network.start ops).1 :=
  run_invariant (Network.step_traced fun q => built_localSafe (hbuilt q)) ops _
    (start_traced g home)

/-- **Nothing comes out of nothing.** In every run of the network, what a process shows under a key
was written under that key, and has come to the process by encoding and decoding alone. -/
theorem network_traces (calls : π → List (BuilderCall U))
    (maxContextSize maxScopeChainLen : π → Nat) (home : ι → π) (ops : List (NetworkOp U ι)) :
    let g : π → Globals U := fun q =>
      ⟨⟨buildMap (calls q)⟩, maxContextSize q, maxScopeChainLen q⟩
    let net := (run (Network.step g home) Network.start ops).1
    ∀ t key value, (net.thread t).Shows key value →
      Traces g home net.written (home t) key value := by
  intro g net t key value hshows
  have htraced : Traced g home net := run_traced (fun q => ⟨calls q, rfl⟩) ops
  exact (htraced t).of_shows hshows

/-- **A local-only value stays where it was written**, whatever the other processes do. -/
theorem network_local_only (calls : π → List (BuilderCall U))
    (maxContextSize maxScopeChainLen : π → Nat) (home : ι → π) (ops : List (NetworkOp U ι)) :
    let g : π → Globals U := fun q =>
      ⟨⟨buildMap (calls q)⟩, maxContextSize q, maxScopeChainLen q⟩
    let net := (run (Network.step g home) Network.start ops).1
    ∀ t key value, (g (home t)).registry.isLocalKey key = true → (net.thread t).Shows key value →
      ∃ t', home t' = home t ∧ (t', key, value) ∈ net.written := by
  intro g net t key value hlocal hshows
  have hsafe : ∀ q, LocalSafe (g q).registry.map := fun q => built_localSafe ⟨calls q, rfl⟩
  have htraced : Traced g home net := run_traced (fun q => ⟨calls q, rfl⟩) ops
  have htrace := (htraced t).of_shows hshows
  generalize home t = p at htrace hlocal ⊢
  cases htrace with
  | written hw => exact ⟨_, rfl, hw⟩
  | crossed _ _ htrans =>
    rw [transcode_local (hsafe p) htrans] at hlocal
    cases hlocal

/-- **Where all processes know the same keys**, and values are written with the types of their
keys, every process shows values exactly as they were written. -/
theorem network_exact (hU : U.RoundTrips) (calls : List (BuilderCall U))
    (hcalls : ∀ call ∈ calls, call.RoundTrips) (maxContextSize maxScopeChainLen : π → Nat)
    (home : ι → π) (ops : List (NetworkOp U ι)) :
    let g : π → Globals U := fun q => ⟨⟨buildMap calls⟩, maxContextSize q, maxScopeChainLen q⟩
    let net := (run (Network.step g home) Network.start ops).1
    (∀ t key value reg, (t, key, value) ∈ net.written → (buildMap calls).lookup key = some reg →
      value.typeId = reg.typeId) →
    ∀ t key value, (net.thread t).Shows key value → ∃ t', (t', key, value) ∈ net.written := by
  intro g net htyped t key value hshows
  have hsafe : ∀ q, LocalSafe (g q).registry.map := fun q => built_localSafe ⟨calls, rfl⟩
  have htraced : Traced g home net := run_traced (fun q => ⟨calls, rfl⟩) ops
  have htrace := (htraced t).of_shows hshows
  clear hshows
  generalize home t = p at htrace
  induction htrace with
  | written hw => exact ⟨_, hw⟩
  | @crossed p q key value value' bytes _ hencoded htrans ih =>
    obtain ⟨t', hw⟩ := ih
    have hlocal := transcode_local (hsafe q) htrans
    rcases transcode_captured hU hcalls hlocal hencoded with
      ⟨-, hnone⟩ | ⟨reg, hreg, -, ⟨-, hsame⟩ | htype⟩
    · rw [hnone] at htrans
      cases htrans
    · rw [hsame] at htrans
      obtain rfl := Option.some.inj (Except.ok.inj htrans)
      exact ⟨t', hw⟩
    · exact absurd (htyped t' key value reg hw hreg) htype

end main

/-- A thread writes a number, and hands a fork of its context to another one. -/
def handedFork : List (NetworkOp primitiveTypes Bool) :=
  [.act false ⟨.setContextVariable .u64 "k" (7 : UInt64), rfl⟩, .act false ⟨.fork, rfl⟩,
    .handStore true false 0]

/-- A thread writes a number and sends what it has captured to a thread of another process. -/
def sentNumber (iter : IterationOrder primitiveTypes) : List (NetworkOp primitiveTypes Bool) :=
  [.act false ⟨.setContextVariable .u64 "k" (7 : UInt64), rfl⟩, .act false ⟨.capture, rfl⟩,
    .act false ⟨.serialize 0 iter, rfl⟩, .deliver true false 0]

/-- Two processes, each of one thread, that have registered the number. -/
def numberGlobals (_ : Bool) : Globals primitiveTypes := ⟨⟨buildMap numberCalls⟩, 0, 64⟩

/-- What is sent. -/
def numberMessage : Bytes :=
  wireContextFormat.write ⟨2, [⟨"k", 1, ByteFormat.u64.write 7⟩], []⟩

/-- The other thread has the number in a snapshot. -/
theorem run_sentNumber (iter : IterationOrder primitiveTypes) :
    (run (Network.step numberGlobals id) Network.start (sentNumber iter)).1.written =
        [(false, "k", u64Value 7)] ∧
      (run (Network.step numberGlobals id) Network.start (sentNumber iter)).1.thread true =
        { Process.start (some .new) with snaps := [⟨Finmap.insert "k" (u64Value 7) ∅, []⟩] } := by
  have hbytes : (⟨Finmap.insert "k" (u64Value 7) ∅, []⟩ : ContextSnapshot primitiveTypes).serialize
      (numberGlobals false) iter = .ok numberMessage := serialize_number iter []
  let net := (run (Network.step numberGlobals id) Network.start ((sentNumber iter).take 2)).1
  have hsnaps : (net.thread false).snaps = [⟨Finmap.insert "k" (u64Value 7) ∅, []⟩] := rfl
  have hsent : (Process.step (numberGlobals false) (net.thread false) (.serialize 0 iter)).1 =
      { net.thread false with sent := [numberMessage] } := by
    simp only [Process.step, hsnaps, List.getElem?_cons_zero, hbytes]
    rfl
  have hrun : (run (Network.step numberGlobals id) Network.start (sentNumber iter)).1 =
      (Network.step numberGlobals id
        { net.put false { net.thread false with sent := [numberMessage] } with
          written := [(false, "k", u64Value 7)] } (.deliver true false 0)).1 := by
    rw [← hsent]
    rfl
  rw [hrun]
  exact ⟨rfl, rfl⟩

theorem shows_sentNumber : ((run (Network.step numberGlobals id) Network.start
    (sentNumber .arbitrary)).1.thread true).Shows "k" (u64Value 7) := by
  rw [(run_sentNumber .arbitrary).2]
  exact .inr (.inr ⟨_, List.mem_cons_self, rfl⟩)

theorem network_traces_sent :
    Traces numberGlobals id [(false, "k", u64Value 7)] true "k" (u64Value 7) := by
  rw [← (run_sentNumber .arbitrary).1]
  exact network_traces (fun _ : Bool => numberCalls) (fun _ => 0) (fun _ => 64) id
    (sentNumber .arbitrary) true "k" (u64Value 7) shows_sentNumber

/-- A registry that keeps `k` to the process. -/
def confinedCalls : List (BuilderCall primitiveTypes) := [.register .u64 "k" [.localOnly]]

theorem network_local_only_handed :
    ∃ t', (fun _ : Bool => ()) t' = () ∧ (t', "k", u64Value 7) ∈ [(false, "k", u64Value 7)] :=
  network_local_only (fun _ : Unit => confinedCalls) (fun _ => 0) (fun _ => 64) (fun _ => ())
    handedFork true "k" (u64Value 7) rfl (.inr (.inl ⟨_, List.mem_cons_self, rfl⟩))

theorem network_exact_sent : ∃ t', (t', "k", u64Value 7) ∈ [(false, "k", u64Value 7)] := by
  have hwritten := (run_sentNumber .arbitrary).1
  rw [← hwritten]
  refine network_exact primitiveTypes_roundTrips numberCalls numberCalls_roundTrips
    (fun _ : Bool => 0) (fun _ => 64) id (sentNumber .arbitrary) ?_ true "k" (u64Value 7)
    shows_sentNumber
  intro t key value reg hw hreg
  replace hw : (t, key, value) ∈ [(false, "k", u64Value 7)] := hwritten ▸ hw
  have hone : (t, key, value) = (false, "k", u64Value 7) := List.mem_singleton.mp hw
  obtain ⟨-, hrest⟩ := Prod.mk.inj hone
  obtain ⟨rfl, rfl⟩ := Prod.mk.inj hrest
  obtain rfl : newRegistration PrimitiveType.u64 "k" .new = reg := Option.some.inj hreg
  rfl

end DContext
