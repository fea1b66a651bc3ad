import DContext.Registry.Startup
import DContext.Store.Merging
import DContext.Wire.Decoding
import DContext.Wire.Network

/-!
# Typed keys

A `ContextKey<T>` reads and writes one entry at one type, and registers it at this type or panics.
So once the processes of a network have started up, and as long as what is written under the names
of typed keys is written with their types, each key reads all that is shown under its name, whatever
versions, codecs and migrations the processes have.

## Main definitions

* `ContextKey U t`: a typed key, with the calls of its methods
* `NetworkOp.Through keys op`: what the operation writes is of the types of the keys

## Main results

* `registerOn_registered`: after a startup, a key is registered with its type
* `typed_keys_sound`: every key reads all that is shown, in every run
-/

namespace DContext

open Overlay StepSystem

variable {U : TypeUniverse} {ι π : Type}

/-! ## Keys -/

/-- `ContextKey<T>`: a handle to the entry of a key, at the type of its values. -/
structure ContextKey (U : TypeUniverse) (t : U.TypeId) where
  key : Key

namespace ContextKey

variable {t : U.TypeId} (k : ContextKey U t)

/-- `register_on`. -/
def registerOn : StartupCall U := .register t k.key

/-- `try_register_on`. -/
def tryRegisterOn : StartupCall U := .attempt (.register t k.key [])

def get (cell : Cell U) : Option (U.El t) := Thread.getContextVariable t k.key cell

def set (value : U.El t) (cell : Cell U) : Cell U := Thread.setContextVariable t k.key value cell

theorem get_some (s : ContextStore U) :
    k.get (some s) = (s.getValue k.key).bind (·.downcast t) := rfl

/-- Where all that is shown is of the type of the key, all is read. -/
theorem getValue_eq_get {s : ContextStore U}
    (h : ∀ value, s.getValue k.key = some value → value.typeId = t) :
    s.getValue k.key = (k.get (some s)).map fun x => ⟨t, x⟩ := by
  rw [get_some]
  cases hvalue : s.getValue k.key with
  | none => rfl
  | some value =>
    obtain ⟨t', x⟩ := value
    obtain rfl : t' = t := h _ hvalue
    simp [ContextValue.downcast]

/-- What has just been set is read. -/
theorem get_set (value : U.El t) (s : ContextStore U) :
    k.get (k.set value (some s)) = some value := by
  show k.get (some (s.setValue k.key ⟨t, value⟩)) = some value
  rw [get_some, ContextStore.getValue_setValue]
  simp [ContextValue.downcast]

end ContextKey

/-- `register_on` panics exactly when `try_register_on` returns an error. -/
theorem ContextKey.startup_registerOn_iff {t : U.TypeId} (k : ContextKey U t)
    {m m' : RegistryMap U} :
    startup m [k.registerOn] = .ok m' ↔ k.tryRegisterOn.step m = (m', .ok ()) := by
  have hsame : k.registerOn.call.exec m = k.tryRegisterOn.step m := rfl
  rw [startup_cons_eq_ok_iff, hsame, startup, Except.ok.injEq, Prod.ext_iff, and_comm]
  exact and_congr_right fun _ => ⟨fun h => h rfl, fun h _ => h⟩

/-- A key that was accepted is registered with its type, whatever is called later. -/
theorem Succeeded.typeId {calls : List (BuilderCall U)} {t : U.TypeId} {key : Key}
    {opts : List (OptionCall U t)} (h : Succeeded calls (.register t key opts))
    {reg : Registration U} (hreg : (buildMap calls).lookup key = some reg) : reg.typeId = t := by
  obtain ⟨pre, post, rfl, hok⟩ := h
  obtain ⟨hconsistent, htype⟩ := doRegisterWith_ok_iff.mp hok
  obtain ⟨mid, hmid, hmidType⟩ : ∃ mid,
      (buildMap (pre ++ [.register t key opts])).lookup key = some mid ∧ mid.typeId = t := by
    rw [buildMap_concat, BuilderCall.exec, doRegisterWith_of_consistent hconsistent]
    cases hbefore : (buildMap pre).lookup key with
    | some before =>
      have hsame := htype before hbefore
      dsimp only
      rw [if_pos hsame]
      exact ⟨before, hbefore, hsame⟩
    | none => exact ⟨_, Finmap.lookup_insert _, rfl⟩
  obtain ⟨reg', hreg', hlater⟩ := lookup_buildMap_append post hmid
  rw [List.append_assoc, List.singleton_append, hreg] at hreg'
  obtain rfl := Option.some.inj hreg'
  exact hlater.typeId.trans hmidType

/-- The calls register the key with its type, by a method that panics when it is refused, or say
nothing of it. -/
def ContextKey.Handled {t : U.TypeId} (k : ContextKey U t) (calls : List (StartupCall U)) : Prop :=
  (∃ method opts, ⟨some method, .register t k.key opts⟩ ∈ calls) ∨ ∀ c ∈ calls, c.key ≠ k.key

theorem ContextKey.handled_of_registerOn {t : U.TypeId} {k : ContextKey U t}
    {calls : List (StartupCall U)} (h : k.registerOn ∈ calls) : k.Handled calls :=
  .inl ⟨"register", [], h⟩

/-- **After a startup** that handles the key there is no registration of another type under its
name. -/
theorem ContextKey.Handled.typeId {t : U.TypeId} {k : ContextKey U t}
    {calls : List (StartupCall U)} (h : k.Handled calls) {m : RegistryMap U}
    (hstarted : startup ∅ calls = .ok m) {reg : Registration U}
    (hreg : m.lookup k.key = some reg) : reg.typeId = t := by
  obtain rfl := startup_eq_buildMap hstarted
  rcases h with ⟨method, opts, hmem⟩ | hnone
  · obtain ⟨pre, post, rfl⟩ := List.append_of_mem hmem
    have hok := startup_accepted rfl hstarted
    rw [run_startup_eq_buildMap] at hok
    rw [List.map_append, List.map_cons] at hreg
    have hsucceeded : Succeeded (pre.map StartupCall.call ++ .register t k.key opts ::
        post.map StartupCall.call) (.register t k.key opts) := ⟨_, _, rfl, hok⟩
    exact hsucceeded.typeId hreg
  · obtain ⟨pre, t', opts, post, hcalls, -⟩ := lookup_installed _ hreg
    have hmem : BuilderCall.register t' k.key opts ∈ calls.map StartupCall.call := by
      rw [hcalls]
      exact List.mem_append_right _ List.mem_cons_self
    obtain ⟨c, hc, hcall⟩ := List.mem_map.mp hmem
    refine absurd ?_ (hnone c hc)
    rw [StartupCall.key, hcall]
    rfl

/-! ## Networks of programs with typed keys -/

/-- What the operation writes is of the types of the keys. -/
def NetworkOp.Through (keys : List (Σ t, ContextKey U t)) : NetworkOp U ι → Prop
  | .act _ ⟨.setContextVariable t key _, _⟩ => ∀ k ∈ keys, k.2.key = key → t = k.1
  | .act _ ⟨.updateContextVariable t key _, _⟩ => ∀ k ∈ keys, k.2.key = key → t = k.1
  | _ => True

/-- The value is of the types of the keys of this name. -/
def OfKeyType (keys : List (Σ t, ContextKey U t)) (key : Key) (value : ContextValue U) : Prop :=
  ∀ k ∈ keys, k.2.key = key → value.typeId = k.1

/-- What is written by an operation that writes through the keys. -/
theorem Process.writes_ofKeyType {keys : List (Σ t, ContextKey U t)} {thread : ι}
    {op : { op : ProcessOp U // op.isDeserialize = false }}
    (hop : (NetworkOp.act thread op).Through keys) (p : Process U) :
    ∀ w ∈ p.writes op.1, OfKeyType keys w.1 w.2 := by
  obtain ⟨op, hread⟩ := op
  intro w hw
  cases op with
  | setContextVariable t key value =>
    rw [writes] at hw
    split_ifs at hw
    · obtain rfl := List.mem_singleton.mp hw
      exact hop
    · cases hw
  | updateContextVariable t key f =>
    rw [writes] at hw
    split_ifs at hw
    · obtain rfl := List.mem_singleton.mp hw
      exact hop
    · cases hw
  | _ => cases hw

section network

variable [DecidableEq ι] [DecidableEq π] {g : π → Globals U} {home : ι → π}
  {keys : List (Σ t, ContextKey U t)}

theorem Network.step_written {net : Network U ι} {op : NetworkOp U ι} (hop : op.Through keys)
    (h : ∀ w ∈ net.written, OfKeyType keys w.2.1 w.2.2) :
    ∀ w ∈ (Network.step g home net op).1.written, OfKeyType keys w.2.1 w.2.2 := by
  cases op with
  | act t op =>
    refine List.forall_mem_append.mpr ⟨h, ?_⟩
    exact List.forall_mem_map.mpr (Process.writes_ofKeyType hop (net.thread t))
  | deliver t sender i =>
    simp only [Network.step]
    split
    · exact h
    · split_ifs <;> exact h
  | handStore t source i =>
    simp only [Network.step]
    split
    · exact h
    · split_ifs <;> exact h
  | handSnapshot t source i =>
    simp only [Network.step]
    split
    · exact h
    · split_ifs <;> exact h

theorem run_written (ops : List (NetworkOp U ι)) (hops : ∀ op ∈ ops, op.Through keys) :
    ∀ w ∈ (run (Network.step g home) .start ops).1.written, OfKeyType keys w.2.1 w.2.2 := by
  refine run_invariant_of_inputs (I := fun net : Network U ι => ∀ w ∈ net.written,
    OfKeyType keys w.2.1 w.2.2) ?_ ops hops .start fun w hw => by cases hw
  exact fun net op hop h => Network.step_written hop h

omit [DecidableEq ι] [DecidableEq π] in
/-- What has come to a process is of the types of the keys: it was written so, or was decoded by a
registration of that type. -/
theorem Traces.ofKeyType {written : List (ι × Key × ContextValue U)}
    (hwritten : ∀ w ∈ written, OfKeyType keys w.2.1 w.2.2)
    (hbuilt : ∀ q, Built (g q).registry.map)
    (htypes : ∀ q, ∀ k ∈ keys, ∀ reg, (g q).registry.map.lookup k.2.key = some reg →
      reg.typeId = k.1) {p : π} {key : Key} {value : ContextValue U}
    (h : Traces g home written p key value) : OfKeyType keys key value := by
  cases h with
  | written hw => exact hwritten _ hw
  | @crossed _ q _ _ _ _ _ _ htrans =>
    rintro k hk rfl
    have hsafe := built_localSafe (hbuilt p)
    obtain ⟨entry, hentry⟩ := entry_of_transcode hsafe htrans
    have hvalid := (deserializeEntry_accepted hsafe (built_decodersTyped (hbuilt p)) hentry).1
    unfold Registry.isValidValue at hvalid
    cases hreg : (g p).registry.map.lookup k.2.key with
    | none =>
      rw [hreg] at hvalid
      cases hvalid
    | some reg =>
      rw [hreg, Option.any_some, decide_eq_true_iff] at hvalid
      exact hvalid.symm.trans (htypes p k hk reg hreg)

/-- **Typed keys read all that is shown.** The processes have started up, each with its own
versions, codecs and migrations, and each has registered a key with its type or says nothing of it.
As long as what is written under the names of the keys is of their types, in every run all that
is shown anywhere under the name of a key is of its type, and each thread reads through the key just
what its context shows there. -/
theorem typed_keys_sound (parts : π → List (StartupCall U)) (registries : π → RegistryMap U)
    (hstarted : ∀ q, startup ∅ (parts q) = .ok (registries q))
    (maxContextSize maxScopeChainLen : π → Nat) (home : ι → π) (keys : List (Σ t, ContextKey U t))
    (hkeys : ∀ q, ∀ k ∈ keys, k.2.Handled (parts q)) (ops : List (NetworkOp U ι))
    (hops : ∀ op ∈ ops, op.Through keys) :
    let g : π → Globals U := fun q => ⟨⟨registries q⟩, maxContextSize q, maxScopeChainLen q⟩
    let net := (run (Network.step g home) Network.start ops).1
    ∀ t, ∀ k ∈ keys,
      (∀ value, (net.thread t).Shows k.2.key value → value.typeId = k.1) ∧
        ∀ s ∈ (net.thread t).cell,
          s.getValue k.2.key = (k.2.get (net.thread t).cell).map fun x => ⟨k.1, x⟩ := by
  intro g net t k hk
  have hbuilt : ∀ q, Built (g q).registry.map := fun q => ⟨_, startup_eq_buildMap (hstarted q)⟩
  have htraced : Traced g home net := run_traced hbuilt ops
  have htyped : ∀ value, (net.thread t).Shows k.2.key value → value.typeId = k.1 := by
    intro value hshows
    have htypes : ∀ q, ∀ k ∈ keys, ∀ reg, (g q).registry.map.lookup k.2.key = some reg →
        reg.typeId = k.1 := fun q k hk reg hreg => (hkeys q k hk).typeId (hstarted q) hreg
    exact ((htraced t).of_shows hshows).ofKeyType (run_written ops hops) hbuilt htypes k hk rfl
  refine ⟨htyped, fun s hs => ?_⟩
  rw [Option.mem_def.mp hs]
  exact k.2.getValue_eq_get fun value hvalue => htyped value (.inl ⟨s, hs, hvalue⟩)

end network

/-- The number, as a typed key. -/
def numberKey : ContextKey primitiveTypes .u64 := ⟨"k"⟩

/-- A number is sent to another process, and attached there. -/
def attachedNumber (iter : IterationOrder primitiveTypes) : List (NetworkOp primitiveTypes Bool) :=
  sentNumber iter ++ [.act true ⟨.attachSnapshot 0, Eq.refl false⟩]

theorem attachedNumber_through (iter : IterationOrder primitiveTypes) :
    ∀ op ∈ attachedNumber iter, op.Through [⟨PrimitiveType.u64, numberKey⟩] := by
  refine List.forall_mem_cons.mpr ⟨?_, List.forall_mem_cons.mpr ⟨trivial, List.forall_mem_cons.mpr
    ⟨trivial, List.forall_mem_cons.mpr ⟨trivial, List.forall_mem_singleton.mpr trivial⟩⟩⟩⟩
  rintro k hk -
  obtain rfl := List.mem_singleton.mp hk
  rfl

/-- The store that the other process has attached. -/
def attachedStore : ContextStore primitiveTypes :=
  storeFromSnapshotWithRegistry ⟨Finmap.insert "k" (u64Value 7) ∅, []⟩ ⟨buildMap numberCalls⟩

/-- The other process reads the number through the key. -/
theorem typed_keys_sound_attached :
    attachedStore.getValue "k" = some (u64Value 7) ∧
      attachedStore.getValue "k" = (numberKey.get (some attachedStore)).map fun x => ⟨.u64, x⟩ := by
  have hcell : ((run (Network.step numberGlobals id) Network.start
      (attachedNumber .arbitrary)).1.thread true).cell = some attachedStore := by
    rw [attachedNumber, run_append]
    show (Process.step (numberGlobals true) ((run (Network.step numberGlobals id) Network.start
      (sentNumber .arbitrary)).1.thread true) (.attachSnapshot 0)).1.cell = _
    rw [(run_sentNumber .arbitrary).2]
    rfl
  have hsound := typed_keys_sound (fun _ : Bool => [numberKey.registerOn])
    (fun _ => buildMap numberCalls) (fun _ => rfl) (fun _ => 0) (fun _ => 64) id
    [⟨PrimitiveType.u64, numberKey⟩]
    (fun _ k hk => by
      obtain rfl := List.mem_singleton.mp hk
      exact ContextKey.handled_of_registerOn List.mem_cons_self)
    (attachedNumber .arbitrary) (attachedNumber_through .arbitrary) true
    ⟨PrimitiveType.u64, numberKey⟩ List.mem_cons_self
  have hread := hsound.2 attachedStore hcell
  refine ⟨rfl, hread.trans ?_⟩
  exact congrArg (fun cell => (numberKey.get cell).map fun x =>
    (⟨.u64, x⟩ : ContextValue primitiveTypes)) hcell

end DContext
