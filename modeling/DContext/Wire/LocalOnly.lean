import DContext.Thread.Context
import DContext.Wire.RoundTrip
import DContext.System.Run

/-!
# Local-only values stay in the process

A key registered as local-only is left out of every capture, has no decoder, and is left out again
when a snapshot becomes a store. So no snapshot holds it, no bytes carry it, and two stores that
differ in local-only values alone are captured alike.

## Main definitions

* `LocalSafe`: what every built registry knows of its local-only keys
* `Process U`, `ProcessOp U`, `step`: all a process holds, and what it can do
* `NoLocalEntry registry bytes`: bytes that carry no local-only key
* `ContextStore.LocalVariant registry s s'`: stores that differ in local-only values alone

## Main results

* `built_localSafe`: every built registry is safe
* `step_confined`: every operation keeps local-only values out of snapshots and bytes
* `LocalVariant.capture_eq`: local-only values do not show in a capture
* `local_only_confined`: every run, and every pair of such stores
-/

namespace DContext

open ByteFormat Overlay StepSystem

variable {U : TypeUniverse}

/-! ## Registries -/

/-- A registration stands under its own key, and a local-only one has no decoder. -/
def LocalSafe (m : RegistryMap U) : Prop :=
  ∀ key reg, m.lookup key = some reg →
    reg.key = key ∧ (reg.localOnly = true → reg.deserializers = ∅)

/-- **Every built registry is safe**: a registration has no decoder when it is local-only, and no
migration adds one. -/
theorem built_localSafe {m : RegistryMap U} (h : Built m) : LocalSafe m := by
  obtain ⟨calls, rfl⟩ := h
  refine buildMap_invariant calls ?_ ?_
  · intro t key opts _
    exact ⟨rfl, fun hlocal => if_pos hlocal⟩
  · intro tOld tCurrent key oldVersion migrate reg hreg htype hlocal hversion
    refine ⟨hreg.1, fun htrue => ?_⟩
    rw [hlocal] at htrue
    cases htrue

/-- What an entry decodes to stands under the key of the entry, which is not local-only. -/
theorem deserializeEntry_key {registry : Registry U} (hsafe : LocalSafe registry.map)
    {entry : WireEntry} {key : Key} {val : ContextValue U}
    (h : deserializeEntry registry entry = .ok (some (key, val))) :
    key = entry.key ∧ registry.isLocalKey key = false := by
  obtain ⟨reg, deserFn, hreg, hdeser, rfl, -⟩ := deserializeEntry_eq_some_iff.mp h
  obtain ⟨hkey, hlocal⟩ := hsafe entry.key reg hreg
  refine ⟨hkey, ?_⟩
  rw [Registry.isLocalKey, hkey, hreg, Option.any_some, ← Bool.not_eq_true]
  intro htrue
  rw [hlocal htrue] at hdeser
  cases hdeser

/-- No map entry under a local-only key. -/
def NoLocal (registry : Registry U) (values : ValueMap U) : Prop :=
  ∀ key, registry.isLocalKey key = true → values.lookup key = none

theorem deserialize_noLocal {g : Globals U} (hsafe : LocalSafe g.registry.map) {bytes : Bytes}
    {snap : ContextSnapshot U} (h : ContextSnapshot.deserialize g bytes = .ok snap) :
    NoLocal g.registry snap.values := by
  refine deserializeToSnapshot_invariant (fun key _ => Finmap.lookup_empty key) ?_ h
  intro values entry key val hvalues hentry key' hlocal
  obtain ⟨-, hnotLocal⟩ := deserializeEntry_key hsafe hentry
  have hne : key' ≠ key := by
    rintro rfl
    rw [hnotLocal] at hlocal
    cases hlocal
  rw [Map.lookup_insert_eq, if_neg hne, hvalues key' hlocal]

theorem captureWithRegistry_noLocal (maxLen : Nat) (store : ContextStore U)
    (registry : Registry U) : NoLocal registry (captureWithRegistry maxLen store registry).values :=
  fun key hlocal => by rw [lookup_captureWithRegistry, if_pos hlocal]

theorem capture_noLocal (g : Globals U) (cell : Cell U) :
    NoLocal g.registry (Thread.capture g cell).values := by
  cases cell with
  | none => exact fun key _ => Finmap.lookup_empty key
  | some store => exact captureWithRegistry_noLocal g.maxScopeChainLen store g.registry

/-- Bytes that are the envelope of entries of which none stands under a local-only key; what a
`Vec<u8>` can hold of them is read back as those entries. -/
def NoLocalEntry (registry : Registry U) (bytes : Bytes) : Prop :=
  ∃ entries scopeChain, bytes = wireContextFormat.write ⟨wireVersion, entries, scopeChain⟩ ∧
    (bytes.length < 2 ^ 64 → deserializeWire U bytes = .ok (entries, scopeChain)) ∧
    ∀ entry ∈ entries, registry.isLocalKey entry.key = false

theorem serialize_noLocalEntry {g : Globals U} {iter : IterationOrder U} {snap : ContextSnapshot U}
    (hsnap : NoLocal g.registry snap.values) {bytes : Bytes}
    (h : snap.serialize g iter = .ok bytes) : NoLocalEntry g.registry bytes := by
  obtain ⟨entries, hentries, rfl, -⟩ := serializeFrom_eq_ok_iff.mp h
  have hof := entriesOf_serializeEntries (iter.enumerates snap.values) hentries
  refine ⟨entries, snap.scopeChain, rfl, fun hsize => deserializeWire_write hsize (.inr rfl), ?_⟩
  intro entry hmem
  obtain ⟨-, v, hv, -⟩ := hof.entry entry hmem
  rw [← Bool.not_eq_true]
  intro hlocal
  rw [hsnap entry.key hlocal] at hv
  cases hv

/-! ## A process -/

/-- All a process holds. What it once held is never forgotten, so the lists are those of everything
ever made. -/
structure Process (U : TypeUniverse) where
  cell : Cell U
  guards : List (AttachGuard U)
  stores : List (ContextStore U)
  snaps : List (ContextSnapshot U)
  /-- The bytes that `serialize` gave. -/
  sent : List Bytes
  /-- The stores converted from snapshots, as they were then. -/
  converted : List (ContextStore U)

/-- What a process can do. A number names one of the stores, snapshots or guards it holds. -/
inductive ProcessOp (U : TypeUniverse)
  | pushScope (name : String)
  | dropScopeGuard (shared : List (ScopeNode U) → Bool) (guard : ScopeGuard)
  | setContextVariable (t : U.TypeId) (key : Key) (value : U.El t)
  | updateContextVariable (t : U.TypeId) (key : Key) (f : U.El t → U.El t)
  | mergeWith (i : Nat)
  | clear
  | fork
  | attachStore (i : Nat)
  | attachSnapshot (i : Nat)
  | dropAttachGuard (i : Nat)
  | capture
  | cloneSnapshot (i : Nat)
  | convert (i : Nat)
  | serialize (i : Nat) (iter : IterationOrder U)
  | deserialize (bytes : Bytes)

namespace Process

/-- A process with this content in its cell. -/
def start (cell : Cell U) : Process U := ⟨cell, [], [], [], [], []⟩

def step (g : Globals U) (p : Process U) : ProcessOp U → Process U × Unit
  | .pushScope name => ({ p with cell := (Thread.pushScope g name p.cell).1 }, ())
  | .dropScopeGuard shared guard => ({ p with cell := guard.drop shared p.cell }, ())
  | .setContextVariable t key value =>
    ({ p with cell := Thread.setContextVariable t key value p.cell }, ())
  | .updateContextVariable t key f =>
    ({ p with cell := Thread.updateContextVariable t key f p.cell }, ())
  | .mergeWith i =>
    match p.stores[i]? with
    | some source => ({ p with cell := Thread.mergeWith source p.cell }, ())
    | none => (p, ())
  | .clear => ({ p with cell := Thread.clear p.cell }, ())
  | .fork => ({ p with stores := p.stores ++ [Thread.fork p.cell] }, ())
  | .attachStore i =>
    match p.stores[i]? with
    | some store =>
      let r := Thread.attachStore store p.cell
      ({ p with cell := r.1, guards := p.guards ++ [r.2] }, ())
    | none => (p, ())
  | .attachSnapshot i =>
    match p.snaps[i]? with
    | some snap =>
      let r := Thread.attachSnapshot g snap p.cell
      ({ p with
          cell := r.1
          guards := p.guards ++ [r.2]
          converted := p.converted ++ [storeFromSnapshotWithRegistry snap g.registry] }, ())
    | none => (p, ())
  | .dropAttachGuard i =>
    match p.guards[i]? with
    | some guard => ({ p with cell := guard.drop }, ())
    | none => (p, ())
  | .capture => ({ p with snaps := p.snaps ++ [Thread.capture g p.cell] }, ())
  | .cloneSnapshot i =>
    match p.snaps[i]? with
    | some snap => ({ p with snaps := p.snaps ++ [snap] }, ())
    | none => (p, ())
  | .convert i =>
    match p.snaps[i]? with
    | some snap =>
      let store := storeFromSnapshotWithRegistry snap g.registry
      ({ p with stores := p.stores ++ [store], converted := p.converted ++ [store] }, ())
    | none => (p, ())
  | .serialize i iter =>
    match p.snaps[i]? with
    | some snap =>
      match snap.serialize g iter with
      | .ok bytes => ({ p with sent := p.sent ++ [bytes] }, ())
      | .error _ => (p, ())
    | none => (p, ())
  | .deserialize bytes =>
    match ContextSnapshot.deserialize g bytes with
    | .ok snap => ({ p with snaps := p.snaps ++ [snap] }, ())
    | .error _ => (p, ())

/-- Nothing that leaves the process, or can, holds a local-only value. -/
structure Confined (g : Globals U) (p : Process U) : Prop where
  snaps : ∀ snap ∈ p.snaps, NoLocal g.registry snap.values
  sent : ∀ bytes ∈ p.sent, NoLocalEntry g.registry bytes
  converted : ∀ store ∈ p.converted, ∀ key, g.registry.isLocalKey key = true →
    store.getValue key = none

theorem start_confined (g : Globals U) (cell : Cell U) : Confined g (start cell) where
  snaps _ h := by cases h
  sent _ h := by cases h
  converted _ h := by cases h

theorem getValue_storeFromSnapshot_of_local (snap : ContextSnapshot U) (registry : Registry U)
    {key : Key} (hlocal : registry.isLocalKey key = true) :
    (storeFromSnapshotWithRegistry snap registry).getValue key = none := by
  rw [getValue_storeFromSnapshot, hlocal]
  cases snap.values.lookup key with
  | none => rfl
  | some v => simp [Option.filter]

variable {g : Globals U} {p : Process U}

theorem Confined.addSnap (h : Confined g p) {snap : ContextSnapshot U}
    (hsnap : NoLocal g.registry snap.values) :
    Confined g { p with snaps := p.snaps ++ [snap] } := by
  refine ⟨?_, h.sent, h.converted⟩
  intro snap' hmem
  rcases List.mem_append.mp hmem with hmem | hmem
  · exact h.snaps snap' hmem
  · obtain rfl := List.mem_singleton.mp hmem
    exact hsnap

theorem Confined.addConverted (h : Confined g p) (snap : ContextSnapshot U) (cell : Cell U)
    (guards : List (AttachGuard U)) (stores : List (ContextStore U)) :
    Confined g { p with
      cell := cell
      guards := guards
      stores := stores
      converted := p.converted ++ [storeFromSnapshotWithRegistry snap g.registry] } := by
  refine ⟨h.snaps, h.sent, ?_⟩
  intro store hmem key hlocal
  rcases List.mem_append.mp hmem with hmem | hmem
  · exact h.converted store hmem key hlocal
  · obtain rfl := List.mem_singleton.mp hmem
    exact getValue_storeFromSnapshot_of_local snap g.registry hlocal

/-- **Every operation keeps local-only values out of snapshots and bytes.** -/
theorem step_confined (hsafe : LocalSafe g.registry.map) (p : Process U) (op : ProcessOp U)
    (h : Confined g p) : Confined g (step g p op).1 := by
  cases op with
  | pushScope name => exact ⟨h.snaps, h.sent, h.converted⟩
  | dropScopeGuard shared guard => exact ⟨h.snaps, h.sent, h.converted⟩
  | setContextVariable t key value => exact ⟨h.snaps, h.sent, h.converted⟩
  | updateContextVariable t key f => exact ⟨h.snaps, h.sent, h.converted⟩
  | mergeWith i =>
    simp only [step]
    split
    · exact ⟨h.snaps, h.sent, h.converted⟩
    · exact h
  | clear => exact ⟨h.snaps, h.sent, h.converted⟩
  | fork => exact ⟨h.snaps, h.sent, h.converted⟩
  | attachStore i =>
    simp only [step]
    split
    · exact ⟨h.snaps, h.sent, h.converted⟩
    · exact h
  | attachSnapshot i =>
    simp only [step]
    split
    · next snap _ => exact h.addConverted snap _ _ p.stores
    · exact h
  | dropAttachGuard i =>
    simp only [step]
    split
    · exact ⟨h.snaps, h.sent, h.converted⟩
    · exact h
  | capture => exact h.addSnap (capture_noLocal g p.cell)
  | cloneSnapshot i =>
    simp only [step]
    split
    · next snap hsnap => exact h.addSnap (h.snaps snap (List.mem_of_getElem? hsnap))
    · exact h
  | convert i =>
    simp only [step]
    split
    · next snap _ => exact h.addConverted snap p.cell p.guards _
    · exact h
  | serialize i iter =>
    simp only [step]
    split
    · next snap hsnap =>
      split
      · next bytes hbytes =>
        have hnew := serialize_noLocalEntry (h.snaps snap (List.mem_of_getElem? hsnap)) hbytes
        refine ⟨h.snaps, ?_, h.converted⟩
        intro bytes' hmem
        rcases List.mem_append.mp hmem with hmem | hmem
        · exact h.sent bytes' hmem
        · obtain rfl := List.mem_singleton.mp hmem
          exact hnew
      · exact h
    · exact h
  | deserialize bytes =>
    simp only [step]
    split
    · next snap hsnap => exact h.addSnap (deserialize_noLocal hsafe hsnap)
    · exact h

end Process

/-! ## Two stores -/

/-- Two maps that agree on every key that is not local-only. -/
def SameOffLocal (registry : Registry U) (m m' : ValueMap U) : Prop :=
  ∀ key, registry.isLocalKey key = false → m.lookup key = m'.lookup key

/-- Two nodes that differ in local-only values alone. -/
structure ScopeNode.LocalVariant (registry : Registry U) (n n' : ScopeNode U) : Prop where
  name : n.name = n'.name
  values : SameOffLocal registry n.values n'.values
  depth : n.depth = n'.depth
  remoteChain : n.remoteChain = n'.remoteChain
  remoteChainBaseDepth : n.remoteChainBaseDepth = n'.remoteChainBaseDepth
  savedScopeBarrier : n.savedScopeBarrier = n'.savedScopeBarrier

namespace ContextStore

/-- Two stores of one shape that differ in local-only values alone, in any frame or frozen
parent. -/
structure LocalVariant (registry : Registry U) (s s' : ContextStore U) : Prop where
  chain : List.Forall₂ (ScopeNode.LocalVariant registry) s.chain s'.chain
  currentValues : SameOffLocal registry s.currentValues s'.currentValues
  currentName : s.currentName = s'.currentName
  depth : s.depth = s'.depth
  remoteChain : s.remoteChain = s'.remoteChain
  remoteChainBaseDepth : s.remoteChainBaseDepth = s'.remoteChainBaseDepth
  frozenParent : List.Forall₂ (ScopeNode.LocalVariant registry) s.frozenParent s'.frozenParent
  scopeBarrier : s.scopeBarrier = s'.scopeBarrier

variable {registry : Registry U}

theorem takeWhile_variant (barrier : Nat) {ns ns' : List (ScopeNode U)}
    (h : List.Forall₂ (ScopeNode.LocalVariant registry) ns ns') :
    List.Forall₂ (ScopeNode.LocalVariant registry)
      (ns.takeWhile fun n => barrier < n.depth) (ns'.takeWhile fun n => barrier < n.depth) := by
  induction h with
  | nil => exact .nil
  | @cons n n' ns ns' hn _ ih =>
    rw [List.takeWhile_cons, List.takeWhile_cons, hn.depth]
    split_ifs
    · exact .cons hn ih
    · exact .nil

theorem namesAbove_variant (barrier base : Nat) {ns ns' : List (ScopeNode U)}
    (h : List.Forall₂ (ScopeNode.LocalVariant registry) ns ns') :
    namesAbove barrier base ns = namesAbove barrier base ns' := by
  induction h with
  | nil => rfl
  | cons hn _ ih => rw [namesAbove, namesAbove, hn.depth, hn.name, ih]

theorem filterMap_name_variant {ns ns' : List (ScopeNode U)}
    (h : List.Forall₂ (ScopeNode.LocalVariant registry) ns ns') :
    ns.filterMap ScopeNode.name = ns'.filterMap ScopeNode.name := by
  induction h with
  | nil => rfl
  | cons hn _ ih => rw [List.filterMap_cons, List.filterMap_cons, hn.name, ih]

variable {s s' : ContextStore U}

theorem LocalVariant.getValue_eq (h : LocalVariant registry s s') {key : Key}
    (hkey : registry.isLocalKey key = false) : s.getValue key = s'.getValue key := by
  rw [getValue_eq_layered, getValue_eq_layered]
  -- layer by layer: the layers visible in one store are visible in the other
  apply layered_congr
  unfold visibleMaps
  refine .cons (h.currentValues key hkey) ?_
  rw [List.forall₂_map_left_iff, List.forall₂_map_right_iff, h.scopeBarrier]
  refine (List.rel_append (takeWhile_variant (s'.scopeBarrier.getD 0) h.chain) ?_).imp
    fun n n' hn => hn.values key hkey
  split_ifs
  · exact h.frozenParent
  · exact .nil

theorem LocalVariant.scopeChain_eq (h : LocalVariant registry s s') (maxLen : Nat) :
    s.scopeChain maxLen = s'.scopeChain maxLen := by
  unfold scopeChain
  dsimp only
  rw [h.scopeBarrier, h.depth, h.remoteChainBaseDepth, h.currentName, h.remoteChain,
    namesAbove_variant _ _ h.chain, filterMap_name_variant h.frozenParent]

/-- **Local-only values do not show in a capture.** -/
theorem LocalVariant.capture_eq (h : LocalVariant registry s s') (maxLen : Nat) :
    captureWithRegistry maxLen s registry = captureWithRegistry maxLen s' registry := by
  have hvalues : (captureWithRegistry maxLen s registry).values =
      (captureWithRegistry maxLen s' registry).values := by
    apply Finmap.ext_lookup
    intro key
    rw [lookup_captureWithRegistry, lookup_captureWithRegistry]
    split_ifs with hlocal
    · rfl
    · exact h.getValue_eq (Bool.eq_false_iff.mpr hlocal)
  have hchain : (captureWithRegistry maxLen s registry).scopeChain =
      (captureWithRegistry maxLen s' registry).scopeChain := h.scopeChain_eq maxLen
  calc captureWithRegistry maxLen s registry
      = ⟨(captureWithRegistry maxLen s registry).values,
          (captureWithRegistry maxLen s registry).scopeChain⟩ := rfl
    _ = captureWithRegistry maxLen s' registry := by rw [hvalues, hchain]

end ContextStore

/-- Two serializations of one snapshot, under any two orders of iteration, write the same entries
and the same scope chain. -/
theorem serialize_perm {g : Globals U} {snap : ContextSnapshot U} (iter iter' : IterationOrder U)
    {bytes : Bytes} (h : snap.serialize g iter = .ok bytes) :
    ∃ entries entries', bytes = wireContextFormat.write ⟨wireVersion, entries, snap.scopeChain⟩ ∧
      snap.serialize g iter' =
        .ok (wireContextFormat.write ⟨wireVersion, entries', snap.scopeChain⟩) ∧
      entries'.Perm entries := by
  obtain ⟨entries, hentries, rfl, hlimit⟩ := serializeFrom_eq_ok_iff.mp h
  have horder := iter.enumerates snap.values
  have horder' := iter'.enumerates snap.values
  obtain ⟨entries', hentries', hperm⟩ := serializeEntries_perm (horder'.perm horder) hentries
  refine ⟨entries, entries', rfl, serializeFrom_eq_ok_iff.mpr ⟨entries', hentries', rfl, ?_⟩, hperm⟩
  rw [length_write_serializeEntries horder' hentries']
  rw [length_write_serializeEntries horder hentries] at hlimit
  exact hlimit

/-- **Local-only values never leave the process.** With the registry built before, in every run no
snapshot, no bytes and no converted store hold a local-only value; and two stores that differ in
such values alone are captured alike, and serialized to the same entries and scope chain. -/
theorem local_only_confined (calls : List (BuilderCall U)) (maxContextSize maxScopeChainLen : Nat) :
    let g : Globals U := ⟨⟨buildMap calls⟩, maxContextSize, maxScopeChainLen⟩
    (∀ (cell : Cell U) (ops : List (ProcessOp U)),
        (run (Process.step g) (Process.start cell) ops).1.Confined g) ∧
      ∀ s s' : ContextStore U, ContextStore.LocalVariant g.registry s s' →
        Thread.capture g (some s) = Thread.capture g (some s') ∧
          ∀ (iter iter' : IterationOrder U) (bytes : Bytes),
            (Thread.capture g (some s)).serialize g iter = .ok bytes →
            ∃ entries entries' scopeChain,
              bytes = wireContextFormat.write ⟨wireVersion, entries, scopeChain⟩ ∧
              (Thread.capture g (some s')).serialize g iter' =
                .ok (wireContextFormat.write ⟨wireVersion, entries', scopeChain⟩) ∧
              entries'.Perm entries := by
  intro g
  have hsafe : LocalSafe g.registry.map := built_localSafe ⟨calls, rfl⟩
  refine ⟨?_, ?_⟩
  · intro cell ops
    exact run_invariant (Process.step_confined hsafe) ops _ (Process.start_confined g cell)
  · intro s s' hvariant
    have hcapture : Thread.capture g (some s) = Thread.capture g (some s') :=
      hvariant.capture_eq g.maxScopeChainLen
    refine ⟨hcapture, ?_⟩
    intro iter iter' bytes hbytes
    obtain ⟨entries, entries', hwrite, hserialize, hperm⟩ := serialize_perm iter iter' hbytes
    rw [hcapture] at hwrite hserialize
    exact ⟨entries, entries', _, hwrite, hserialize, hperm⟩

/-- A registry with a number, and one that is local-only. -/
def tokenCalls : List (BuilderCall primitiveTypes) :=
  [.register PrimitiveType.u64 "k" [], .register PrimitiveType.u64 "token" [.localOnly]]

/-- A store with a number and a token, in a scope with another token. -/
def tokenStore (token : UInt64) : ContextStore primitiveTypes :=
  (((ContextStore.new.setValue "k" (u64Value 7)).setValue "token" (u64Value token)).pushScope
    ⟨buildMap tokenCalls⟩ (some "work")).1.setValue "token" (u64Value (token + 1))

/-- Only the tokens differ, so the captures do not. -/
theorem local_only_confined_token :
    Thread.capture ⟨⟨buildMap tokenCalls⟩, 0, 64⟩ (some (tokenStore 1)) =
      Thread.capture ⟨⟨buildMap tokenCalls⟩, 0, 64⟩ (some (tokenStore 5)) := by
  have hsame : ∀ (token token' : UInt64) (m : ValueMap primitiveTypes),
      SameOffLocal ⟨buildMap tokenCalls⟩ (m.insert "token" (u64Value token))
        (m.insert "token" (u64Value token')) := by
    intro token token' m key hlocal
    have hkey : key ≠ "token" := by
      rintro rfl
      cases hlocal
    rw [Finmap.lookup_insert_of_ne _ hkey, Finmap.lookup_insert_of_ne _ hkey]
  exact ((local_only_confined tokenCalls 0 64).2 (tokenStore 1) (tokenStore 5)
    ⟨.cons ⟨rfl, hsame 1 5 _, rfl, rfl, rfl, rfl⟩ .nil, hsame 2 6 ∅, rfl, rfl, rfl, rfl, .nil,
      rfl⟩).1

end DContext
