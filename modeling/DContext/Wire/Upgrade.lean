import DContext.Wire.Codec
import Mathlib.Algebra.Order.BigOperators.Group.List

/-!
# Rolling upgrades

A sender and a receiver with registries of different ages exchange a snapshot. The version written
beside a value selects the decoder of the receiver: its own one, when the version is still current,
or a migration. One value that cannot be read refuses the whole snapshot.

## Main definitions

* `IterationOrder.arbitrary`: some order of iteration

## Main results

* `encoded_of_serialize`: all values of a serialized snapshot were encoded
* `rolling_upgrade`: what each key becomes, and when nothing is produced
-/

namespace DContext

open ByteFormat Overlay

variable {U : TypeUniverse}

/-- Some order of iteration. -/
noncomputable def IterationOrder.arbitrary : IterationOrder U where
  list m := m.entries.toList
  enumerates m := m.entries.coe_toList

/-- A map with one entry has one order of iteration. -/
theorem IterationOrder.list_singleton (iter : IterationOrder U) (key : Key)
    (val : ContextValue U) : iter.list (Finmap.insert key val ∅) = [⟨key, val⟩] := by
  have h : Enumerates [⟨key, val⟩] (Finmap.insert key val (∅ : ValueMap U)) := rfl
  exact List.perm_singleton.mp ((iter.enumerates _).perm h)

/-- The values of a serialized snapshot were encoded, each into bytes of a `Vec<u8>`. -/
theorem encoded_of_serialize {g : Globals U} {iter : IterationOrder U} {snap : ContextSnapshot U}
    {bytes : ByteVec} (h : snap.serialize g iter = .ok bytes.1) {key : Key} {val : ContextValue U}
    (hval : snap.values.lookup key = some val) :
    ∃ valueBytes : ByteVec, valueEncoder g.registry key val = .ok valueBytes.1 := by
  obtain ⟨entries, hentries, hbytes, -⟩ := serializeFrom_eq_ok_iff.mp h
  have hof := entriesOf_serializeEntries (iter.enumerates snap.values) hentries
  obtain ⟨entry, hmem, rfl⟩ :=
    List.mem_map.mp ((hof.keys key).mpr (Finmap.mem_iff.mpr ⟨val, hval⟩))
  obtain ⟨-, val', hval', hvalue⟩ := hof.entry entry hmem
  obtain rfl : val' = val := Option.some.inj (hval'.symm.trans hval)
  refine ⟨⟨entry.value, ?_⟩, hvalue⟩
  have hentry : (wireEntryFormat.write entry).length ≤
      (entries.map fun e => (wireEntryFormat.write e).length).sum := by
    apply List.le_sum_of_mem
    exact List.mem_map_of_mem hmem
  have hsize := bytes.2
  rw [hbytes, length_wireContext_write] at hsize
  rw [length_wireEntry_write] at hentry
  dsimp only at hsize
  omega

/-- **Rolling upgrades.** Of a snapshot whose values have the types the sender registers them
under, the receiver reads everything or nothing, in whatever order the values were written. It
reads nothing exactly when it has no use for the bytes of some key. -/
theorem rolling_upgrade (hU : U.RoundTrips) (calls₁ calls₂ : List (BuilderCall U))
    (hcalls : ∀ call ∈ calls₂, call.RoundTrips)
    (maxContextSize₁ maxScopeChainLen₁ maxContextSize₂ maxScopeChainLen₂ : Nat) :
    let g₁ : Globals U := ⟨⟨buildMap calls₁⟩, maxContextSize₁, maxScopeChainLen₁⟩
    let g₂ : Globals U := ⟨⟨buildMap calls₂⟩, maxContextSize₂, maxScopeChainLen₂⟩
    ∀ (snap : ContextSnapshot U) (iter : IterationOrder U) (bytes : ByteVec),
      (∀ key val, snap.values.lookup key = some val → g₁.registry.isValidValue key val = true) →
      snap.serialize g₁ iter = .ok bytes.1 →
      ((∃ e, ContextSnapshot.deserialize g₂ bytes.1 = .error e) ↔
        ∃ key val, snap.values.lookup key = some val ∧
          Undecodable g₁.registry g₂.registry key val) ∧
      (∀ result, ContextSnapshot.deserialize g₂ bytes.1 = .ok result →
        result.scopeChain = snap.scopeChain ∧
        (∀ key, snap.values.lookup key = none ∨ g₂.registry.map.lookup key = none ∨
          g₂.registry.isLocalKey key = true → result.values.lookup key = none) ∧
        (∀ key val reg₁ reg₂, snap.values.lookup key = some val →
          g₁.registry.map.lookup key = some reg₁ → g₂.registry.map.lookup key = some reg₂ →
          reg₂.localOnly = false → reg₂.keyVersion = reg₁.keyVersion →
          reg₂.typeId = reg₁.typeId → reg₂.serializeFn = reg₁.serializeFn →
          result.values.lookup key = some val) ∧
        ∀ key reg₁ reg₂ tCurrent (x : U.El reg₁.typeId)
          (migrate : U.El reg₁.typeId → U.El tCurrent),
          snap.values.lookup key = some ⟨reg₁.typeId, x⟩ →
          g₁.registry.map.lookup key = some reg₁ → g₂.registry.map.lookup key = some reg₂ →
          reg₁.serializeFn = none →
          reg₂.deserializers.lookup reg₁.keyVersion =
            some (migrationDeserializer reg₁.typeId tCurrent migrate) →
          result.values.lookup key = some ⟨tCurrent, migrate x⟩) ∧
      ∀ (iter' : IterationOrder U) (bytes' : ByteVec), snap.serialize g₁ iter' = .ok bytes'.1 →
        ∀ result, ContextSnapshot.deserialize g₂ bytes'.1 = .ok result ↔
          ContextSnapshot.deserialize g₂ bytes.1 = .ok result := by
  intro g₁ g₂ snap iter bytes htyped hbytes
  have hsafe : LocalSafe g₂.registry.map := built_localSafe ⟨calls₂, rfl⟩
  have hread := deserialize_serialize_iff hsafe hbytes
  refine ⟨⟨?_, ?_⟩, ?_, ?_⟩
  · rintro ⟨e, he⟩
    by_contra hnone
    have hcross : ∀ key val, snap.values.lookup key = some val →
        ∃ r, transcode g₁.registry g₂.registry key val = .ok r := by
      intro key val hval
      obtain ⟨valueBytes, hvalue⟩ := encoded_of_serialize hbytes hval
      cases htrans : transcode g₁.registry g₂.registry key val with
      | ok r => exact ⟨r, rfl⟩
      | error e => exact absurd ⟨key, val, hval, (transcode_error_iff hvalue).mp ⟨e, htrans⟩⟩ hnone
    obtain ⟨result, hresult⟩ := exists_crosses hcross
    rw [(hread ⟨result, snap.scopeChain⟩).mpr ⟨rfl, hresult⟩] at he
    cases he
  · rintro ⟨key, val, hval, hund⟩
    obtain ⟨valueBytes, hvalue⟩ := encoded_of_serialize hbytes hval
    obtain ⟨e, he⟩ := (transcode_error_iff hvalue).mpr hund
    cases hresult : ContextSnapshot.deserialize g₂ bytes.1 with
    | error e => exact ⟨e, rfl⟩
    | ok result =>
      rw [((hread result).mp hresult).2.of_lookup hval] at he
      cases he
  · intro result hresult
    obtain ⟨hchain, hvalues⟩ := (hread result).mp hresult
    refine ⟨hchain, ?_, ?_, ?_⟩
    · intro key hkey
      cases hval : snap.values.lookup key with
      | none => exact hvalues.of_absent hval
      | some val =>
        obtain ⟨valueBytes, hvalue⟩ := encoded_of_serialize hbytes hval
        have habsent := hkey.resolve_left (Option.ne_none_iff_exists'.mpr ⟨val, hval⟩)
        have htrans := hvalues.of_lookup hval
        rw [transcode_absent hvalue habsent] at htrans
        exact (Except.ok.inj htrans).symm
    · intro key val reg₁ reg₂ hval hreg₁ hreg₂ hlocal hversion htype hcodec
      obtain ⟨valueBytes, hvalue⟩ := encoded_of_serialize hbytes hval
      have hvalid := htyped key val hval
      rw [Registry.isValidValue, hreg₁, Option.any_some, decide_eq_true_iff] at hvalid
      have hencoder : valueEncoder g₁.registry key = reg₂.encoder := by
        rw [valueEncoder_of_registered hreg₁, Registration.encoder, Registration.encoder, hcodec]
      have htrans := hvalues.of_lookup hval
      rw [transcode_same hU hcalls hvalue hreg₂ hlocal
        (hversion.trans (wireKeyVersion_of_registered hreg₁).symm)
        (hvalid.symm.trans htype.symm) hencoder] at htrans
      exact (Except.ok.inj htrans).symm
    · intro key reg₁ reg₂ tCurrent x migrate hval hreg₁ hreg₂ hcodec hmigrate
      obtain ⟨valueBytes, hvalue⟩ := encoded_of_serialize hbytes hval
      have hdefault : valueEncoder g₁.registry key = ContextValue.serializeValue := by
        rw [valueEncoder_of_registered hreg₁, Registration.encoder, hcodec]
        rfl
      have htrans := hvalues.of_lookup hval
      rw [transcode_migration hU hvalue hdefault hreg₂
        ((wireKeyVersion_of_registered hreg₁).symm ▸ hmigrate)] at htrans
      exact (Except.ok.inj htrans).symm
  · intro iter' bytes' hbytes' result
    rw [hread, deserialize_serialize_iff hsafe hbytes']

/-- A registry that knows `k` as a number. -/
def numberCalls : List (BuilderCall primitiveTypes) := [.register .u64 "k" []]

theorem numberCalls_roundTrips : ∀ call ∈ numberCalls, call.RoundTrips := by
  intro call hmem
  obtain rfl := List.mem_singleton.mp hmem
  intro encode hencode
  cases hencode

/-- What a snapshot of one number is serialized to, in every order of iteration. -/
theorem serialize_number (iter : IterationOrder primitiveTypes) (scopeChain : List String) :
    ContextSnapshot.serialize ⟨⟨buildMap numberCalls⟩, 0, 64⟩ iter
      ⟨Finmap.insert "k" (u64Value 7) ∅, scopeChain⟩ =
        .ok (wireContextFormat.write ⟨2, [⟨"k", 1, u64.write 7⟩], scopeChain⟩) := by
  rw [ContextSnapshot.serialize, IterationOrder.list_singleton]
  rfl

/-- A store with a number under `k`. -/
def numberStore : ContextStore primitiveTypes := ContextStore.new.setValue "k" (u64Value 7)

theorem getValue_numberStore {key : Key} {val : ContextValue primitiveTypes}
    (h : numberStore.getValue key = some val) : key = "k" ∧ val = u64Value 7 := by
  have hval : (Finmap.insert "k" (u64Value 7) ∅ : ValueMap primitiveTypes).lookup key =
      some val := by
    rw [← h, ContextStore.getValue_eq_layered]
    simp [numberStore, ContextStore.visibleMaps, ContextStore.setValue, ContextStore.new]
  rw [Map.lookup_insert_eq] at hval
  split_ifs at hval with hkey
  · exact ⟨hkey, (Option.some.inj hval).symm⟩
  · cases hval

/-- A number as a text. -/
def numberText (n : primitiveTypes.El .u64) : primitiveTypes.El .string :=
  (toString (UInt64.toNat n) : String)

/-- A newer registry, where `k` is a text, with a migration from the number. -/
def textCalls : List (BuilderCall primitiveTypes) :=
  [.register .string "k" [.version 2], .migration .u64 .string "k" 1 numberText]

/-- A number sent by the older one arrives as a text, below the scope chain it was sent with. -/
theorem rolling_upgrade_number :
    ∃ result, ContextSnapshot.deserialize ⟨⟨buildMap textCalls⟩, 0, 64⟩
        (wireContextFormat.write ⟨2, [⟨"k", 1, u64.write 7⟩], ["a"]⟩) = .ok result ∧
      result.scopeChain = ["a"] ∧ result.values.lookup "k" = some ⟨.string, "7"⟩ := by
  have hcalls : ∀ call ∈ textCalls, call.RoundTrips := by
    intro call hmem
    simp only [textCalls, List.mem_cons, List.not_mem_nil, or_false] at hmem
    rcases hmem with rfl | rfl
    · intro encode hencode
      cases hencode
    · trivial
  have htyped : ∀ key val,
      (Finmap.insert "k" (u64Value 7) ∅ : ValueMap primitiveTypes).lookup key = some val →
      (⟨buildMap numberCalls⟩ : Registry primitiveTypes).isValidValue key val = true := by
    intro key val hval
    rw [Map.lookup_insert_eq] at hval
    split_ifs at hval with hkey
    · obtain rfl := Option.some.inj hval
      rw [hkey]
      rfl
    · cases hval
  have hresult : ContextSnapshot.deserialize ⟨⟨buildMap textCalls⟩, 0, 64⟩
      (wireContextFormat.write ⟨2, [⟨"k", 1, u64.write 7⟩], ["a"]⟩) =
        .ok ⟨Finmap.insert "k" ⟨.string, "7"⟩ ∅, ["a"]⟩ := rfl
  have hmigrate := ((rolling_upgrade primitiveTypes_roundTrips numberCalls textCalls hcalls
    0 64 0 64 _ _ ⟨_, by decide⟩ htyped (serialize_number .arbitrary _)).2.1 _ hresult).2.2.2
  exact ⟨_, hresult, rfl, hmigrate "k" (newRegistration .u64 "k" .new) _ .string (7 : UInt64)
    numberText rfl rfl rfl rfl rfl⟩

end DContext
