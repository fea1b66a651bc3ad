import DContext.Registry.Building
import DContext.Wire.LocalOnly

/-!
# Decoders and what they let through

A registration starts with a decoder for its own version, which no later call replaces, and every
decoder under a key yields values of the registered type. What is read from bytes is therefore
accepted when it is attached, and nothing of it is lost on the way.

## Main definitions

* `DecodersTyped m`: decoders yield values of the registered types
* `DecodersProtected calls`: what holds of the decoders after any sequence of calls

## Main results

* `built_decodersTyped`: decoders of built registries are typed
* `lookup_installed`: a registration is what one call has made it
* `deserialize_accepted`: what is read is accepted
* `decoders_protected`: the two together, for every sequence of calls and all bytes
-/

namespace DContext

open Overlay

variable {U : TypeUniverse}

/-! ## The type of what is decoded -/

/-- Every decoder under a key yields values of the registered type. -/
def DecodersTyped (m : RegistryMap U) : Prop :=
  ∀ key reg, m.lookup key = some reg → ∀ version deserFn,
    reg.deserializers.lookup version = some deserFn → ∀ bytes val,
      deserFn bytes = .ok val → val.typeId = reg.typeId

theorem nativeDeserializer_typeId {t : U.TypeId} {decode : Option (Bytes → Except String (U.El t))}
    {bytes : Bytes} {val : ContextValue U} (h : nativeDeserializer t decode bytes = .ok val) :
    val.typeId = t := by
  have hmap : ∀ r : Except String (U.El t),
      (r.map fun x => (⟨t, x⟩ : ContextValue U)).mapError ContextError.deserializationFailed =
        .ok val → val.typeId = t := by
    intro r hr
    rw [mapError_eq_ok_iff] at hr
    cases r with
    | error e => cases hr
    | ok x =>
      obtain rfl := Except.ok.inj hr
      rfl
  cases decode with
  | none => exact hmap _ h
  | some decode => exact hmap _ h

theorem migrationDeserializer_typeId {tOld tCurrent : U.TypeId}
    {migrate : U.El tOld → U.El tCurrent} {bytes : Bytes} {val : ContextValue U}
    (h : migrationDeserializer tOld tCurrent migrate bytes = .ok val) : val.typeId = tCurrent := by
  unfold migrationDeserializer at h
  cases hold : U.deserialize tOld bytes with
  | error e => simp [hold] at h
  | ok old =>
    simp only [hold, Except.ok.injEq] at h
    subst h
    rfl

/-- **Decoders of built registries are typed**: both calls install decoders of the registered
type. -/
theorem built_decodersTyped {m : RegistryMap U} (h : Built m) : DecodersTyped m := by
  obtain ⟨calls, rfl⟩ := h
  refine buildMap_invariant calls ?_ ?_
  · intro t key opts _ version deserFn hdeser bytes val hval
    dsimp only [newRegistration] at hdeser ⊢
    split_ifs at hdeser
    · cases hdeser
    · rw [Map.lookup_insert_eq] at hdeser
      split_ifs at hdeser
      · obtain rfl := Option.some.inj hdeser
        exact nativeDeserializer_typeId hval
      · cases hdeser
  · intro tOld tCurrent key oldVersion migrate reg hreg htype hlocal hversion
      version deserFn hdeser bytes val hval
    dsimp only at hdeser ⊢
    rw [Map.lookup_insert_eq] at hdeser
    split_ifs at hdeser with hold
    · obtain rfl := Option.some.inj hdeser
      exact (migrationDeserializer_typeId hval).trans htype.symm
    · exact hreg version deserFn hdeser bytes val hval

/-! ## What is read -/

/-- Every value is accepted under its key, and no key is local-only. -/
def Accepted (registry : Registry U) (values : ValueMap U) : Prop :=
  ∀ key val, values.lookup key = some val →
    registry.isValidValue key val = true ∧ registry.isLocalKey key = false

theorem deserializeEntry_accepted {registry : Registry U} (hsafe : LocalSafe registry.map)
    (htyped : DecodersTyped registry.map) {entry : WireEntry} {key : Key} {val : ContextValue U}
    (h : deserializeEntry registry entry = .ok (some (key, val))) :
    registry.isValidValue key val = true ∧ registry.isLocalKey key = false := by
  obtain ⟨rfl, hlocal⟩ := deserializeEntry_key hsafe h
  refine ⟨?_, hlocal⟩
  obtain ⟨reg, deserFn, hreg, hdeser, -, hval⟩ := deserializeEntry_eq_some_iff.mp h
  rw [Registry.isValidValue, hreg, Option.any_some, decide_eq_true_iff]
  exact (htyped _ reg hreg _ deserFn hdeser _ val hval).symm

/-- **What is read is accepted.** -/
theorem deserialize_accepted {registry : Registry U} (hsafe : LocalSafe registry.map)
    (htyped : DecodersTyped registry.map) {bytes : Bytes} {snap : ContextSnapshot U}
    (h : deserializeToSnapshot registry bytes = .ok snap) : Accepted registry snap.values := by
  refine deserializeToSnapshot_invariant (P := Accepted registry) ?_ ?_ h
  · intro key val hval
    cases hval
  · intro values entry key val hvalues hentry key' val' hval'
    rw [Map.lookup_insert_eq] at hval'
    split_ifs at hval' with hkey
    · subst hkey
      obtain rfl := Option.some.inj hval'
      exact deserializeEntry_accepted hsafe htyped hentry
    · exact hvalues key' val' hval'

/-- A snapshot whose values are accepted becomes a store with just these. -/
theorem storeFromSnapshot_of_accepted {registry : Registry U} {snap : ContextSnapshot U}
    (h : Accepted registry snap.values) :
    storeFromSnapshotWithRegistry snap registry =
      .fromValuesWithChain snap.values snap.scopeChain := by
  unfold storeFromSnapshotWithRegistry
  congr 1
  apply Finmap.ext_lookup
  intro key
  rw [Map.lookup_filter]
  cases hval : snap.values.lookup key with
  | none => rfl
  | some val =>
    obtain ⟨hvalid, hlocal⟩ := h key val hval
    simp [Option.filter, hvalid, hlocal]

/-! ## After any sequence of calls -/

/-- What holds of the decoders, and of what they read, after a sequence of calls. -/
structure DecodersProtected (calls : List (BuilderCall U)) : Prop where
  refused : ∀ pre call post, calls = pre ++ call :: post → ∀ e,
    (call.exec (buildMap pre)).2 = .error e → buildMap (pre ++ [call]) = buildMap pre
  /-- Each registration has the codec of one call, its encoder and decoder together, and at its
  version the decoder that was installed with it. -/
  installed : ∀ key reg, (buildMap calls).lookup key = some reg →
    ∃ (pre : List (BuilderCall U)) (t : U.TypeId) (opts : List (OptionCall U t))
      (post : List (BuilderCall U)), calls = pre ++ .register t key opts :: post ∧
        (buildMap pre).lookup key = none ∧ reg.Matches (RegistrationOptions.configure opts) ∧
        (RegistrationOptions.configure opts).encode.isSome =
          (RegistrationOptions.configure opts).decode.isSome
  /-- A registration stays, with that decoder, whatever is called later. -/
  kept : ∀ pre post, calls = pre ++ post → ∀ key reg, (buildMap pre).lookup key = some reg →
    ∃ reg', (buildMap calls).lookup key = some reg' ∧ reg.Later reg'
  localOnly : ∀ key reg, (buildMap calls).lookup key = some reg → reg.localOnly = true →
    reg.deserializers = ∅
  typed : DecodersTyped (buildMap calls)
  /-- What is read is accepted, and a store that is made from it holds all of it. -/
  accepted : ∀ bytes snap, deserializeToSnapshot ⟨buildMap calls⟩ bytes = .ok snap →
    Accepted ⟨buildMap calls⟩ snap.values ∧
      (storeFromSnapshotWithRegistry snap ⟨buildMap calls⟩).collectValues = snap.values

/-- **Decoders are type-correct and protected**, for every sequence of calls and all bytes. -/
theorem decoders_protected (calls : List (BuilderCall U)) : DecodersProtected calls where
  refused := by
    rintro pre call post - e hrefused
    rw [buildMap_concat]
    exact exec_of_error hrefused
  installed := by
    intro key reg hreg
    obtain ⟨pre, t, opts, post, hcalls, hnone, -, hmatches⟩ := lookup_installed calls hreg
    exact ⟨pre, t, opts, post, hcalls, hnone, hmatches, RegistrationOptions.configure_codec opts⟩
  kept := by
    rintro pre post rfl key reg hreg
    exact lookup_buildMap_append post hreg
  localOnly := by
    intro key reg hreg
    exact (built_localSafe ⟨calls, rfl⟩ key reg hreg).2
  typed := built_decodersTyped ⟨calls, rfl⟩
  accepted := by
    intro bytes snap h
    have haccepted : Accepted ⟨buildMap calls⟩ snap.values :=
      deserialize_accepted (built_localSafe ⟨calls, rfl⟩) (built_decodersTyped ⟨calls, rfl⟩) h
    refine ⟨haccepted, ?_⟩
    rw [storeFromSnapshot_of_accepted haccepted]
    apply Finmap.ext_lookup
    intro key
    rw [ContextStore.lookup_collectValues, ContextStore.getValue_fromValuesWithChain]

end DContext
