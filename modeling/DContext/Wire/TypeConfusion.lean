import DContext.Wire.Upgrade

/-!
# Values of another type on the wire

Setting a value does not look at the registered type. A value of another type is written by its own
bincode, unless the key has a codec, and is read by the decoder of the registered type, which takes
any bytes that parse. The wire notices only when some encoder or decoder fails, or when the size is
over the limit; then nothing is read at all.

## Main definitions

* `Mistyped registry s key val`: a value of another type under a registered key
* `Unnoticed g s`: nothing fails on the way
* `NoTypeConfusion g iter s`: what is read are the sender's values, of their registered types

## Main results

* `transcode_mistyped`: a value of another type is read as one of the registered type
* `noTypeConfusion_iff`: when types are kept
* `empty_text_as_number`: an empty text that is read as a number
-/

namespace DContext

open ByteFormat Overlay

variable {U : TypeUniverse}

/-- The store shows a value under a registered key, not a local-only one, that is of another type
than the registered one. -/
def Mistyped (registry : Registry U) (s : ContextStore U) (key : Key) (val : ContextValue U) :
    Prop :=
  s.getValue key = some val ∧
    ∃ reg, registry.map.lookup key = some reg ∧ reg.localOnly = false ∧ val.typeId ≠ reg.typeId

/-- Nothing fails on the way: every captured value has an encoding, the size is within the limit
and within a `Vec<u8>`, and the encoding of each value of another type parses as one of the
registered type. -/
structure Unnoticed (g : Globals U) (s : ContextStore U) : Prop where
  encoded : ∀ key val, (Thread.capture g (some s)).values.lookup key = some val →
    ∃ bytes, valueEncoder g.registry key val = .ok bytes
  withinLimit : g.maxContextSize = 0 ∨
    encodedLength g.registry (Thread.capture g (some s)).values
      (Thread.capture g (some s)).scopeChain ≤ g.maxContextSize
  withinVec : encodedLength g.registry (Thread.capture g (some s)).values
    (Thread.capture g (some s)).scopeChain < 2 ^ 64
  parsed : ∀ key val reg bytes, Mistyped g.registry s key val →
    g.registry.map.lookup key = some reg → U.serialize val.typeId val.val = .ok bytes →
    ∃ x, U.deserialize reg.typeId bytes = .ok x

/-- Every value read back from the serialized capture of a store is a value of the registered type
that the store holds under that key. -/
def NoTypeConfusion (g : Globals U) (iter : IterationOrder U) (s : ContextStore U) : Prop :=
  ∀ (bytes : ByteVec) (snap : ContextSnapshot U),
    (Thread.capture g (some s)).serialize g iter = .ok bytes.1 →
    ContextSnapshot.deserialize g bytes.1 = .ok snap →
    ∀ key val, snap.values.lookup key = some val →
      s.getValue key = some val ∧ g.registry.isValidValue key val = true

section Mistyped

variable {calls : List (BuilderCall U)} {s : ContextStore U} {key : Key} {val : ContextValue U}

/-- A value of another type that is encoded at all is encoded by its own bincode, and read by the
bincode of the registered type. -/
theorem transcode_mistyped {reg : Registration U} (hreg : (buildMap calls).lookup key = some reg)
    (hlocal : reg.localOnly = false) (htype : val.typeId ≠ reg.typeId) {bytes : Bytes}
    (hbytes : valueEncoder ⟨buildMap calls⟩ key val = .ok bytes) :
    U.serialize val.typeId val.val = .ok bytes ∧
      transcode ⟨buildMap calls⟩ ⟨buildMap calls⟩ key val =
        ((U.deserialize reg.typeId bytes).map fun x => some ⟨reg.typeId, x⟩).mapError
          .deserializationFailed := by
  obtain ⟨opts, -, hser, hnative⟩ := (buildMap_native calls key reg hreg).native
  have hcodec := RegistrationOptions.configure_codec opts
  have henc : valueEncoder (⟨buildMap calls⟩ : Registry U) key = reg.encoder :=
    valueEncoder_of_registered hreg
  have hencoder : reg.encoder val = .ok bytes := by
    rw [← hbytes, henc]
  cases hencode : (RegistrationOptions.configure opts).encode with
  | some encode =>
    have hdowncast : val.downcast reg.typeId = none := dif_neg htype
    rw [Registration.encoder, hser, hencode] at hencoder
    simp [customSerializer, hdowncast] at hencoder
  | none =>
    rw [hencode, Option.isSome_none, eq_comm, Option.isSome_eq_false_iff,
      Option.isNone_iff_eq_none] at hcodec
    have hserialize : U.serialize val.typeId val.val = .ok bytes := by
      rw [Registration.encoder, hser, hencode] at hencoder
      exact ContextValue.serializeValue_eq_ok_iff.mp hencoder
    refine ⟨hserialize, ?_⟩
    have hversion : wireKeyVersion (⟨buildMap calls⟩ : Registry U) key = reg.keyVersion :=
      wireKeyVersion_of_registered hreg
    rw [transcode_of_decoder hbytes hreg (hversion ▸ hnative hlocal), hcodec, nativeDeserializer]
    cases U.deserialize reg.typeId bytes <;> rfl

end Mistyped

section NoTypeConfusion

variable {calls : List (BuilderCall U)}

theorem Mistyped.captured {g : Globals U} {s : ContextStore U} {key : Key} {val : ContextValue U}
    (h : Mistyped g.registry s key val) :
    (Thread.capture g (some s)).values.lookup key = some val := by
  obtain ⟨hget, reg, hreg, hlocal, -⟩ := h
  rw [lookup_capture_eq_some_iff, isLocalKey_of_registered hreg]
  exact ⟨hlocal, hget⟩

/-- If something is read back, nothing has failed on the way. -/
theorem unnoticed_of_deserialize {g : Globals U} (hg : g.registry = ⟨buildMap calls⟩)
    {iter : IterationOrder U} {s : ContextStore U} {bytes : ByteVec} {snap : ContextSnapshot U}
    (hbytes : (Thread.capture g (some s)).serialize g iter = .ok bytes.1)
    (hsnap : ContextSnapshot.deserialize g bytes.1 = .ok snap) : Unnoticed g s := by
  have hsafe : LocalSafe g.registry.map := hg ▸ built_localSafe ⟨calls, rfl⟩
  obtain ⟨-, hvalues⟩ := (deserialize_serialize_iff hsafe hbytes snap).mp hsnap
  have horder := iter.enumerates (Thread.capture g (some s)).values
  have hwritten := (exists_serializeFrom_iff g.maxContextSize g.registry _ _ horder).mp
    ⟨bytes.1, hbytes⟩
  refine ⟨hwritten.1, hwritten.2, ?_, ?_⟩
  · obtain ⟨entries, hentries, hwrite, -⟩ := serializeFrom_eq_ok_iff.mp hbytes
    rw [← length_write_serializeEntries horder hentries, ← hwrite]
    exact bytes.2
  · intro key val reg bs hmistyped hreg hbs
    have hval := hmistyped.captured
    obtain ⟨-, reg', hreg', hlocal, htype⟩ := hmistyped
    obtain rfl : reg' = reg := Option.some.inj (hreg'.symm.trans hreg)
    obtain ⟨valueBytes, hvalue⟩ := encoded_of_serialize hbytes hval
    have hcross := hvalues.of_lookup hval
    rw [hg] at hreg hvalue hcross
    obtain ⟨hown, htrans⟩ := transcode_mistyped hreg hlocal htype hvalue
    obtain rfl : valueBytes.1 = bs := Except.ok.inj (hown.symm.trans hbs)
    rw [htrans] at hcross
    cases hx : U.deserialize reg'.typeId valueBytes.1 with
    | error e => simp [hx, Except.map, Except.mapError] at hcross
    | ok x => exact ⟨x, rfl⟩

/-- If nothing fails on the way, something is read back. -/
theorem Unnoticed.exists_deserialize (hU : U.RoundTrips)
    (hcalls : ∀ call ∈ calls, call.RoundTrips) {g : Globals U}
    (hg : g.registry = ⟨buildMap calls⟩) (iter : IterationOrder U) {s : ContextStore U}
    (h : Unnoticed g s) :
    ∃ (bytes : ByteVec) (snap : ContextSnapshot U),
      (Thread.capture g (some s)).serialize g iter = .ok bytes.1 ∧
        ContextSnapshot.deserialize g bytes.1 = .ok snap := by
  have hsafe : LocalSafe g.registry.map := hg ▸ built_localSafe ⟨calls, rfl⟩
  have horder := iter.enumerates (Thread.capture g (some s)).values
  obtain ⟨bytes, hbytes⟩ := (exists_serializeFrom_iff g.maxContextSize g.registry _ _ horder).mpr
    ⟨h.encoded, h.withinLimit⟩
  have hsize : bytes.length < 2 ^ 64 := by
    obtain ⟨entries, hentries, rfl, -⟩ := serializeFrom_eq_ok_iff.mp hbytes
    rw [length_write_serializeEntries horder hentries]
    exact h.withinVec
  obtain ⟨bytes, rfl⟩ : ∃ written : ByteVec, written.1 = bytes := ⟨⟨bytes, hsize⟩, rfl⟩
  obtain ⟨result, hresult⟩ : ∃ result, Crosses g.registry g.registry
      (Thread.capture g (some s)).values result := by
    apply exists_crosses
    intro key val hval
    obtain ⟨valueBytes, hvalue⟩ := encoded_of_serialize hbytes hval
    obtain ⟨hlocal, hget⟩ := lookup_capture_eq_some_iff.mp hval
    rw [hg] at hlocal hvalue ⊢
    rcases transcode_captured hU hcalls hlocal hvalue with
      ⟨-, htrans⟩ | ⟨reg, hreg, hlocal', ⟨-, htrans⟩ | htype⟩
    · exact ⟨_, htrans⟩
    · exact ⟨_, htrans⟩
    · obtain ⟨hown, htrans⟩ := transcode_mistyped hreg hlocal' htype hvalue
      obtain ⟨x, hx⟩ := h.parsed key val reg _
        ⟨hget, reg, hg ▸ hreg, hlocal', htype⟩ (hg ▸ hreg) hown
      rw [hx] at htrans
      exact ⟨_, htrans⟩
  exact ⟨bytes, ⟨result, _⟩, hbytes,
    (deserialize_serialize_iff hsafe hbytes _).mpr ⟨rfl, hresult⟩⟩

end NoTypeConfusion

/-- **When types are kept**: exactly when every value under a registered key is of the registered
type, or else something fails and nothing is read back. -/
theorem noTypeConfusion_iff (hU : U.RoundTrips) (calls : List (BuilderCall U))
    (hcalls : ∀ call ∈ calls, call.RoundTrips) (maxContextSize maxScopeChainLen : Nat)
    (iter : IterationOrder U) (s : ContextStore U) :
    let g : Globals U := ⟨⟨buildMap calls⟩, maxContextSize, maxScopeChainLen⟩
    NoTypeConfusion g iter s ↔
      (∀ key val, ¬ Mistyped g.registry s key val) ∨ ¬ Unnoticed g s := by
  intro g
  have hg : g.registry = ⟨buildMap calls⟩ := rfl
  have hsafe : LocalSafe g.registry.map := built_localSafe ⟨calls, rfl⟩
  constructor
  · intro h
    by_contra hnone
    push Not at hnone
    obtain ⟨⟨key, val, hmistyped⟩, hunnoticed⟩ := hnone
    obtain ⟨bytes, snap, hbytes, hsnap⟩ := hunnoticed.exists_deserialize hU hcalls hg iter
    have hval := hmistyped.captured
    obtain ⟨hget, reg, hreg, hlocal, htype⟩ := hmistyped
    obtain ⟨valueBytes, hvalue⟩ := encoded_of_serialize hbytes hval
    obtain ⟨hown, htrans⟩ := transcode_mistyped hreg hlocal htype hvalue
    obtain ⟨x, hx⟩ := hunnoticed.parsed key val reg _ ⟨hget, reg, hreg, hlocal, htype⟩ hreg hown
    have hcross := ((deserialize_serialize_iff hsafe hbytes snap).mp hsnap).2.of_lookup hval
    rw [htrans, hx] at hcross
    obtain ⟨hstore, -⟩ := h bytes snap hbytes hsnap key _ (Except.ok.inj hcross).symm
    rw [hget] at hstore
    exact htype (congrArg ContextValue.typeId (Option.some.inj hstore))
  · intro hcond bytes snap hbytes hsnap key val hval
    have hunnoticed := unnoticed_of_deserialize hg hbytes hsnap
    have htyped := hcond.resolve_right (not_not_intro hunnoticed)
    obtain ⟨-, hvalues⟩ := (deserialize_serialize_iff hsafe hbytes snap).mp hsnap
    cases hsent : (Thread.capture g (some s)).values.lookup key with
    | none =>
      rw [hvalues.of_absent hsent] at hval
      cases hval
    | some sent =>
      obtain ⟨valueBytes, hvalue⟩ := encoded_of_serialize hbytes hsent
      obtain ⟨hlocal, hget⟩ := lookup_capture_eq_some_iff.mp hsent
      have hcross := hvalues.of_lookup hsent
      rw [hval] at hcross
      rcases transcode_captured hU hcalls hlocal hvalue with
        ⟨-, htrans⟩ | ⟨reg, hreg, hlocal', ⟨htype, htrans⟩ | htype⟩
      · rw [htrans] at hcross
        cases hcross
      · rw [htrans] at hcross
        obtain rfl := Option.some.inj (Except.ok.inj hcross)
        refine ⟨hget, ?_⟩
        simp [Registry.isValidValue, g, hreg, htype]
      · exact absurd ⟨hget, reg, hreg, hlocal', htype⟩ (htyped key sent)

/-- A number under a key registered for numbers. -/
theorem noTypeConfusion_number :
    NoTypeConfusion ⟨⟨buildMap numberCalls⟩, 0, 64⟩ .arbitrary numberStore := by
  refine (noTypeConfusion_iff primitiveTypes_roundTrips numberCalls numberCalls_roundTrips 0 64
    .arbitrary _).mpr (.inl ?_)
  rintro key val ⟨hget, reg, hreg, -, htype⟩
  obtain ⟨rfl, rfl⟩ := getValue_numberStore hget
  have hreg' : (buildMap numberCalls).lookup "k" =
      some (newRegistration PrimitiveType.u64 "k" .new) := rfl
  obtain rfl := Option.some.inj (hreg.symm.trans hreg')
  exact htype rfl

/-- An empty text under a key registered for numbers is sent as eight zero bytes, and read as the
number 0. -/
theorem empty_text_as_number :
    ContextStore.Reachable (ContextStore.new.setValue "k" (⟨.string, ""⟩ :
        ContextValue primitiveTypes)) ∧
      ∀ iter, ¬ NoTypeConfusion ⟨⟨buildMap numberCalls⟩, 0, 64⟩ iter
        (ContextStore.new.setValue "k" ⟨.string, ""⟩) := by
  refine ⟨.setValue _ _ .new, ?_⟩
  intro iter h
  have hcapture : Thread.capture ⟨⟨buildMap numberCalls⟩, 0, 64⟩
      (some (ContextStore.new.setValue "k" ⟨.string, ""⟩)) =
        ⟨Finmap.insert "k" ⟨.string, ""⟩ ∅, []⟩ := rfl
  have hbytes : (Thread.capture ⟨⟨buildMap numberCalls⟩, 0, 64⟩
      (some (ContextStore.new.setValue "k" ⟨.string, ""⟩))).serialize
        ⟨⟨buildMap numberCalls⟩, 0, 64⟩ iter =
          .ok (wireContextFormat.write ⟨2, [⟨"k", 1, u64.write 0⟩], []⟩) := by
    rw [hcapture, ContextSnapshot.serialize, IterationOrder.list_singleton]
    rfl
  have hsnap : ContextSnapshot.deserialize ⟨⟨buildMap numberCalls⟩, 0, 64⟩
      (wireContextFormat.write ⟨2, [⟨"k", 1, u64.write 0⟩], []⟩) =
        .ok ⟨Finmap.insert "k" (u64Value 0) ∅, []⟩ := rfl
  obtain ⟨hget, -⟩ := h ⟨_, by decide⟩ _ hbytes hsnap "k" (u64Value 0) rfl
  have htype := congrArg ContextValue.typeId (Option.some.inj hget)
  cases htype

end DContext
