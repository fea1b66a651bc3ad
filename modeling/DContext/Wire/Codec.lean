import DContext.Wire.LocalOnly

/-!
# From one registry to another

The bytes of a snapshot are made under the registry of the sender and read under that of the
receiver. What becomes of a value depends on its key alone: the sender's encoder and version, and
the decoder that the receiver has for that version. Every registration carries a decoder for its
own version, which undoes its own encoder when the codecs it was given do.

## Main definitions

* `TypeUniverse.RoundTrips`, `BuilderCall.RoundTrips`: decoding undoes encoding
* `Registration.encoder`: the encoder of a key
* `transcode sender receiver key val`: one value from one registry to the other

## Main results

* `Registration.decode_encoder`: a registration reads what it writes
* `deserialize_serialize_iff`: what the receiver makes of the bytes, whatever their order
* `transcode_same`, `transcode_migration`, `transcode_absent`: the paths of a value
-/

namespace DContext

open ByteFormat Overlay

variable {U : TypeUniverse}

/-! ## Codecs -/

/-- What serde and bincode derive for each type reads back what it wrote. -/
def TypeUniverse.RoundTrips (U : TypeUniverse) : Prop :=
  ∀ (t : U.TypeId) (x : U.El t) (bytes : ByteVec),
    U.serialize t x = .ok bytes.1 → U.deserialize t bytes.1 = .ok x

/-- A codec given to the builder reads back what it wrote. -/
def BuilderCall.RoundTrips : BuilderCall U → Prop
  | .register t _ calls =>
    ∀ encode ∈ (RegistrationOptions.configure calls).encode,
      ∀ decode ∈ (RegistrationOptions.configure calls).decode,
        ∀ (x : U.El t) (bytes : ByteVec), encode x = .ok bytes.1 → decode bytes.1 = .ok x
  | .migration .. => True

theorem primitiveTypes_roundTrips : primitiveTypes.RoundTrips := by
  rintro t x ⟨bytes, hsize⟩ h
  cases t with
  | u64 =>
    obtain rfl := Except.ok.inj h
    have hread := u64.read_write_nil (x.toNat_lt)
    simp only [primitiveTypes, hread]
    exact congrArg Except.ok (UInt64.ofNat_toNat ..)
  | string =>
    obtain rfl := Except.ok.inj h
    have hread := text.read_write_nil (text_compact.fits _ hsize)
    simp only [primitiveTypes, hread]
    rfl

/-- The encoder of a registration. -/
def Registration.encoder (reg : Registration U) : SerializeFn U :=
  reg.serializeFn.getD ContextValue.serializeValue

theorem valueEncoder_of_registered {registry : Registry U} {key : Key} {reg : Registration U}
    (h : registry.map.lookup key = some reg) : valueEncoder registry key = reg.encoder := by
  unfold valueEncoder Registration.encoder Registry.getSerializationInfo
  rw [h]
  cases hser : reg.serializeFn <;> simp [hser]

theorem wireKeyVersion_of_registered {registry : Registry U} {key : Key} {reg : Registration U}
    (h : registry.map.lookup key = some reg) : wireKeyVersion registry key = reg.keyVersion := by
  rw [wireKeyVersion, Registry.getSerializationInfo, h]
  rfl

theorem isLocalKey_of_registered {registry : Registry U} {key : Key} {reg : Registration U}
    (h : registry.map.lookup key = some reg) : registry.isLocalKey key = reg.localOnly := by
  rw [Registry.isLocalKey, h, Option.any_some]

/-- What a registration keeps of its call: the encoder, and for a key that is not local-only the
decoder of its own version. -/
structure Registration.Native (calls : List (BuilderCall U)) (reg : Registration U) : Prop where
  native : ∃ opts : List (OptionCall U reg.typeId), .register reg.typeId reg.key opts ∈ calls ∧
    reg.serializeFn =
      (RegistrationOptions.configure opts).encode.map (customSerializer reg.typeId) ∧
    (reg.localOnly = false → reg.deserializers.lookup reg.keyVersion =
      some (nativeDeserializer reg.typeId (RegistrationOptions.configure opts).decode))

theorem buildMap_native (calls : List (BuilderCall U)) :
    ∀ key reg, (buildMap calls).lookup key = some reg → reg.Native calls := by
  refine buildMap_invariant (P := fun _ reg => reg.Native calls) calls ?_ ?_
  · intro t key opts hcall
    refine ⟨opts, hcall, rfl, fun hlocal => ?_⟩
    have hdeser : (newRegistration t key (.configure opts)).deserializers =
        Finmap.insert (RegistrationOptions.configure opts).version
          (nativeDeserializer t (RegistrationOptions.configure opts).decode) ∅ :=
      if_neg (ne_true_of_eq_false hlocal)
    rw [hdeser]
    exact Finmap.lookup_insert _
  · intro tOld tCurrent key oldVersion migrate reg hreg htype hlocal hversion
    obtain ⟨opts, hopts, hser, hnative⟩ := hreg.native
    refine ⟨opts, hopts, hser, fun _ => ?_⟩
    -- a migration is for another version
    rw [Finmap.lookup_insert_of_ne _ hversion.symm]
    exact hnative hlocal

/-- **A registration reads what it writes**, of the values of its type. -/
theorem Registration.decode_encoder (hU : U.RoundTrips) {calls : List (BuilderCall U)}
    (hcalls : ∀ call ∈ calls, call.RoundTrips) {key : Key} {reg : Registration U}
    (hreg : (buildMap calls).lookup key = some reg) (hlocal : reg.localOnly = false)
    {val : ContextValue U} (htype : val.typeId = reg.typeId) {bytes : ByteVec}
    (hbytes : reg.encoder val = .ok bytes.1) :
    ∃ deserFn, reg.deserializers.lookup reg.keyVersion = some deserFn ∧
      deserFn bytes.1 = .ok val := by
  obtain ⟨opts, hopts, hser, hnative⟩ := (buildMap_native calls key reg hreg).native
  refine ⟨_, hnative hlocal, ?_⟩
  obtain ⟨t, x⟩ := val
  dsimp only at htype
  subst htype
  have hcodec := RegistrationOptions.configure_codec opts
  have hround := hcalls _ hopts
  cases hencode : (RegistrationOptions.configure opts).encode with
  | none =>
    rw [hencode, Option.isSome_none, eq_comm, Option.isSome_eq_false_iff,
      Option.isNone_iff_eq_none] at hcodec
    rw [encoder, hser, hencode] at hbytes
    rw [Option.map_none, Option.getD_none, ContextValue.serializeValue_eq_ok_iff] at hbytes
    rw [hcodec, nativeDeserializer, hU _ x bytes hbytes]
    rfl
  | some encode =>
    rw [hencode, Option.isSome_some, eq_comm, Option.isSome_iff_exists] at hcodec
    obtain ⟨decode, hdecode⟩ := hcodec
    rw [encoder, hser, hencode] at hbytes
    simp only [Option.map_some, Option.getD_some, customSerializer,
      ContextValue.downcast_self, mapError_eq_ok_iff] at hbytes
    rw [hdecode, nativeDeserializer]
    simp only [hround encode hencode decode hdecode x bytes hbytes]
    rfl

/-! ## One value across -/

/-- What the receiver makes of a value that the sender has under a key. -/
def transcode (sender receiver : Registry U) (key : Key) (val : ContextValue U) :
    Except ContextError (Option (ContextValue U)) :=
  match valueEncoder sender key val with
  | .error e => .error e
  | .ok bytes =>
    (deserializeEntry receiver ⟨key, wireKeyVersion sender key, bytes⟩).map (·.map Prod.snd)

/-- Every value of `values` comes across, and `result` holds what each has become and nothing
else. -/
def Crosses (sender receiver : Registry U) (values result : ValueMap U) : Prop :=
  ∀ key, match values.lookup key with
    | none => result.lookup key = none
    | some val => transcode sender receiver key val = .ok (result.lookup key)

section Crosses

variable {sender receiver : Registry U} {values result result' : ValueMap U} {key : Key}
  {val : ContextValue U}

theorem Crosses.of_absent (h : Crosses sender receiver values result)
    (hkey : values.lookup key = none) : result.lookup key = none := by
  have hcross := h key
  rw [hkey] at hcross
  exact hcross

theorem Crosses.of_lookup (h : Crosses sender receiver values result)
    (hval : values.lookup key = some val) :
    transcode sender receiver key val = .ok (result.lookup key) := by
  have hcross := h key
  rw [hval] at hcross
  exact hcross

theorem Crosses.unique (h : Crosses sender receiver values result)
    (h' : Crosses sender receiver values result') : result = result' := by
  apply Finmap.ext_lookup
  intro key
  cases hval : values.lookup key with
  | none => rw [h.of_absent hval, h'.of_absent hval]
  | some val => exact Except.ok.inj ((h.of_lookup hval).symm.trans (h'.of_lookup hval))

/-- Values that all come across make up a result. -/
theorem exists_crosses (h : ∀ key val, values.lookup key = some val →
    ∃ r, transcode sender receiver key val = .ok r) :
    ∃ result, Crosses sender receiver values result := by
  refine ⟨Map.collect values.keys fun key =>
    (values.lookup key).bind fun val => (transcode sender receiver key val).toOption.join, ?_⟩
  intro key
  rw [Map.lookup_collect]
  cases hval : values.lookup key with
  | none => simp
  | some val =>
    obtain ⟨r, hr⟩ := h key val hval
    have hkey : key ∈ values.keys := Finmap.mem_keys.mpr (Finmap.mem_iff.mpr ⟨val, hval⟩)
    rw [if_pos hkey, Option.bind_some, hr]
    exact hr

end Crosses

theorem deserializeEntries_ok {registry : Registry U} {entries : List WireEntry} :
    ∀ {values result : ValueMap U}, deserializeEntries registry entries values = .ok result →
      ∀ entry ∈ entries, ∃ restored, deserializeEntry registry entry = .ok restored := by
  induction entries with
  | nil => exact fun _ entry h => absurd h List.not_mem_nil
  | cons entry entries ih =>
    intro values result h
    rw [deserializeEntries] at h
    rw [List.forall_mem_cons]
    cases hentry : deserializeEntry registry entry with
    | error e => simp [hentry] at h
    | ok restored =>
      cases restored with
      | none =>
        simp only [hentry] at h
        exact ⟨⟨_, rfl⟩, ih h⟩
      | some kv =>
        simp only [hentry] at h
        exact ⟨⟨_, rfl⟩, ih h⟩

/-- When no key occurs twice, each entry gives its key what it decodes to. -/
theorem deserializeEntries_of_nodup {registry : Registry U} (hsafe : LocalSafe registry.map)
    {entries : List WireEntry} (hnodup : (entries.map WireEntry.key).Nodup)
    (hok : ∀ entry ∈ entries, ∃ restored, deserializeEntry registry entry = .ok restored)
    (values : ValueMap U) :
    ∃ result, deserializeEntries registry entries values = .ok result ∧
      (∀ key ∉ entries.map WireEntry.key, result.lookup key = values.lookup key) ∧
      ∀ entry ∈ entries, ∀ restored, deserializeEntry registry entry = .ok restored →
        result.lookup entry.key = (restored.map Prod.snd).or (values.lookup entry.key) := by
  induction entries generalizing values with
  | nil => exact ⟨values, rfl, fun _ _ => rfl, fun entry h => absurd h List.not_mem_nil⟩
  | cons entry entries ih =>
    rw [List.map_cons, List.nodup_cons] at hnodup
    obtain ⟨⟨restored, hentry⟩, hrest⟩ := List.forall_mem_cons.mp hok
    obtain ⟨values', hloop, hhere, hother⟩ : ∃ values',
        deserializeEntries registry (entry :: entries) values =
          deserializeEntries registry entries values' ∧
        values'.lookup entry.key = (restored.map Prod.snd).or (values.lookup entry.key) ∧
        ∀ key, key ≠ entry.key → values'.lookup key = values.lookup key := by
      cases restored with
      | none =>
        refine ⟨values, ?_, rfl, fun _ _ => rfl⟩
        rw [deserializeEntries, hentry]
      | some kv =>
        obtain ⟨key, val⟩ := kv
        obtain ⟨rfl, -⟩ := deserializeEntry_key hsafe hentry
        refine ⟨values.insert entry.key val, ?_, ?_, ?_⟩
        · rw [deserializeEntries, hentry]
        · rw [Finmap.lookup_insert]
          rfl
        · intro key hne
          rw [Finmap.lookup_insert_of_ne _ hne]
    obtain ⟨result, hresult, hkeep, hgive⟩ := ih hnodup.2 hrest values'
    refine ⟨result, hloop.trans hresult, ?_, ?_⟩
    · intro key hkey
      rw [List.map_cons, List.mem_cons, not_or] at hkey
      rw [hkeep key hkey.2, hother key hkey.1]
    · rw [List.forall_mem_cons]
      refine ⟨?_, ?_⟩
      · intro restored' hentry'
        obtain rfl := Except.ok.inj (hentry.symm.trans hentry')
        rw [hkeep entry.key hnodup.1, hhere]
      · intro entry' hmem restored' hentry'
        have hne : entry'.key ≠ entry.key := by
          intro heq
          exact hnodup.1 (heq ▸ List.mem_map_of_mem hmem)
        rw [hgive entry' hmem restored' hentry', hother _ hne]

/-- **What the receiver makes of the bytes**: it succeeds when every value comes across, and holds
what each of them has become. The order of the entries plays no part. -/
theorem deserialize_serialize_iff {g₁ g₂ : Globals U} (hsafe : LocalSafe g₂.registry.map)
    {iter : IterationOrder U} {snap : ContextSnapshot U} {bytes : ByteVec}
    (h : snap.serialize g₁ iter = .ok bytes.1) (result : ContextSnapshot U) :
    ContextSnapshot.deserialize g₂ bytes.1 = .ok result ↔
      result.scopeChain = snap.scopeChain ∧
        Crosses g₁.registry g₂.registry snap.values result.values := by
  obtain ⟨entries, hentries, hbytes, -⟩ := serializeFrom_eq_ok_iff.mp h
  have hof := entriesOf_serializeEntries (iter.enumerates snap.values) hentries
  have hread : deserializeWire U bytes.1 = .ok (entries, snap.scopeChain) := by
    rw [hbytes]
    exact deserializeWire_write (hbytes ▸ bytes.2) (.inr rfl)
  -- entry by entry, decoding is the way of its value across
  have hcross : ∀ entry ∈ entries, ∃ val, snap.values.lookup entry.key = some val ∧
      transcode g₁.registry g₂.registry entry.key val =
        (deserializeEntry g₂.registry entry).map (·.map Prod.snd) := by
    intro entry hmem
    obtain ⟨hversion, val, hval, hvalue⟩ := hof.entry entry hmem
    refine ⟨val, hval, ?_⟩
    rw [transcode, hvalue, ← hversion]
  have hvalues : ∀ values, deserializeEntries g₂.registry entries ∅ = .ok values →
      Crosses g₁.registry g₂.registry snap.values values := by
    intro values hloop key
    have hok := deserializeEntries_ok hloop
    obtain ⟨values', hloop', hkeep, hgive⟩ := deserializeEntries_of_nodup hsafe hof.nodup hok ∅
    obtain rfl := Except.ok.inj (hloop.symm.trans hloop')
    cases hval : snap.values.lookup key with
    | none =>
      have hkey : key ∉ entries.map WireEntry.key := by
        rw [hof.keys]
        exact Finmap.lookup_eq_none.mp hval
      exact (hkeep key hkey).trans (Finmap.lookup_empty key)
    | some val =>
      obtain ⟨entry, hmem, rfl⟩ :=
        List.mem_map.mp ((hof.keys key).mpr (Finmap.mem_iff.mpr ⟨val, hval⟩))
      obtain ⟨restored, hrestored⟩ := hok entry hmem
      obtain ⟨val', hval', htrans⟩ := hcross entry hmem
      obtain rfl : val' = val := Option.some.inj (hval'.symm.trans hval)
      dsimp only
      rw [htrans, hrestored, hgive entry hmem restored hrestored, Finmap.lookup_empty,
        Option.or_none]
      rfl
  unfold ContextSnapshot.deserialize deserializeToSnapshot
  rw [hread]
  dsimp only
  constructor
  · intro hresult
    cases hloop : deserializeEntries g₂.registry entries ∅ with
    | error e => simp [hloop] at hresult
    | ok values =>
      simp only [hloop, Except.ok.injEq] at hresult
      subst hresult
      exact ⟨rfl, hvalues values hloop⟩
  · rintro ⟨hchain, hresult⟩
    have hok : ∀ entry ∈ entries, ∃ restored,
        deserializeEntry g₂.registry entry = .ok restored := by
      intro entry hmem
      obtain ⟨val, hval, htrans⟩ := hcross entry hmem
      have hkey := hresult.of_lookup hval
      rw [htrans] at hkey
      cases hentry : deserializeEntry g₂.registry entry with
      | error e => simp [hentry, Except.map] at hkey
      | ok restored => exact ⟨restored, rfl⟩
    obtain ⟨values, hloop, -, -⟩ := deserializeEntries_of_nodup hsafe hof.nodup hok ∅
    rw [hloop, (hvalues values hloop).unique hresult, ← hchain]

/-! ## The ways across -/

/-- What is captured under a key, when the key is not local-only, is what the store shows. -/
theorem lookup_capture_eq_some_iff {g : Globals U} {s : ContextStore U} {key : Key}
    {val : ContextValue U} :
    (Thread.capture g (some s)).values.lookup key = some val ↔
      g.registry.isLocalKey key = false ∧ s.getValue key = some val := by
  show (captureWithRegistry g.maxScopeChainLen s g.registry).values.lookup key = some val ↔ _
  rw [lookup_captureWithRegistry]
  cases g.registry.isLocalKey key <;> simp

/-- The receiver has no use for the bytes of a key: it has the key registered, but no decoder for
the version the sender writes, or one that fails on them. -/
def Undecodable (sender receiver : Registry U) (key : Key) (val : ContextValue U) : Prop :=
  ∃ reg, receiver.map.lookup key = some reg ∧ reg.localOnly = false ∧
    ∀ deserFn, reg.deserializers.lookup (wireKeyVersion sender key) = some deserFn →
      ∃ bytes e, valueEncoder sender key val = .ok bytes ∧ deserFn bytes = .error e

section Ways

variable {sender : Registry U} {calls : List (BuilderCall U)} {key : Key} {val : ContextValue U}
  {bytes : Bytes}

/-- The receiver drops what it does not know or keeps to itself. -/
theorem transcode_absent (hbytes : valueEncoder sender key val = .ok bytes)
    (habsent : (buildMap calls).lookup key = none ∨
      (⟨buildMap calls⟩ : Registry U).isLocalKey key = true) :
    transcode sender ⟨buildMap calls⟩ key val = .ok none := by
  rw [transcode, hbytes]
  unfold deserializeEntry Registry.withRegistration
  cases hreg : (buildMap calls).lookup key with
  | none => simp [hreg, Except.map]
  | some reg =>
    have hlocalKey : (⟨buildMap calls⟩ : Registry U).isLocalKey key = reg.localOnly :=
      isLocalKey_of_registered hreg
    rw [hreg, hlocalKey] at habsent
    have hlocal : reg.localOnly = true := by simpa using habsent
    have hempty := (built_localSafe ⟨calls, rfl⟩ key reg hreg).2 hlocal
    simp [hreg, hempty, Except.map]

/-- A decoder for the sender's version decides what becomes of the value. -/
theorem transcode_of_decoder (hbytes : valueEncoder sender key val = .ok bytes)
    {reg : Registration U} (hreg : (buildMap calls).lookup key = some reg)
    {deserFn : DeserializeFn U}
    (hdeser : reg.deserializers.lookup (wireKeyVersion sender key) = some deserFn) :
    transcode sender ⟨buildMap calls⟩ key val = (deserFn bytes).map some := by
  have hne : reg.deserializers.keys ≠ ∅ :=
    Finset.ne_empty_of_mem (Finmap.mem_keys.mpr (Finmap.mem_iff.mpr ⟨deserFn, hdeser⟩))
  rw [transcode, hbytes]
  unfold deserializeEntry Registry.withRegistration
  simp only [hreg, Option.map_some, if_neg hne, hdeser]
  cases deserFn bytes <;> rfl

/-- A value does not come across exactly when the receiver has no use for its bytes. -/
theorem transcode_error_iff (hbytes : valueEncoder sender key val = .ok bytes) :
    (∃ e, transcode sender ⟨buildMap calls⟩ key val = .error e) ↔
      Undecodable sender ⟨buildMap calls⟩ key val := by
  cases hreg : (buildMap calls).lookup key with
  | none =>
    rw [transcode_absent hbytes (.inl hreg)]
    simp [Undecodable, hreg]
  | some reg =>
    cases hlocal : reg.localOnly with
    | true =>
      have hkey : (⟨buildMap calls⟩ : Registry U).isLocalKey key = true :=
        (isLocalKey_of_registered hreg).trans hlocal
      rw [transcode_absent hbytes (.inr hkey)]
      simp [Undecodable, hreg, hlocal]
    | false =>
      cases hdeser : reg.deserializers.lookup (wireKeyVersion sender key) with
      | some deserFn =>
        rw [transcode_of_decoder hbytes hreg hdeser]
        cases hval : deserFn bytes <;>
          simp [Undecodable, hreg, hlocal, hdeser, hbytes, hval, Except.map]
      | none =>
        obtain ⟨opts, -, -, hnative⟩ := (buildMap_native calls key reg hreg).native
        have hne : reg.deserializers.keys ≠ ∅ :=
          Finset.ne_empty_of_mem (Finmap.mem_keys.mpr (Finmap.mem_iff.mpr ⟨_, hnative hlocal⟩))
        rw [transcode, hbytes]
        unfold deserializeEntry Registry.withRegistration
        simp [Undecodable, hreg, hlocal, hdeser, hne, Except.map]

/-- **Same version, type and codec**: the value comes across unchanged. -/
theorem transcode_same (hU : U.RoundTrips) (hcalls : ∀ call ∈ calls, call.RoundTrips)
    {bytes : ByteVec} (hbytes : valueEncoder sender key val = .ok bytes.1)
    {reg : Registration U} (hreg : (buildMap calls).lookup key = some reg)
    (hlocal : reg.localOnly = false) (hversion : reg.keyVersion = wireKeyVersion sender key)
    (htype : val.typeId = reg.typeId) (hencoder : valueEncoder sender key = reg.encoder) :
    transcode sender ⟨buildMap calls⟩ key val = .ok (some val) := by
  obtain ⟨deserFn, hdeser, hval⟩ :=
    Registration.decode_encoder hU hcalls hreg hlocal htype (hencoder ▸ hbytes)
  rw [transcode_of_decoder hbytes hreg (hversion ▸ hdeser), hval]
  rfl

/-- **A migration from the sender's version and type**: the value comes across migrated. -/
theorem transcode_migration (hU : U.RoundTrips) {bytes : ByteVec} {tOld tCurrent : U.TypeId}
    {x : U.El tOld} {migrate : U.El tOld → U.El tCurrent}
    (hbytes : valueEncoder sender key ⟨tOld, x⟩ = .ok bytes.1)
    (hdefault : valueEncoder sender key = ContextValue.serializeValue)
    {reg : Registration U} (hreg : (buildMap calls).lookup key = some reg)
    (hdeser : reg.deserializers.lookup (wireKeyVersion sender key) =
      some (migrationDeserializer tOld tCurrent migrate)) :
    transcode sender ⟨buildMap calls⟩ key ⟨tOld, x⟩ = .ok (some ⟨tCurrent, migrate x⟩) := by
  have hx : U.serialize tOld x = .ok bytes.1 := by
    rw [hdefault] at hbytes
    exact ContextValue.serializeValue_eq_ok_iff.mp hbytes
  rw [transcode_of_decoder hbytes hreg hdeser, migrationDeserializer, hU tOld x bytes hx]
  rfl

/-- A captured value comes across as itself, as nothing when the key is not registered, or, if it
is of another type, through the bincode of the registered one. -/
theorem transcode_captured (hU : U.RoundTrips) (hcalls : ∀ call ∈ calls, call.RoundTrips)
    {bytes : ByteVec}
    (hlocal : (⟨buildMap calls⟩ : Registry U).isLocalKey key = false)
    (hbytes : valueEncoder ⟨buildMap calls⟩ key val = .ok bytes.1) :
    (buildMap calls).lookup key = none ∧
        transcode ⟨buildMap calls⟩ ⟨buildMap calls⟩ key val = .ok none ∨
      ∃ reg, (buildMap calls).lookup key = some reg ∧ reg.localOnly = false ∧
        (val.typeId = reg.typeId ∧
            transcode ⟨buildMap calls⟩ ⟨buildMap calls⟩ key val = .ok (some val) ∨
          val.typeId ≠ reg.typeId) := by
  cases hreg : (buildMap calls).lookup key with
  | none => exact .inl ⟨rfl, transcode_absent hbytes (.inl hreg)⟩
  | some reg =>
    have hlocalKey : (⟨buildMap calls⟩ : Registry U).isLocalKey key = reg.localOnly :=
      isLocalKey_of_registered hreg
    have hversion : wireKeyVersion (⟨buildMap calls⟩ : Registry U) key = reg.keyVersion :=
      wireKeyVersion_of_registered hreg
    have henc : valueEncoder (⟨buildMap calls⟩ : Registry U) key = reg.encoder :=
      valueEncoder_of_registered hreg
    rw [hlocalKey] at hlocal
    refine .inr ⟨reg, rfl, hlocal, ?_⟩
    by_cases htype : val.typeId = reg.typeId
    · exact .inl ⟨htype, transcode_same hU hcalls hbytes hreg hlocal hversion.symm htype henc⟩
    · exact .inr htype

end Ways

end DContext
