import DContext.Store.Value
import Mathlib.Data.Finset.Sort

/-!
# The registry

A registration records, for one key, the registered type, the version written to the wire, a
decoder for each readable version, and the options chosen. A builder collects registrations and
migrations by calls that may be refused; the frozen registry is its final map.

## Main definitions

* `Registration U`, `RegistryMap U`: what is recorded for a key, and the registry's map
* `RegistrationOptions U t`, `OptionCall U t`: the per-key options and the calls that set them
* `doRegisterWith`, `doRegisterMigration`: the builder's two operations
* `Registry U`: the read-only view
* `BuilderCall U`, `Built reg`: a call on the builder, and the maps that calls can build

## Main results

* `doRegisterWith_cases`, `doRegisterMigration_cases`: everything a call can do
* `BuilderCall.lookup_exec_cases`: where a registration comes from
* `buildMap_invariant`: what fresh registrations have and further decoders keep, every registration
  of a built map has
-/

namespace DContext

open ByteFormat Overlay

variable {U : TypeUniverse}

/-- A versioned deserializer. -/
abbrev DeserializeFn (U : TypeUniverse) := Bytes → Except ContextError (ContextValue U)

/-- A custom serializer. -/
abbrev SerializeFn (U : TypeUniverse) := ContextValue U → Except ContextError Bytes

/-- What is stored for a registered key. -/
structure Registration (U : TypeUniverse) where
  key : Key
  typeId : U.TypeId
  /-- The current version, used for serialization. -/
  keyVersion : UInt32
  deserializers : Map UInt32 (DeserializeFn U)
  typeName : String
  /-- The key is excluded from serialization. -/
  localOnly : Bool
  /-- `none` stands for the value's own bincode. -/
  serializeFn : Option (SerializeFn U)
  /-- The effective value is copied into each new scope. -/
  cached : Bool
  metadata : Finmap U.El

abbrev RegistryMap (U : TypeUniverse) := Map Key (Registration U)

/-! ## Registration options -/

/-- The options of one registration, for a key of type `t`. -/
structure RegistrationOptions (U : TypeUniverse) (t : U.TypeId) where
  version : UInt32
  localOnly : Bool
  cached : Bool
  encode : Option (U.El t → Except String Bytes)
  decode : Option (Bytes → Except String (U.El t))
  metadata : Finmap U.El

/-- A call on the options, one for each of their public methods. -/
inductive OptionCall (U : TypeUniverse) (t : U.TypeId)
  | version (v : UInt32)
  | localOnly
  | cached
  | codec (encode : U.El t → Except String Bytes) (decode : Bytes → Except String (U.El t))
  | withMetadata (m : U.TypeId) (value : U.El m)

namespace RegistrationOptions

variable {t : U.TypeId}

/-- `RegistrationOptions::new`. -/
def new : RegistrationOptions U t where
  version := 1
  localOnly := false
  cached := false
  encode := none
  decode := none
  metadata := ∅

def apply (opts : RegistrationOptions U t) : OptionCall U t → RegistrationOptions U t
  | .version v => { opts with version := v }
  | .localOnly => { opts with localOnly := true }
  | .cached => { opts with cached := true }
  | .codec encode decode => { opts with encode := some encode, decode := some decode }
  | .withMetadata m value => { opts with metadata := opts.metadata.insert m value }

/-- The options a `configure` callback returns: its method calls, in order. -/
def configure (calls : List (OptionCall U t)) : RegistrationOptions U t :=
  calls.foldl apply new

/-- `codec` sets both halves together. -/
theorem configure_codec (calls : List (OptionCall U t)) :
    (configure calls).encode.isSome = (configure calls).decode.isSome := by
  suffices h : ∀ opts : RegistrationOptions U t, opts.encode.isSome = opts.decode.isSome →
      (calls.foldl apply opts).encode.isSome = (calls.foldl apply opts).decode.isSome from
    h new rfl
  induction calls with
  | nil => exact fun opts h => h
  | cons call calls ih =>
    intro opts h
    refine ih _ ?_
    cases call <;> first | exact h | rfl

end RegistrationOptions

/-! ## The builder's operations -/

/-- The decoder installed for the registered version. -/
def nativeDeserializer (t : U.TypeId) (decode : Option (Bytes → Except String (U.El t))) :
    DeserializeFn U := fun bytes =>
  match decode with
  | some decode => ((decode bytes).map fun v => ⟨t, v⟩).mapError .deserializationFailed
  | none => ((U.deserialize t bytes).map fun v => ⟨t, v⟩).mapError .deserializationFailed

/-- The custom serializer made from a typed encoder. -/
def customSerializer (t : U.TypeId) (encode : U.El t → Except String Bytes) : SerializeFn U :=
  fun val =>
    match val.downcast t with
    | none => .error (.serializationFailed "type mismatch during custom serialization")
    | some typed => (encode typed).mapError .serializationFailed

/-- The registration that `do_register_with` inserts. -/
def newRegistration (t : U.TypeId) (key : Key) (opts : RegistrationOptions U t) :
    Registration U where
  key := key
  typeId := t
  keyVersion := opts.version
  deserializers :=
    if opts.localOnly then ∅
    else Finmap.insert opts.version (nativeDeserializer t opts.decode) ∅
  typeName := U.typeName t
  localOnly := opts.localOnly
  serializeFn := opts.encode.map (customSerializer t)
  cached := opts.cached
  metadata := opts.metadata

/-- `do_register_with::<T>`: the map after the call, and the call's result. -/
def doRegisterWith (t : U.TypeId) (key : Key) (calls : List (OptionCall U t))
    (registry : RegistryMap U) : RegistryMap U × Except ContextError Unit :=
  let opts := RegistrationOptions.configure calls
  if opts.localOnly ∧ (opts.encode.isSome ∨ opts.decode.isSome) then
    (registry, .error (.serializationFailed
      ("local_only and codec are mutually exclusive: " ++
        "local-only entries are excluded from serialization")))
  else if opts.localOnly ∧ opts.version ≠ 1 then
    (registry, .error (.serializationFailed
      ("local_only and version are mutually exclusive: " ++
        "local-only entries have no wire format")))
  else
    match registry.lookup key with
    | some existing =>
      -- idempotent: the first registration stays, whatever its options
      if existing.typeId = t then (registry, .ok ())
      else (registry, .error (.alreadyRegistered key))
    | none => (registry.insert key (newRegistration t key opts), .ok ())

/-- The decoder a migration installs: read the old type, then migrate. -/
def migrationDeserializer (tOld tCurrent : U.TypeId) (migrate : U.El tOld → U.El tCurrent) :
    DeserializeFn U := fun bytes =>
  match U.deserialize tOld bytes with
  | .error e => .error (.deserializationFailed e)
  | .ok old => .ok ⟨tCurrent, migrate old⟩

/-- `do_register_migration::<TOld, TCurrent>`: the map after the call, and the call's result. -/
def doRegisterMigration (tOld tCurrent : U.TypeId) (key : Key) (oldVersion : UInt32)
    (migrate : U.El tOld → U.El tCurrent) (registry : RegistryMap U) :
    RegistryMap U × Except ContextError Unit :=
  match registry.lookup key with
  | none => (registry, .error (.notRegistered key))
  | some reg =>
    if reg.typeId ≠ tCurrent then
      (registry, .error (.typeMismatch key reg.typeName (U.typeName tCurrent)))
    else if reg.localOnly then
      (registry, .error (.serializationFailed
        ("cannot register migration for local-only key '" ++ key ++ "'")))
    else if oldVersion = reg.keyVersion then
      (registry, .error (.deserializationFailed
        ("cannot register migration for key '" ++ key ++ "' at current version " ++
          toString oldVersion ++ " (would overwrite the native deserializer)")))
    else
      -- an earlier migration for the same version is overwritten
      (registry.insert key { reg with
          deserializers :=
            reg.deserializers.insert oldVersion (migrationDeserializer tOld tCurrent migrate) },
        .ok ())

/-- Everything `doRegisterWith` can do: leave the map as it is, or insert a fresh registration; a
local-only one has no codec and no version of its own. -/
theorem doRegisterWith_cases (t : U.TypeId) (key : Key) (calls : List (OptionCall U t))
    (registry : RegistryMap U) :
    (doRegisterWith t key calls registry).1 = registry ∨
      registry.lookup key = none ∧
      ((RegistrationOptions.configure calls).localOnly = true →
        (RegistrationOptions.configure calls).encode = none ∧
          (RegistrationOptions.configure calls).version = 1) ∧
      doRegisterWith t key calls registry =
        (registry.insert key (newRegistration t key (.configure calls)), .ok ()) := by
  unfold doRegisterWith
  dsimp only
  split_ifs with hcodec hversion
  · exact .inl rfl
  · exact .inl rfl
  · cases hl : registry.lookup key with
    | some existing =>
      refine .inl ?_
      dsimp only
      split_ifs <;> rfl
    | none =>
      refine .inr ⟨rfl, fun hlocal => ⟨?_, ?_⟩, rfl⟩
      · by_contra henc
        exact hcodec ⟨hlocal, .inl (Option.isSome_iff_ne_none.mpr henc)⟩
      · by_contra hver
        exact hversion ⟨hlocal, hver⟩

/-- Everything `doRegisterMigration` can do: leave the map as it is, or add a decoder for another
version to the registration of a key that is not local-only. -/
theorem doRegisterMigration_cases (tOld tCurrent : U.TypeId) (key : Key) (oldVersion : UInt32)
    (migrate : U.El tOld → U.El tCurrent) (registry : RegistryMap U) :
    (doRegisterMigration tOld tCurrent key oldVersion migrate registry).1 = registry ∨
      ∃ reg, registry.lookup key = some reg ∧ reg.typeId = tCurrent ∧ reg.localOnly = false ∧
        oldVersion ≠ reg.keyVersion ∧
        doRegisterMigration tOld tCurrent key oldVersion migrate registry =
          (registry.insert key { reg with
              deserializers := reg.deserializers.insert oldVersion
                (migrationDeserializer tOld tCurrent migrate) },
            .ok ()) := by
  unfold doRegisterMigration
  cases hl : registry.lookup key with
  | none => exact .inl rfl
  | some reg =>
    dsimp only
    split_ifs with htype hlocal hversion
    · exact .inl rfl
    · exact .inl rfl
    · exact .inl rfl
    · refine .inr ⟨reg, rfl, ?_, ?_, hversion, rfl⟩
      · exact Decidable.not_not.mp htype
      · exact Bool.eq_false_iff.mpr hlocal

/-! ## Built registries -/

/-- A call on a `RegistryBuilder`. -/
inductive BuilderCall (U : TypeUniverse)
  | register (t : U.TypeId) (key : Key) (calls : List (OptionCall U t))
  | migration (tOld tCurrent : U.TypeId) (key : Key) (oldVersion : UInt32)
      (migrate : U.El tOld → U.El tCurrent)

/-- `try_register_with` and `try_register_migration`; `try_register` makes no option call. -/
def BuilderCall.exec : BuilderCall U → RegistryMap U → RegistryMap U × Except ContextError Unit
  | .register t key calls => doRegisterWith t key calls
  | .migration tOld tCurrent key oldVersion migrate =>
      doRegisterMigration tOld tCurrent key oldVersion migrate

/-- The builder's map after some calls, starting empty. -/
def buildMap (calls : List (BuilderCall U)) : RegistryMap U :=
  calls.foldl (fun m call => (call.exec m).1) ∅

/-- The maps a builder can hold when the registry is frozen. -/
def Built (m : RegistryMap U) : Prop := ∃ calls, m = buildMap calls

theorem buildMap_concat (calls : List (BuilderCall U)) (call : BuilderCall U) :
    buildMap (calls ++ [call]) = (call.exec (buildMap calls)).1 := by
  rw [buildMap, List.foldl_append]
  rfl

/-- Everything a call can do: leave the map as it is, insert a fresh registration for a new key, or
add a decoder for another version to a registration that is not local-only. -/
theorem BuilderCall.exec_cases (call : BuilderCall U) (m : RegistryMap U) :
    (call.exec m).1 = m ∨
      (∃ (t : U.TypeId) (key : Key) (opts : List (OptionCall U t)), call = .register t key opts ∧
        m.lookup key = none ∧
        call.exec m = (m.insert key (newRegistration t key (.configure opts)), .ok ())) ∨
      ∃ (tOld tCurrent : U.TypeId) (key : Key) (oldVersion : UInt32)
        (migrate : U.El tOld → U.El tCurrent) (reg : Registration U),
        call = .migration tOld tCurrent key oldVersion migrate ∧ m.lookup key = some reg ∧
        reg.typeId = tCurrent ∧ reg.localOnly = false ∧ oldVersion ≠ reg.keyVersion ∧
        call.exec m =
          (m.insert key { reg with
              deserializers := reg.deserializers.insert oldVersion
                (migrationDeserializer tOld tCurrent migrate) },
            .ok ()) := by
  cases call with
  | register t key opts =>
    rcases doRegisterWith_cases t key opts m with h | ⟨hnone, -, h⟩
    · exact .inl h
    · exact .inr (.inl ⟨t, key, opts, rfl, hnone, h⟩)
  | migration tOld tCurrent key oldVersion migrate =>
    rcases doRegisterMigration_cases tOld tCurrent key oldVersion migrate m with h | ⟨reg, h⟩
    · exact .inl h
    · exact .inr (.inr ⟨tOld, tCurrent, key, oldVersion, migrate, reg, rfl, h⟩)

/-- Where a registration comes from: it was there before the call, or the call has inserted it, or
the call has given it one more decoder. -/
theorem BuilderCall.lookup_exec_cases {call : BuilderCall U} {m : RegistryMap U} {key : Key}
    {reg : Registration U} (h : (call.exec m).1.lookup key = some reg) :
    m.lookup key = some reg ∨
      (∃ (t : U.TypeId) (opts : List (OptionCall U t)), call = .register t key opts ∧
        (call.exec m).2 = .ok () ∧ m.lookup key = none ∧
        reg = newRegistration t key (.configure opts)) ∨
      ∃ (tOld tCurrent : U.TypeId) (oldVersion : UInt32) (migrate : U.El tOld → U.El tCurrent)
        (old : Registration U), call = .migration tOld tCurrent key oldVersion migrate ∧
        (call.exec m).2 = .ok () ∧ m.lookup key = some old ∧ old.typeId = tCurrent ∧
        old.localOnly = false ∧ oldVersion ≠ old.keyVersion ∧
        reg = { old with
          deserializers := old.deserializers.insert oldVersion
            (migrationDeserializer tOld tCurrent migrate) } := by
  rcases call.exec_cases m with hsame | ⟨t, key', opts, hcall, hnone, hexec⟩ |
    ⟨tOld, tCurrent, key', oldVersion, migrate, old, hcall, hold, htype, hlocal, hversion, hexec⟩
  · rw [hsame] at h
    exact .inl h
  · have hok := congrArg Prod.snd hexec
    rw [hexec, Map.lookup_insert_eq] at h
    split_ifs at h with hkey
    · subst hkey
      exact .inr (.inl ⟨t, opts, hcall, hok, hnone, (Option.some.inj h).symm⟩)
    · exact .inl h
  · have hok := congrArg Prod.snd hexec
    rw [hexec] at h
    dsimp only at h
    rw [Map.lookup_insert_eq] at h
    split_ifs at h with hkey
    · subst hkey
      exact .inr (.inr ⟨tOld, tCurrent, oldVersion, migrate, old, hcall, hok, hold, htype, hlocal,
        hversion, (Option.some.inj h).symm⟩)
    · exact .inl h

/-- **The invariant rule for building**: what fresh registrations have, and what a further decoder
does not take from them, every registration of the built map has. -/
theorem buildMap_invariant {P : Key → Registration U → Prop} (calls : List (BuilderCall U))
    (hregister : ∀ (t : U.TypeId) key opts, .register t key opts ∈ calls →
      P key (newRegistration t key (.configure opts)))
    (hmigration : ∀ tOld tCurrent key oldVersion (migrate : U.El tOld → U.El tCurrent) reg,
      P key reg → reg.typeId = tCurrent → reg.localOnly = false → oldVersion ≠ reg.keyVersion →
      P key { reg with
        deserializers := reg.deserializers.insert oldVersion
          (migrationDeserializer tOld tCurrent migrate) }) :
    ∀ key reg, (buildMap calls).lookup key = some reg → P key reg := by
  -- From the last call backwards: it meets the map the earlier calls have built.
  induction calls using List.reverseRecOn with
  | nil =>
    intro key reg hreg
    cases hreg
  | append_singleton calls call ih =>
    have ih := ih fun t key opts hmem => hregister t key opts (List.mem_append_left _ hmem)
    intro key reg hreg
    rw [buildMap_concat] at hreg
    rcases BuilderCall.lookup_exec_cases hreg with hbefore | ⟨t, opts, rfl, -, -, rfl⟩ |
      ⟨tOld, tCurrent, oldVersion, migrate, old, -, -, hold, htype, hlocal, hversion, rfl⟩
    · exact ih key reg hbefore
    · exact hregister t key opts (List.mem_append_right _ List.mem_cons_self)
    · exact hmigration _ _ _ _ _ _ (ih key old hold) htype hlocal hversion

/-! ## The read-only view -/

/-- `Registry<'_>`: a read-only view of a map. -/
structure Registry (U : TypeUniverse) where
  map : RegistryMap U

/-- What `serialize_from` needs to know of a key. -/
structure SerializationInfo (U : TypeUniverse) where
  keyVersion : UInt32
  serializeFn : Option (SerializeFn U)

namespace Registry

/-- `Registry::empty`. -/
def empty : Registry U := ⟨∅⟩

def withRegistration {R : Type} (registry : Registry U) (key : Key) (f : Registration U → R) :
    Option R :=
  (registry.map.lookup key).map f

def getSerializationInfo (registry : Registry U) (key : Key) : Option (SerializationInfo U) :=
  (registry.map.lookup key).map fun r => ⟨r.keyVersion, r.serializeFn⟩

def cachedKeys (registry : Registry U) : Finset Key :=
  registry.map.keys.filter fun k => (registry.map.lookup k).any (·.cached)

def isLocalKey (registry : Registry U) (key : Key) : Bool :=
  (registry.map.lookup key).any (·.localOnly)

def isValidValue (registry : Registry U) (key : Key) (value : ContextValue U) : Bool :=
  (registry.map.lookup key).any fun r => decide (r.typeId = value.typeId)

end Registry

end DContext
