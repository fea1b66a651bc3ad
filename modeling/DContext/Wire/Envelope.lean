import DContext.Store.Snapshot

/-!
# The wire envelope

A snapshot travels as the wire version, one entry for each value, and the scope chain, in bincode's
fixed-width encoding. An entry carries its key, the version of the key and the bytes its encoder
made; reading picks the decoder by key and version.

## Main definitions

* `WireEntry`, `WireContext`: the records of the envelope
* `serializeFrom`, `deserializeWire`, `deserializeToSnapshot`: writing and reading
* `encodeV1`: the first version of the envelope, without a scope chain

## Main results

* `wireContextFormat_compact`: every envelope of bounded size can be read back
* `deserializeWire_encodeV1`: bytes of the first version are refused
-/

namespace DContext

open ByteFormat Overlay

variable {U : TypeUniverse}

/-- `WIRE_VERSION`. -/
def wireVersion : UInt32 := 2

/-- One value on the wire. -/
structure WireEntry where
  key : String
  keyVersion : UInt32
  value : Bytes
  deriving DecidableEq, Repr

/-- The envelope. -/
structure WireContext where
  version : UInt32
  entries : List WireEntry
  scopeChain : List String
  deriving DecidableEq, Repr

/-! ## The derived encodings -/

/-- What bincode derives for `WireEntry`: its fields in order. -/
def wireEntryFormat : Format WireEntry :=
  (text.pair (u32.pair u8.list)).convert (fun p => .ok ⟨p.1, p.2.1, p.2.2⟩)
    (fun e => (e.key, e.keyVersion, e.value)) (fun _ => rfl)
    (fun a b _ h => by
      obtain rfl := Except.ok.inj h
      rfl)

/-- What bincode derives for `WireContext`: its fields in order, all of them read. -/
def wireContextFormat : Format WireContext :=
  (u32.pair (wireEntryFormat.list.pair text.list)).convert (fun p => .ok ⟨p.1, p.2.1, p.2.2⟩)
    (fun w => (w.version, w.entries, w.scopeChain)) (fun _ => rfl)
    (fun a b _ h => by
      obtain rfl := Except.ok.inj h
      rfl)

theorem wireEntryFormat_compact : wireEntryFormat.Compact :=
  (text_compact.pair (u32_compact.pair u8_compact.list)).convert

/-- **Every envelope of bounded size** can be read back. -/
theorem wireContextFormat_compact : wireContextFormat.Compact :=
  (u32_compact.pair (wireEntryFormat_compact.list.pair text_compact.list)).convert

/-! ## Writing -/

/-- `check_size` under the configured limit. -/
def checkSize (limit size : Nat) : Except ContextError Unit :=
  if limit > 0 ∧ size > limit then .error (.contextTooLarge size limit) else .ok ()

/-- The encoder of a key: the registered custom one, or else bincode. -/
def valueEncoder (registry : Registry U) (key : Key) : SerializeFn U :=
  match (registry.getSerializationInfo key).bind (·.serializeFn) with
  | some customSer => customSer
  | none => ContextValue.serializeValue

/-- The version written for a key: the registered current one, or 1. -/
def wireKeyVersion (registry : Registry U) (key : Key) : UInt32 :=
  (registry.getSerializationInfo key).elim 1 (·.keyVersion)

/-- One iteration of the loop of `serialize_from`. -/
def serializeEntry (registry : Registry U) (key : Key) (val : ContextValue U) :
    Except ContextError WireEntry :=
  match valueEncoder registry key val with
  | .error e => .error (.serializationFailed ("key '" ++ key ++ "': " ++ e.display))
  | .ok valueBytes => .ok ⟨key, wireKeyVersion registry key, valueBytes⟩

/-- The loop of `serialize_from`, over the values in their order of iteration. -/
def serializeEntries (registry : Registry U) :
    List (Σ _ : Key, ContextValue U) → Except ContextError (List WireEntry)
  | [] => .ok []
  | e :: rest =>
    match serializeEntry registry e.1 e.2 with
    | .error err => .error err
    | .ok entry =>
      match serializeEntries registry rest with
      | .error err => .error err
      | .ok entries => .ok (entry :: entries)

/-- `serialize_from`, with the values in their order of iteration and the configured limit. -/
def serializeFrom (limit : Nat) (registry : Registry U)
    (values : List (Σ _ : Key, ContextValue U)) (scopeChain : List String) :
    Except ContextError Bytes :=
  match serializeEntries registry values with
  | .error e => .error e
  | .ok entries =>
    let bytes := wireContextFormat.write ⟨wireVersion, entries, scopeChain⟩
    match checkSize limit bytes.length with
    | .error e => .error e
    | .ok () => .ok bytes

/-! ## Reading -/

/-- `deserialize_wire`; bytes after the envelope are ignored. -/
def deserializeWire (U : TypeUniverse) (bytes : Bytes) :
    Except ContextError (List WireEntry × List String) :=
  match wireContextFormat.read bytes with
  | .error e => .error (.deserializationFailed (U.readErrorText e))
  | .ok (wire, _) =>
    if wire.version = 1 ∨ wire.version = 2 then .ok (wire.entries, wire.scopeChain)
    else .error (.deserializationFailed
      ("unsupported wire version: " ++ toString wire.version ++
        " (this library supports versions 1 and 2)"))

/-- The versions a registration can read, as an error lists them. -/
def Registration.versions (reg : Registration U) : List UInt32 :=
  U.versionOrder reg.key reg.deserializers.keys

/-- `deserialize_entry`: nothing for an unknown key, or for one without decoders. -/
def deserializeEntry (registry : Registry U) (entry : WireEntry) :
    Except ContextError (Option (Key × ContextValue U)) :=
  let restored := registry.withRegistration entry.key fun reg =>
    -- a local-only key: the entry is skipped, not refused
    if reg.deserializers.keys = ∅ then none
    else
      match reg.deserializers.lookup entry.keyVersion with
      | some deserFn => some (reg.key, deserFn entry.value)
      | none => some (reg.key, .error (.deserializationFailed
          ("no deserializer for key '" ++ entry.key ++ "' wire version " ++
            toString entry.keyVersion ++ " (registered versions: " ++ toString reg.versions ++
              ")")))
  match restored with
  | some (some (staticKey, .ok val)) => .ok (some (staticKey, val))
  | some (some (_, .error e)) => .error e
  | some none => .ok none
  | none => .ok none

/-- The loop of `deserialize_to_snapshot`. -/
def deserializeEntries (registry : Registry U) :
    List WireEntry → ValueMap U → Except ContextError (ValueMap U)
  | [], values => .ok values
  | entry :: rest, values =>
    match deserializeEntry registry entry with
    | .error e => .error e
    | .ok none => deserializeEntries registry rest values
    -- of two entries of one key the later one stays
    | .ok (some (staticKey, val)) => deserializeEntries registry rest (values.insert staticKey val)

/-- `deserialize_to_snapshot`. -/
def deserializeToSnapshot (registry : Registry U) (bytes : Bytes) :
    Except ContextError (ContextSnapshot U) :=
  match deserializeWire U bytes with
  | .error e => .error e
  | .ok (entries, scopeChain) =>
    match deserializeEntries registry entries ∅ with
    | .error e => .error e
    | .ok values => .ok ⟨values, scopeChain⟩

/-- An entry is decoded by the decoder that its key's registration has for its version. -/
theorem deserializeEntry_eq_some_iff {registry : Registry U} {entry : WireEntry} {key : Key}
    {val : ContextValue U} :
    deserializeEntry registry entry = .ok (some (key, val)) ↔
      ∃ reg deserFn, registry.map.lookup entry.key = some reg ∧
        reg.deserializers.lookup entry.keyVersion = some deserFn ∧ reg.key = key ∧
        deserFn entry.value = .ok val := by
  unfold deserializeEntry Registry.withRegistration
  cases hreg : registry.map.lookup entry.key with
  | none => simp
  | some reg =>
    dsimp only [Option.map_some]
    cases hdeser : reg.deserializers.lookup entry.keyVersion with
    | none =>
      by_cases hempty : reg.deserializers.keys = ∅ <;> simp [hempty, hdeser]
    | some deserFn =>
      have hne : ¬ reg.deserializers.keys = ∅ := by
        intro hempty
        have hmem : entry.keyVersion ∈ reg.deserializers.keys :=
          Finmap.mem_keys.mpr (Finmap.mem_iff.mpr ⟨deserFn, hdeser⟩)
        rw [hempty] at hmem
        exact Finset.notMem_empty _ hmem
      rw [if_neg hne]
      cases hval : deserFn entry.value with
      | error e => simp [hdeser, hval]
      | ok v => simp [hdeser, hval]

/-- **The invariant rule for reading**: what holds of no values, and of values with one more
decoded entry, holds of the values that are read. -/
theorem deserializeEntries_invariant {registry : Registry U} {P : ValueMap U → Prop}
    (hinsert : ∀ values entry key val, P values →
      deserializeEntry registry entry = .ok (some (key, val)) → P (values.insert key val))
    (entries : List WireEntry) :
    ∀ {values result : ValueMap U}, P values →
      deserializeEntries registry entries values = .ok result → P result := by
  induction entries with
  | nil =>
    intro values result hvalues h
    obtain rfl := Except.ok.inj h
    exact hvalues
  | cons entry entries ih =>
    intro values result hvalues h
    rw [deserializeEntries] at h
    cases hentry : deserializeEntry registry entry with
    | error e => simp [hentry] at h
    | ok restored =>
      cases restored with
      | none =>
        simp only [hentry] at h
        exact ih hvalues h
      | some kv =>
        simp only [hentry] at h
        exact ih (hinsert values entry kv.1 kv.2 hvalues hentry) h

theorem deserializeToSnapshot_invariant {registry : Registry U} {P : ValueMap U → Prop}
    (hempty : P ∅)
    (hinsert : ∀ values entry key val, P values →
      deserializeEntry registry entry = .ok (some (key, val)) → P (values.insert key val))
    {bytes : Bytes} {snap : ContextSnapshot U}
    (h : deserializeToSnapshot registry bytes = .ok snap) : P snap.values := by
  unfold deserializeToSnapshot at h
  cases hwire : deserializeWire U bytes with
  | error e => simp [hwire] at h
  | ok r =>
    simp only [hwire] at h
    cases hentries : deserializeEntries registry r.1 ∅ with
    | error e => simp [hentries] at h
    | ok values =>
      simp only [hentries, Except.ok.injEq] at h
      subst h
      exact deserializeEntries_invariant hinsert r.1 hempty hentries

/-- What was written in full is read back, whatever the version, if the version is known. -/
theorem deserializeWire_write {wire : WireContext}
    (hsize : (wireContextFormat.write wire).length < 2 ^ 64)
    (hversion : wire.version = 1 ∨ wire.version = 2) :
    deserializeWire U (wireContextFormat.write wire) = .ok (wire.entries, wire.scopeChain) := by
  have hread := wireContextFormat.read_write_nil (wireContextFormat_compact.fits wire hsize)
  rw [deserializeWire, hread]
  exact if_pos hversion

/-- Whatever is accepted starts with an envelope that holds what was read. -/
theorem deserializeWire_eq_ok {bytes : Bytes} {entries : List WireEntry}
    {scopeChain : List String}
    (h : deserializeWire U bytes = .ok (entries, scopeChain)) :
    ∃ version rest, bytes = wireContextFormat.write ⟨version, entries, scopeChain⟩ ++ rest := by
  unfold deserializeWire at h
  cases hread : wireContextFormat.read bytes with
  | error e => simp [hread] at h
  | ok r =>
    obtain ⟨wire, rest⟩ := r
    simp only [hread] at h
    split_ifs at h with hversion
    obtain ⟨rfl, rfl⟩ := Prod.mk.inj (Except.ok.inj h)
    exact ⟨wire.version, rest, (wireContextFormat.write_of_read hread).2⟩

/-! ## The first version -/

/-- The envelope of version 1: the version and the entries, and nothing after them. -/
def encodeV1 (entries : List WireEntry) : Bytes :=
  u32.write 1 ++ wireEntryFormat.list.write entries

/-- **Bytes of the first version are refused**: reading runs off their end at the scope chain. -/
theorem deserializeWire_encodeV1 {entries : List WireEntry}
    (hsize : (encodeV1 entries).length < 2 ^ 64) :
    deserializeWire U (encodeV1 entries) =
      .error (.deserializationFailed (U.readErrorText .eofInNumber)) := by
  have hfits : wireEntryFormat.list.Fits entries :=
    wireEntryFormat_compact.list.fits entries (by
      rw [encodeV1, List.length_append] at hsize
      omega)
  have hversion : u32.read (encodeV1 entries) = .ok (1, wireEntryFormat.list.write entries) :=
    u32.read_write 1 _ (u32_fits 1)
  have hentries := wireEntryFormat.list.read_write_nil hfits
  have hfields : (u32.pair (wireEntryFormat.list.pair text.list)).read (encodeV1 entries) =
      .error .eofInNumber := by
    rw [Format.pair_read_ok hversion, Format.pair_read_ok hentries, Format.list_read_nil]
  have hread : wireContextFormat.read (encodeV1 entries) = .error .eofInNumber := by
    rw [wireContextFormat, Format.convert]
    simp only [hfields]
  rw [deserializeWire, hread]

/-- **No list of entries survives the first version**, however long it is: an envelope that could
be read back from its bytes would be longer than they are. -/
theorem encodeV1_never_read (entries : List WireEntry) :
    deserializeWire U (encodeV1 entries) ≠ .ok (entries, []) := by
  intro h
  obtain ⟨version, rest, hbytes⟩ := deserializeWire_eq_ok h
  have hwrite : wireContextFormat.write ⟨version, entries, []⟩ =
      u32.write version ++ (wireEntryFormat.list.write entries ++ text.list.write []) := rfl
  -- the entries are the same, so the empty chain alone makes the envelope too long
  have hlen := congrArg List.length hbytes
  rw [hwrite, encodeV1] at hlen
  simp only [List.length_append, length_u32_write] at hlen
  have hchain : 0 < (text.list.write []).length := text_compact.list.pos []
  omega

/-- An empty context written by the first version. -/
theorem encodeV1_nil_refused :
    deserializeWire primitiveTypes (encodeV1 []) =
        .error (.deserializationFailed "io error: unexpected end of file") ∧
      deserializeWire primitiveTypes (encodeV1 []) ≠ .ok ([], []) := by
  decide

/-- `make_wire_bytes_v`: an envelope with one entry and no scope chain. -/
def makeWireBytesV (version : UInt32) (key : String) (keyVersion : UInt32) (valueBytes : Bytes) :
    Bytes :=
  wireContextFormat.write ⟨version, [⟨key, keyVersion, valueBytes⟩], []⟩

end DContext
