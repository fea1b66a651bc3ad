import DContext.Format.Truncation
import DContext.Wire.Upgrade

/-!
# Exactly what is written and read

What `serialize` and `deserialize` return, for every snapshot and all bytes: which bytes are
accepted and what they become, which error is returned otherwise, and what truncated or extended
bytes lead to.

## Main definitions

* `lastEntry entries key`: the entry that decides what a key becomes
* `decodedValue registry entries key`: what it decodes to

## Main results

* `message_delimited`: a truncated message is refused, and bytes after a message are ignored
* `deserialize_ok_iff`: which bytes are accepted, and what they become
* `serialize_error_iff`, `deserialize_error_iff`: which error is returned, and when
-/

namespace DContext

open ByteFormat Overlay

variable {U : TypeUniverse}

/-! ## Truncated and extended messages -/

theorem wireEntryFormat_tight : wireEntryFormat.Tight :=
  (text_tight.pair (u32_tight.pair u8_tight.list)).convert

theorem wireContextFormat_tight : wireContextFormat.Tight :=
  (u32_tight.pair (wireEntryFormat_tight.list.pair text_tight.list)).convert

theorem deserializeWire_truncated {wire : WireContext} {p q : Bytes}
    (hsize : (wireContextFormat.write wire).length < 2 ^ 64)
    (hwrite : wireContextFormat.write wire = p ++ q) (hq : q ≠ []) :
    ∃ e : ReadError, e.IsEof ∧
      deserializeWire U p = .error (.deserializationFailed (U.readErrorText e)) := by
  have hfits := wireContextFormat_compact.fits wire hsize
  obtain ⟨e, he, hread⟩ := wireContextFormat_tight.eof hfits hwrite hq
  exact ⟨e, he, by rw [deserializeWire, hread]⟩

/-- What follows an envelope plays no part. -/
theorem deserializeWire_append {bytes rest : Bytes} {wire : WireContext}
    (h : wireContextFormat.read bytes = .ok (wire, rest)) (more : Bytes) :
    deserializeWire U (bytes ++ more) = deserializeWire U bytes := by
  rw [deserializeWire, deserializeWire, wireContextFormat.read_append h more, h]

/-- What can be read from bytes in memory is what they start with. -/
theorem wireContextFormat_read_eq_ok_iff {bytes : ByteVec} {wire : WireContext} {rest : Bytes} :
    wireContextFormat.read bytes.1 = .ok (wire, rest) ↔
      bytes.1 = wireContextFormat.write wire ++ rest := by
  constructor
  · intro h
    exact (wireContextFormat.write_of_read h).2
  · intro h
    have hsize := bytes.2
    rw [h, List.length_append] at hsize
    have hfits := wireContextFormat_compact.fits wire (by omega)
    rw [h, wireContextFormat.read_write wire rest hfits]

/-- **Messages are delimited.** Whoever receives a message that was cut short anywhere refuses it,
with the text for bytes that end in a number or that for bytes that end in a string, and bytes after
a message change nothing of what is read. -/
theorem message_delimited (g g' : Globals U) (iter : IterationOrder U) (snap : ContextSnapshot U)
    (bytes : ByteVec) (h : snap.serialize g iter = .ok bytes.1) :
    (∀ n < bytes.1.length, ∃ e : ReadError, e.IsEof ∧
        ContextSnapshot.deserialize g' (bytes.1.take n) =
          .error (.deserializationFailed (U.readErrorText e))) ∧
      ∀ more, ContextSnapshot.deserialize g' (bytes.1 ++ more) =
        ContextSnapshot.deserialize g' bytes.1 := by
  obtain ⟨entries, -, hbytes, -⟩ := serializeFrom_eq_ok_iff.mp h
  have hsize := bytes.2
  rw [hbytes] at hsize
  constructor
  · intro n hn
    have hsplit : wireContextFormat.write ⟨wireVersion, entries, snap.scopeChain⟩ =
        bytes.1.take n ++ bytes.1.drop n := by
      rw [List.take_append_drop, hbytes]
    have hrest : bytes.1.drop n ≠ [] := by
      rw [ne_eq, List.drop_eq_nil_iff]
      omega
    obtain ⟨e, he, hrefused⟩ := deserializeWire_truncated (U := U) hsize hsplit hrest
    refine ⟨e, he, ?_⟩
    unfold ContextSnapshot.deserialize deserializeToSnapshot
    rw [hrefused]
  · intro more
    have hread := wireContextFormat.read_write_nil (wireContextFormat_compact.fits _ hsize)
    rw [← hbytes] at hread
    unfold ContextSnapshot.deserialize deserializeToSnapshot
    rw [deserializeWire_append hread more]

/-- One number in an envelope of 58 bytes, cut after 57 of them. -/
theorem message_delimited_number :
    ∃ e : ReadError, e.IsEof ∧ ContextSnapshot.deserialize ⟨⟨buildMap textCalls⟩, 0, 64⟩
        ((wireContextFormat.write ⟨2, [⟨"k", 1, u64.write 7⟩], ["a"]⟩).take 57) =
      .error (.deserializationFailed (bincodeText e)) := by
  exact (message_delimited ⟨⟨buildMap numberCalls⟩, 0, 64⟩ ⟨⟨buildMap textCalls⟩, 0, 64⟩ .arbitrary
    _ ⟨_, by decide⟩ (serialize_number .arbitrary _)).1 57 (by decide)

/-! ## What is accepted -/

/-- The last entry of a key. -/
def lastEntry (entries : List WireEntry) (key : Key) : Option WireEntry :=
  entries.reverse.find? fun entry => entry.key = key

/-- What the last entry of a key decodes to. -/
def decodedValue (registry : Registry U) (entries : List WireEntry) (key : Key) :
    Option (ContextValue U) :=
  (lastEntry entries key).bind fun entry =>
    match deserializeEntry registry entry with
    | .ok restored => restored.map Prod.snd
    | .error _ => none

theorem lastEntry_cons (entry : WireEntry) (entries : List WireEntry) (key : Key) :
    lastEntry (entry :: entries) key =
      (lastEntry entries key).or (if entry.key = key then some entry else none) := by
  unfold lastEntry
  rw [List.reverse_cons, List.find?_append]
  congr 1
  by_cases hkey : entry.key = key <;> simp [hkey]

theorem key_of_lastEntry {entries : List WireEntry} {key : Key} {entry : WireEntry}
    (h : lastEntry entries key = some entry) : entry ∈ entries ∧ entry.key = key := by
  have hmem := List.mem_of_find?_eq_some h
  have hkey := List.find?_some h
  exact ⟨List.mem_reverse.mp hmem, of_decide_eq_true hkey⟩

/-- An entry is skipped because of its key. -/
theorem deserializeEntry_none_congr {registry : Registry U} {entry entry' : WireEntry}
    (hkey : entry.key = entry'.key) {kv : Key × ContextValue U}
    (h : deserializeEntry registry entry = .ok none) :
    deserializeEntry registry entry' ≠ .ok (some kv) := by
  intro h'
  obtain ⟨reg, deserFn, hreg, hdeser, -⟩ := deserializeEntry_eq_some_iff.mp h'
  have hne : ¬ reg.deserializers.keys = ∅ := by
    intro hempty
    have hmem : entry'.keyVersion ∈ reg.deserializers.keys :=
      Finmap.mem_keys.mpr (Finmap.mem_iff.mpr ⟨deserFn, hdeser⟩)
    rw [hempty] at hmem
    exact Finset.notMem_empty _ hmem
  unfold deserializeEntry Registry.withRegistration at h
  rw [hkey, hreg] at h
  simp only [Option.map_some, if_neg hne] at h
  cases hdeser' : reg.deserializers.lookup entry.keyVersion with
  | none => simp [hdeser'] at h
  | some deserFn' =>
    simp only [hdeser'] at h
    cases hval : deserFn' entry.value <;> simp [hval] at h

theorem decodedValue_cons {registry : Registry U} {entry : WireEntry} {entries : List WireEntry}
    {restored : Option (Key × ContextValue U)}
    (hentry : deserializeEntry registry entry = .ok restored)
    (hok : ∀ e ∈ entries, ∃ restored, deserializeEntry registry e = .ok restored) (key : Key) :
    decodedValue registry (entry :: entries) key = (decodedValue registry entries key).or
      (if entry.key = key then restored.map Prod.snd else none) := by
  unfold decodedValue
  rw [lastEntry_cons]
  cases hlast : lastEntry entries key with
  | none =>
    by_cases hkey : entry.key = key
    · simp [hkey, hentry]
    · simp [hkey]
  | some last =>
    obtain ⟨hmem, rfl⟩ := key_of_lastEntry hlast
    obtain ⟨restored', hrestored'⟩ := hok last hmem
    simp only [Option.some_or, Option.bind_some, hrestored']
    cases restored' with
    | some kv => rfl
    | none =>
      cases restored with
      | none => simp
      | some kv =>
        have hne : entry.key ≠ last.key := fun hkey =>
          deserializeEntry_none_congr hkey.symm hrestored' hentry
        simp [hne]

/-- What the loop of `deserialize_to_snapshot` has made of the entries: each key has what its last
entry decodes to. The induction is on the entries, whose later ones overwrite. -/
theorem deserializeEntries_eq_ok_iff {registry : Registry U} (hsafe : LocalSafe registry.map)
    (entries : List WireEntry) : ∀ values result : ValueMap U,
    deserializeEntries registry entries values = .ok result ↔
      (∀ entry ∈ entries, ∃ restored, deserializeEntry registry entry = .ok restored) ∧
        ∀ key, result.lookup key =
          (decodedValue registry entries key).or (values.lookup key) := by
  induction entries with
  | nil =>
    intro values result
    have hdecoded : ∀ key, decodedValue registry [] key = none := fun _ => rfl
    simp only [deserializeEntries, hdecoded, Option.none_or, List.not_mem_nil, false_implies,
      implies_true, true_and]
    constructor
    · intro h key
      rw [Except.ok.inj h]
    · intro h
      congr 1
      apply Finmap.ext_lookup
      exact fun key => (h key).symm
  | cons entry entries ih =>
    intro values result
    rw [List.forall_mem_cons]
    cases hentry : deserializeEntry registry entry with
    | error e => simp [deserializeEntries, hentry]
    | ok restored =>
      -- the loop goes on with what this entry adds
      have hloop : ∃ values', deserializeEntries registry (entry :: entries) values =
          deserializeEntries registry entries values' ∧ ∀ key, values'.lookup key =
            (if entry.key = key then restored.map Prod.snd else none).or (values.lookup key) := by
        cases restored with
        | none =>
          refine ⟨values, by rw [deserializeEntries, hentry], fun key => ?_⟩
          simp
        | some kv =>
          obtain ⟨k, v⟩ := kv
          obtain ⟨rfl, -⟩ := deserializeEntry_key hsafe hentry
          refine ⟨values.insert entry.key v, by rw [deserializeEntries, hentry], fun key => ?_⟩
          rw [Map.lookup_insert_eq]
          by_cases hkey : entry.key = key
          · simp [hkey]
          · simp [hkey, Ne.symm hkey]
      obtain ⟨values', hstep, hvalues'⟩ := hloop
      rw [hstep, ih]
      constructor
      · rintro ⟨hok, hresult⟩
        refine ⟨⟨⟨restored, rfl⟩, hok⟩, fun key => ?_⟩
        rw [hresult, hvalues', decodedValue_cons hentry hok, Option.or_assoc]
      · rintro ⟨⟨-, hok⟩, hresult⟩
        refine ⟨hok, fun key => ?_⟩
        rw [hresult, hvalues', decodedValue_cons hentry hok, Option.or_assoc]

/-- **What is accepted**: an envelope of a known version, with whatever bytes behind it, of which
every entry can be decoded or is skipped. It becomes the scope chain of the envelope and, under
each key, what the last entry of the key decodes to. -/
theorem deserialize_ok_iff (calls : List (BuilderCall U)) (maxContextSize maxScopeChainLen : Nat)
    (bytes : ByteVec) (snap : ContextSnapshot U) :
    ContextSnapshot.deserialize ⟨⟨buildMap calls⟩, maxContextSize, maxScopeChainLen⟩ bytes.1 =
        .ok snap ↔
      ∃ version entries rest, (version = 1 ∨ version = 2) ∧
        bytes.1 = wireContextFormat.write ⟨version, entries, snap.scopeChain⟩ ++ rest ∧
        (∀ entry ∈ entries, ∃ restored,
          deserializeEntry ⟨buildMap calls⟩ entry = .ok restored) ∧
        ∀ key, snap.values.lookup key = decodedValue ⟨buildMap calls⟩ entries key := by
  have hsafe : LocalSafe (buildMap calls) := built_localSafe ⟨calls, rfl⟩
  have hentries : ∀ (entries : List WireEntry) (values result : ValueMap U),
      deserializeEntries ⟨buildMap calls⟩ entries values = .ok result ↔ _ :=
    deserializeEntries_eq_ok_iff hsafe
  unfold ContextSnapshot.deserialize deserializeToSnapshot deserializeWire
  dsimp only
  constructor
  · intro h
    cases hread : wireContextFormat.read bytes.1 with
    | error e => simp [hread] at h
    | ok r =>
      obtain ⟨⟨version, entries, scopeChain⟩, rest⟩ := r
      simp only [hread] at h
      split_ifs at h with hversion
      cases hloop : deserializeEntries ⟨buildMap calls⟩ entries ∅ with
      | error e => simp [hloop] at h
      | ok values =>
        simp only [hloop, Except.ok.injEq] at h
        subst h
        obtain ⟨hok, hvalues⟩ := (hentries entries ∅ values).mp hloop
        have hbytes := (wireContextFormat.write_of_read hread).2
        refine ⟨version, entries, rest, hversion, hbytes, hok, ?_⟩
        intro key
        rw [hvalues, Finmap.lookup_empty, Option.or_none]
  · rintro ⟨version, entries, rest, hversion, hbytes, hok, hvalues⟩
    have hsize := bytes.2
    rw [hbytes, List.length_append] at hsize
    have hfits := wireContextFormat_compact.fits ⟨version, entries, snap.scopeChain⟩ (by omega)
    have hloop : deserializeEntries ⟨buildMap calls⟩ entries ∅ = .ok snap.values := by
      refine (hentries entries ∅ snap.values).mpr ⟨hok, fun key => ?_⟩
      rw [hvalues, Finmap.lookup_empty, Option.or_none]
    rw [hbytes, wireContextFormat.read_write _ rest hfits]
    simp only [if_pos hversion, hloop]

/-! ## What is refused -/

theorem serializeEntry_eq_error_iff {registry : Registry U} {key : Key} {val : ContextValue U}
    {err : ContextError} :
    serializeEntry registry key val = .error err ↔
      ∃ e, valueEncoder registry key val = .error e ∧
        err = .serializationFailed ("key '" ++ key ++ "': " ++ e.display) := by
  unfold serializeEntry
  cases valueEncoder registry key val with
  | error e => simp [eq_comm]
  | ok bytes => simp

/-- A loop over `xs` that goes on over those with `ok` meets one with `bad` at the head, or goes on
and meets one later. -/
theorem exists_first_cons {α : Type*} {ok bad : α → Prop} {x : α} {xs : List α} :
    (∃ pre y post, x :: xs = pre ++ y :: post ∧ (∀ z ∈ pre, ok z) ∧ bad y) ↔
      bad x ∨ ok x ∧ ∃ pre y post, xs = pre ++ y :: post ∧ (∀ z ∈ pre, ok z) ∧ bad y := by
  constructor
  · rintro ⟨pre, y, post, hxs, hpre, hbad⟩
    cases pre with
    | nil =>
      obtain ⟨rfl, -⟩ := List.cons.inj hxs
      exact .inl hbad
    | cons z pre =>
      obtain ⟨rfl, hrest⟩ := List.cons.inj hxs
      obtain ⟨hok, hpre⟩ := List.forall_mem_cons.mp hpre
      exact .inr ⟨hok, pre, y, post, hrest, hpre, hbad⟩
  · rintro (hbad | ⟨hok, pre, y, post, rfl, hpre, hbad⟩)
    · exact ⟨[], x, xs, rfl, by simp, hbad⟩
    · exact ⟨x :: pre, y, post, rfl, List.forall_mem_cons.mpr ⟨hok, hpre⟩, hbad⟩

/-- The loop of `serialize_from` ends at the first value that cannot be encoded. -/
theorem serializeEntries_eq_error_iff {registry : Registry U} {err : ContextError}
    (values : List (Σ _ : Key, ContextValue U)) :
    serializeEntries registry values = .error err ↔
      ∃ pre e post, values = pre ++ e :: post ∧
        (∀ x ∈ pre, ∃ entry, serializeEntry registry x.1 x.2 = .ok entry) ∧
        serializeEntry registry e.1 e.2 = .error err := by
  induction values with
  | nil => simp [serializeEntries]
  | cons e values ih =>
    rw [exists_first_cons, ← ih, serializeEntries]
    cases serializeEntry registry e.1 e.2 with
    | error err' => simp
    | ok entry => cases serializeEntries registry values <;> simp

/-- The loop of `deserialize_to_snapshot` ends at the first entry that cannot be decoded. -/
theorem deserializeEntries_eq_error_iff {registry : Registry U} {err : ContextError}
    (entries : List WireEntry) : ∀ values : ValueMap U,
    deserializeEntries registry entries values = .error err ↔
      ∃ pre entry post, entries = pre ++ entry :: post ∧
        (∀ x ∈ pre, ∃ restored, deserializeEntry registry x = .ok restored) ∧
        deserializeEntry registry entry = .error err := by
  induction entries with
  | nil => simp [deserializeEntries]
  | cons entry entries ih =>
    intro values
    rw [exists_first_cons, deserializeEntries]
    cases deserializeEntry registry entry with
    | error err' => simp
    | ok restored => cases restored <;> simp [ih]

theorem exists_serializeEntry_iff {registry : Registry U} {key : Key} {val : ContextValue U} :
    (∃ entry, serializeEntry registry key val = .ok entry) ↔
      ∃ bytes, valueEncoder registry key val = .ok bytes := by
  unfold serializeEntry
  cases valueEncoder registry key val <;> simp

/-- **When `serialize` fails**, and with what: at the first value, in the order of iteration, that
cannot be encoded, with an error that names its key; or else over the limit, with the size of the
context. -/
theorem serialize_error_iff (g : Globals U) (iter : IterationOrder U) (snap : ContextSnapshot U)
    (err : ContextError) :
    snap.serialize g iter = .error err ↔
      (∃ pre x post, iter.list snap.values = pre ++ x :: post ∧
          (∀ y ∈ pre, ∃ bytes, valueEncoder g.registry y.1 y.2 = .ok bytes) ∧
          ∃ e, valueEncoder g.registry x.1 x.2 = .error e ∧
            err = .serializationFailed ("key '" ++ x.1 ++ "': " ++ e.display)) ∨
        (∀ key val, snap.values.lookup key = some val →
            ∃ bytes, valueEncoder g.registry key val = .ok bytes) ∧
          0 < g.maxContextSize ∧
          g.maxContextSize < encodedLength g.registry snap.values snap.scopeChain ∧
          err = .contextTooLarge (encodedLength g.registry snap.values snap.scopeChain)
            g.maxContextSize := by
  have horder := iter.enumerates snap.values
  have hfirst : serializeEntries g.registry (iter.list snap.values) = .error err ↔ _ :=
    serializeEntries_eq_error_iff _
  simp only [exists_serializeEntry_iff, serializeEntry_eq_error_iff] at hfirst
  rw [← hfirst, ← exists_serializeEntries_iff horder]
  unfold ContextSnapshot.serialize serializeFrom
  cases hentries : serializeEntries g.registry (iter.list snap.values) with
  | error e => simp
  | ok entries =>
    have hlen := length_write_serializeEntries horder hentries snap.scopeChain
    dsimp only
    rw [hlen, checkSize]
    by_cases hlimit : g.maxContextSize > 0 ∧
        encodedLength g.registry snap.values snap.scopeChain > g.maxContextSize
    · simp [hlimit, eq_comm]
    · rw [if_neg hlimit]
      simp only [reduceCtorEq, false_or, Except.ok.injEq, exists_eq', true_and, false_iff]
      rintro ⟨hpos, hover, -⟩
      exact hlimit ⟨hpos, hover⟩

theorem nativeDeserializer_error {t : U.TypeId} {decode : Option (Bytes → Except String (U.El t))}
    {bytes : Bytes} {e : ContextError} (h : nativeDeserializer t decode bytes = .error e) :
    ∃ text, e = .deserializationFailed text := by
  unfold nativeDeserializer at h
  cases decode with
  | none =>
    cases hdecode : U.deserialize t bytes with
    | error text => exact ⟨text, by simpa [hdecode, Except.map, Except.mapError, eq_comm] using h⟩
    | ok x => simp [hdecode, Except.map, Except.mapError] at h
  | some decode =>
    cases hdecode : decode bytes with
    | error text => exact ⟨text, by simpa [hdecode, Except.map, Except.mapError, eq_comm] using h⟩
    | ok x => simp [hdecode, Except.map, Except.mapError] at h

theorem migrationDeserializer_error {tOld tCurrent : U.TypeId} {migrate : U.El tOld → U.El tCurrent}
    {bytes : Bytes} {e : ContextError}
    (h : migrationDeserializer tOld tCurrent migrate bytes = .error e) :
    ∃ text, e = .deserializationFailed text := by
  unfold migrationDeserializer at h
  cases hdecode : U.deserialize tOld bytes with
  | error text => exact ⟨text, by simpa [hdecode, eq_comm] using h⟩
  | ok x => simp [hdecode] at h

/-- The decoders that the builder installs fail in one way only. -/
theorem built_decodersFail (calls : List (BuilderCall U)) :
    ∀ key reg, (buildMap calls).lookup key = some reg → ∀ version deserFn,
      reg.deserializers.lookup version = some deserFn → ∀ bytes e, deserFn bytes = .error e →
        ∃ text, e = .deserializationFailed text := by
  refine buildMap_invariant calls ?_ ?_
  · intro t key opts _ version deserFn hdeser bytes e he
    dsimp only [newRegistration] at hdeser
    split_ifs at hdeser
    · cases hdeser
    · rw [Map.lookup_insert_eq] at hdeser
      split_ifs at hdeser
      · obtain rfl := Option.some.inj hdeser
        exact nativeDeserializer_error he
      · cases hdeser
  · intro tOld tCurrent key oldVersion migrate reg hreg htype hlocal hversion
      version deserFn hdeser bytes e he
    dsimp only at hdeser
    rw [Map.lookup_insert_eq] at hdeser
    split_ifs at hdeser
    · obtain rfl := Option.some.inj hdeser
      exact migrationDeserializer_error he
    · exact hreg version deserFn hdeser bytes e he

/-- A registration is without decoders exactly when it is local-only. -/
theorem built_decoders_empty_iff {calls : List (BuilderCall U)} {key : Key} {reg : Registration U}
    (hreg : (buildMap calls).lookup key = some reg) :
    reg.deserializers.keys = ∅ ↔ reg.localOnly = true := by
  constructor
  · intro hempty
    by_contra hlocal
    obtain ⟨opts, -, -, hnative⟩ := (buildMap_native calls key reg hreg).native
    have hmem : reg.keyVersion ∈ reg.deserializers.keys :=
      Finmap.mem_keys.mpr
        (Finmap.mem_iff.mpr ⟨_, hnative (Bool.eq_false_iff.mpr hlocal)⟩)
    rw [hempty] at hmem
    exact Finset.notMem_empty _ hmem
  · intro hlocal
    have hsafe : LocalSafe (buildMap calls) := built_localSafe ⟨calls, rfl⟩
    rw [(hsafe key reg hreg).2 hlocal]
    exact Finmap.keys_empty

/-- What an entry is refused for: its key can be decoded, but not at its version, or not its
bytes. -/
def EntryRefused (registry : Registry U) (entry : WireEntry) (err : ContextError) : Prop :=
  ∃ reg, registry.map.lookup entry.key = some reg ∧ reg.localOnly = false ∧
    ((reg.deserializers.lookup entry.keyVersion = none ∧
        err = .deserializationFailed
          ("no deserializer for key '" ++ entry.key ++ "' wire version " ++
            toString entry.keyVersion ++ " (registered versions: " ++ toString reg.versions ++
              ")")) ∨
      ∃ deserFn text, reg.deserializers.lookup entry.keyVersion = some deserFn ∧
        deserFn entry.value = .error (.deserializationFailed text) ∧
        err = .deserializationFailed text)

theorem deserializeEntry_eq_error_iff {calls : List (BuilderCall U)} {entry : WireEntry}
    {err : ContextError} :
    deserializeEntry ⟨buildMap calls⟩ entry = .error err ↔
      EntryRefused ⟨buildMap calls⟩ entry err := by
  unfold deserializeEntry EntryRefused Registry.withRegistration
  dsimp only
  cases hreg : (buildMap calls).lookup entry.key with
  | none => simp
  | some reg =>
    have hempty := built_decoders_empty_iff hreg
    simp only [Option.map_some, Option.some.injEq, exists_eq_left']
    cases hlocal : reg.localOnly with
    | true => simp [hempty, hlocal]
    | false =>
      have hne : ¬ reg.deserializers.keys = ∅ := by simp [hempty, hlocal]
      simp only [if_neg hne, true_and]
      cases hdeser : reg.deserializers.lookup entry.keyVersion with
      | none => simp [eq_comm]
      | some deserFn =>
        cases hval : deserFn entry.value with
        | ok val => simp [hval]
        | error e =>
          obtain ⟨text, rfl⟩ := built_decodersFail calls _ _ hreg _ _ hdeser _ _ hval
          simp [hval, eq_comm]

/-- **When `deserialize` fails**, and with what: no envelope can be read, or its version is not
known, or else at the first entry whose key can be decoded but which cannot. Every failure is a
failure of deserialization. -/
theorem deserialize_error_iff (calls : List (BuilderCall U)) (maxContextSize maxScopeChainLen : Nat)
    (bytes : ByteVec) (err : ContextError) :
    ContextSnapshot.deserialize ⟨⟨buildMap calls⟩, maxContextSize, maxScopeChainLen⟩ bytes.1 =
        .error err ↔
      (∃ e, wireContextFormat.read bytes.1 = .error e ∧
          err = .deserializationFailed (U.readErrorText e)) ∨
        ∃ wire rest, bytes.1 = wireContextFormat.write wire ++ rest ∧
          ((¬ (wire.version = 1 ∨ wire.version = 2) ∧ err = .deserializationFailed
              ("unsupported wire version: " ++ toString wire.version ++
                " (this library supports versions 1 and 2)")) ∨
            (wire.version = 1 ∨ wire.version = 2) ∧
              ∃ pre entry post, wire.entries = pre ++ entry :: post ∧
                (∀ x ∈ pre, ∃ restored, deserializeEntry ⟨buildMap calls⟩ x = .ok restored) ∧
                EntryRefused ⟨buildMap calls⟩ entry err) := by
  have hloop : ∀ entries, deserializeEntries ⟨buildMap calls⟩ entries ∅ = .error err ↔ _ :=
    fun entries => deserializeEntries_eq_error_iff entries ∅
  simp only [deserializeEntry_eq_error_iff] at hloop
  simp only [← hloop, ← wireContextFormat_read_eq_ok_iff]
  unfold ContextSnapshot.deserialize deserializeToSnapshot deserializeWire
  dsimp only
  cases wireContextFormat.read bytes.1 with
  | error e => simp [eq_comm]
  | ok r =>
    obtain ⟨wire, rest⟩ := r
    by_cases hversion : wire.version = 1 ∨ wire.version = 2
    · simp only [Except.ok.injEq, Prod.mk.injEq, reduceCtorEq, false_and, exists_false, false_or,
        and_assoc, exists_and_left, exists_eq_left', hversion, not_true_eq_false, true_and,
        if_true]
      cases deserializeEntries ⟨buildMap calls⟩ wire.entries ∅ <;> simp
    · simp only [Except.ok.injEq, Prod.mk.injEq, reduceCtorEq, false_and, exists_false, false_or,
        and_assoc, exists_and_left, exists_eq_left', hversion, not_false_eq_true, true_and,
        or_false, if_false, Except.error.injEq]
      exact eq_comm

end DContext
