import DContext.Wire.Envelope

/-!
# The envelope round-trips

Writing fails in two ways only, an encoder that fails or a total size over the limit; the size
does not depend on the order in which the map is iterated. What is written is read back entry by
entry, with the scope chain.

## Main definitions

* `encodedLength`: the size of the envelope of a map
* `EntriesOf registry values entries`: one entry for each key, as its encoder makes it
* `ByteVec`: the byte strings of a `Vec<u8>`

## Main results

* `serializeFrom_eq_ok_iff`: what a successful call has written
* `serializeFrom_roundTrip`: success characterised, and the round trip
-/

namespace DContext

open ByteFormat Overlay

variable {U : TypeUniverse}

/-- The byte strings of a `Vec<u8>`, whose length is a `usize`. -/
abbrev ByteVec := { bytes : Bytes // bytes.length < 2 ^ 64 }

/-- The size of one entry: its key and its value behind their lengths, and the version. -/
def encodedEntryLength (registry : Registry U) (key : Key) (val : ContextValue U) : Nat :=
  (8 + (utf8 key).length) +
    (4 + (8 + match valueEncoder registry key val with
      | .ok valueBytes => valueBytes.length
      | .error _ => 0))

/-- The size of the envelope of a map with a scope chain. -/
def encodedLength (registry : Registry U) (values : ValueMap U) (scopeChain : List String) : Nat :=
  4 + ((8 + (values.entries.map fun e => encodedEntryLength registry e.1 e.2).sum) +
    (8 + (scopeChain.map fun name => 8 + (utf8 name).length).sum))

/-- The entries of the values of a map: exactly one for each key, carrying the version of the key
and the bytes of its encoder. -/
structure EntriesOf (registry : Registry U) (values : ValueMap U) (entries : List WireEntry) :
    Prop where
  nodup : (entries.map WireEntry.key).Nodup
  keys : ∀ k, k ∈ entries.map WireEntry.key ↔ k ∈ values
  entry : ∀ e ∈ entries, e.keyVersion = wireKeyVersion registry e.key ∧
    ∃ v, values.lookup e.key = some v ∧ valueEncoder registry e.key v = .ok e.value

/-! ## What is written -/

theorem serializeEntry_eq_ok_iff {registry : Registry U} {key : Key} {val : ContextValue U}
    {entry : WireEntry} :
    serializeEntry registry key val = .ok entry ↔
      entry.key = key ∧ entry.keyVersion = wireKeyVersion registry key ∧
        valueEncoder registry key val = .ok entry.value := by
  obtain ⟨k, version, bytes⟩ := entry
  unfold serializeEntry
  cases valueEncoder registry key val with
  | error e => simp
  | ok valueBytes =>
    simp only [Except.ok.injEq, WireEntry.mk.injEq]
    constructor
    · rintro ⟨rfl, rfl, rfl⟩
      exact ⟨rfl, rfl, rfl⟩
    · rintro ⟨rfl, rfl, rfl⟩
      exact ⟨rfl, rfl, rfl⟩

/-- The loop succeeds when each value does, and then has one entry for each value, in order. -/
theorem serializeEntries_eq_ok_iff {registry : Registry U}
    {values : List (Σ _ : Key, ContextValue U)} {entries : List WireEntry} :
    serializeEntries registry values = .ok entries ↔
      List.Forall₂ (fun e entry => serializeEntry registry e.1 e.2 = .ok entry) values entries := by
  induction values generalizing entries with
  | nil =>
    rw [List.forall₂_nil_left_iff, serializeEntries, Except.ok.injEq]
    exact eq_comm
  | cons e values ih =>
    rw [List.forall₂_cons_left_iff, serializeEntries]
    constructor
    · intro h
      cases hentry : serializeEntry registry e.1 e.2 with
      | error err => simp [hentry] at h
      | ok entry =>
        cases hrest : serializeEntries registry values with
        | error err => simp [hentry, hrest] at h
        | ok rest =>
          simp only [hentry, hrest, Except.ok.injEq] at h
          exact ⟨entry, rest, rfl, ih.mp hrest, h.symm⟩
    · rintro ⟨entry, rest, hentry, hrest, rfl⟩
      simp only [hentry, ih.mpr hrest]

/-- Another order of iteration gives the same entries, in another order. -/
theorem serializeEntries_perm {registry : Registry U}
    {values values' : List (Σ _ : Key, ContextValue U)} (hperm : values'.Perm values)
    {entries : List WireEntry} (h : serializeEntries registry values = .ok entries) :
    ∃ entries', serializeEntries registry values' = .ok entries' ∧ entries'.Perm entries := by
  obtain ⟨entries', hentries', hentriesPerm⟩ :=
    List.perm_comp_forall₂ hperm (serializeEntries_eq_ok_iff.mp h)
  exact ⟨entries', serializeEntries_eq_ok_iff.mpr hentries', hentriesPerm⟩

theorem checkSize_eq_ok_iff {limit size : Nat} :
    checkSize limit size = .ok () ↔ limit = 0 ∨ size ≤ limit := by
  unfold checkSize
  split_ifs with h
  · simp only [false_iff]
    omega
  · simp only [true_iff]
    omega

/-- **What a successful call has written**: an envelope within the limit. -/
theorem serializeFrom_eq_ok_iff {limit : Nat} {registry : Registry U}
    {values : List (Σ _ : Key, ContextValue U)} {scopeChain : List String} {bytes : Bytes} :
    serializeFrom limit registry values scopeChain = .ok bytes ↔
      ∃ entries, serializeEntries registry values = .ok entries ∧
        bytes = wireContextFormat.write ⟨wireVersion, entries, scopeChain⟩ ∧
        (limit = 0 ∨ bytes.length ≤ limit) := by
  unfold serializeFrom
  cases hentries : serializeEntries registry values with
  | error e => simp
  | ok entries =>
    dsimp only
    constructor
    · intro h
      cases hsize : checkSize limit
          (wireContextFormat.write ⟨wireVersion, entries, scopeChain⟩).length with
      | error e => simp [hsize] at h
      | ok =>
        simp only [hsize, Except.ok.injEq] at h
        subst h
        exact ⟨entries, rfl, rfl, checkSize_eq_ok_iff.mp hsize⟩
    · rintro ⟨_, hcons, rfl, hlimit⟩
      obtain rfl := Except.ok.inj hcons
      simp only [checkSize_eq_ok_iff.mpr hlimit]

/-! ## Its size -/

theorem length_list_write {α : Type} (f : Format α) (as : List α) :
    (f.list.write as).length = 8 + (as.map fun a => (f.write a).length).sum := by
  show (u64.write as.length ++ as.flatMap f.write).length = _
  rw [List.length_append, length_u64_write, List.length_flatMap]

theorem length_wireEntry_write (entry : WireEntry) :
    (wireEntryFormat.write entry).length =
      (8 + (utf8 entry.key).length) + (4 + (8 + entry.value.length)) := by
  show (text.write entry.key ++ (u32.write entry.keyVersion ++ u8.list.write entry.value)).length =
    _
  rw [List.length_append, List.length_append, length_text_write, length_u32_write,
    length_list_write]
  simp

theorem length_wireContext_write (wire : WireContext) :
    (wireContextFormat.write wire).length =
      4 + ((8 + (wire.entries.map fun e => (wireEntryFormat.write e).length).sum) +
        (8 + (wire.scopeChain.map fun name => 8 + (utf8 name).length).sum)) := by
  show (u32.write wire.version ++ (wireEntryFormat.list.write wire.entries ++
    text.list.write wire.scopeChain)).length = _
  simp only [List.length_append, length_u32_write, length_list_write, length_text_write]

/-- The size written is the size of the map, in whatever order the map is iterated. -/
theorem length_write_serializeEntries {registry : Registry U} {values : ValueMap U}
    {order : List (Σ _ : Key, ContextValue U)} (horder : Enumerates order values)
    {entries : List WireEntry} (h : serializeEntries registry order = .ok entries)
    (scopeChain : List String) :
    (wireContextFormat.write ⟨wireVersion, entries, scopeChain⟩).length =
      encodedLength registry values scopeChain := by
  have hentries := serializeEntries_eq_ok_iff.mp h
  -- Entry by entry the sizes are those of the values, whose sum no order changes.
  have hsum : (entries.map fun e => (wireEntryFormat.write e).length) =
      order.map fun e => encodedEntryLength registry e.1 e.2 := by
    clear horder h
    induction hentries with
    | nil => rfl
    | @cons e entry order entries hentry _ ih =>
      obtain ⟨hkey, -, hvalue⟩ := serializeEntry_eq_ok_iff.mp hentry
      rw [List.map_cons, List.map_cons, ih, length_wireEntry_write, encodedEntryLength, hvalue,
        hkey]
  rw [length_wireContext_write, encodedLength, hsum, ← horder, Multiset.map_coe,
    Multiset.sum_coe]

/-! ## The round trip -/

theorem entriesOf_serializeEntries {registry : Registry U} {values : ValueMap U}
    {order : List (Σ _ : Key, ContextValue U)} (horder : Enumerates order values)
    {entries : List WireEntry} (h : serializeEntries registry order = .ok entries) :
    EntriesOf registry values entries := by
  have hentries := serializeEntries_eq_ok_iff.mp h
  have hkeys : entries.map WireEntry.key = order.map Sigma.fst := by
    clear horder h
    induction hentries with
    | nil => rfl
    | @cons e entry order entries hentry _ ih =>
      rw [List.map_cons, List.map_cons, ih, (serializeEntry_eq_ok_iff.mp hentry).1]
  refine ⟨hkeys ▸ horder.nodup_keys, ?_, ?_⟩
  · intro k
    rw [hkeys, Finmap.mem_iff]
    constructor
    · intro hk
      obtain ⟨e, he, rfl⟩ := List.mem_map.mp hk
      exact ⟨e.2, (horder.mem_iff e.1 e.2).mp he⟩
    · rintro ⟨v, hv⟩
      exact List.mem_map.mpr ⟨⟨k, v⟩, (horder.mem_iff k v).mpr hv, rfl⟩
  · intro entry hmem
    obtain ⟨e, he, hentry⟩ : ∃ e ∈ order, serializeEntry registry e.1 e.2 = .ok entry := by
      clear horder h hkeys
      induction hentries with
      | nil => cases hmem
      | @cons e entry' order entries hentry _ ih =>
        rcases List.mem_cons.mp hmem with rfl | hmem
        · exact ⟨e, List.mem_cons_self, hentry⟩
        · obtain ⟨e', he', hentry'⟩ := ih hmem
          exact ⟨e', List.mem_cons_of_mem e he', hentry'⟩
    obtain ⟨hkey, hversion, hvalue⟩ := serializeEntry_eq_ok_iff.mp hentry
    refine ⟨hkey ▸ hversion, e.2, ?_, hkey ▸ hvalue⟩
    rw [hkey]
    exact (horder.mem_iff e.1 e.2).mp he

/-- The loop succeeds when every encoder does. -/
theorem exists_serializeEntries_iff {registry : Registry U} {values : ValueMap U}
    {order : List (Σ _ : Key, ContextValue U)} (horder : Enumerates order values) :
    (∃ entries, serializeEntries registry order = .ok entries) ↔
      ∀ k v, values.lookup k = some v → ∃ bytes, valueEncoder registry k v = .ok bytes := by
  constructor
  · rintro ⟨entries, h⟩ k v hv
    have hof := entriesOf_serializeEntries horder h
    obtain ⟨entry, hmem, rfl⟩ :=
      List.mem_map.mp ((hof.keys k).mpr (Finmap.mem_iff.mpr ⟨v, hv⟩))
    obtain ⟨-, v', hv', hbytes⟩ := hof.entry entry hmem
    obtain rfl : v' = v := Option.some.inj (hv'.symm.trans hv)
    exact ⟨entry.value, hbytes⟩
  · intro h
    have hall : ∀ e ∈ order, ∃ bytes, valueEncoder registry e.1 e.2 = .ok bytes := fun e he =>
      h e.1 e.2 ((horder.mem_iff e.1 e.2).mp he)
    clear horder h
    induction order with
    | nil => exact ⟨[], rfl⟩
    | cons e order ih =>
      obtain ⟨⟨bytes, hbytes⟩, hrest⟩ := List.forall_mem_cons.mp hall
      obtain ⟨entries, hentries⟩ := ih hrest
      have hentry : serializeEntry registry e.1 e.2 =
          .ok ⟨e.1, wireKeyVersion registry e.1, bytes⟩ :=
        serializeEntry_eq_ok_iff.mpr ⟨rfl, rfl, hbytes⟩
      exact ⟨_ :: entries, serializeEntries_eq_ok_iff.mpr
        (.cons hentry (serializeEntries_eq_ok_iff.mp hentries))⟩

/-- Writing succeeds when every encoder does and the size is within the limit. -/
theorem exists_serializeFrom_iff (limit : Nat) (registry : Registry U) (values : ValueMap U)
    (scopeChain : List String) {order : List (Σ _ : Key, ContextValue U)}
    (horder : Enumerates order values) :
    (∃ bytes, serializeFrom limit registry order scopeChain = .ok bytes) ↔
      (∀ k v, values.lookup k = some v → ∃ bytes, valueEncoder registry k v = .ok bytes) ∧
        (limit = 0 ∨ encodedLength registry values scopeChain ≤ limit) := by
  rw [← exists_serializeEntries_iff horder]
  constructor
  · rintro ⟨bytes, h⟩
    obtain ⟨entries, hentries, rfl, hlimit⟩ := serializeFrom_eq_ok_iff.mp h
    rw [length_write_serializeEntries horder hentries] at hlimit
    exact ⟨⟨entries, hentries⟩, hlimit⟩
  · rintro ⟨⟨entries, hentries⟩, hlimit⟩
    rw [← length_write_serializeEntries horder hentries] at hlimit
    exact ⟨_, serializeFrom_eq_ok_iff.mpr ⟨entries, hentries, rfl, hlimit⟩⟩

/-- **The envelope round-trips and fails exactly when it must.** For every order of iteration,
writing succeeds when every encoder succeeds and the size is within the limit, and what is written
is read back with one entry for each key and the same scope chain. -/
theorem serializeFrom_roundTrip (limit : Nat) (registry : Registry U) (values : ValueMap U)
    (scopeChain : List String) {order : List (Σ _ : Key, ContextValue U)}
    (horder : Enumerates order values) :
    ((∃ bytes, serializeFrom limit registry order scopeChain = .ok bytes) ↔
        (∀ k v, values.lookup k = some v → ∃ bytes, valueEncoder registry k v = .ok bytes) ∧
          (limit = 0 ∨ encodedLength registry values scopeChain ≤ limit)) ∧
      ∀ bytes : ByteVec, serializeFrom limit registry order scopeChain = .ok bytes.1 →
        ∃ entries, deserializeWire U bytes.1 = .ok (entries, scopeChain) ∧
          EntriesOf registry values entries := by
  constructor
  · exact exists_serializeFrom_iff limit registry values scopeChain horder
  · rintro ⟨bytes, hsize⟩ h
    obtain ⟨entries, hentries, hbytes, -⟩ := serializeFrom_eq_ok_iff.mp h
    dsimp only at hbytes
    subst hbytes
    exact ⟨entries, deserializeWire_write hsize (.inr rfl),
      entriesOf_serializeEntries horder hentries⟩

/-- A registry that writes `k` in one byte, as version 3. -/
def byteRegistry : Registry primitiveTypes :=
  ⟨buildMap [.register PrimitiveType.u64 "k" [.version 3,
    .codec (fun n : UInt64 => .ok [n.toUInt8]) fun bytes => .ok (bytes.headD 0).toUInt64]]⟩

/-- A number under `k`, and a text under a key that is not registered. -/
def numberAndText : ValueMap primitiveTypes :=
  Finmap.insert "name" ⟨.string, ("x" : String)⟩ (Finmap.insert "k" (u64Value 7) ∅)

/-- What they are written as. -/
def numberAndTextWire : WireContext :=
  ⟨2, [⟨"k", 3, [7]⟩, ⟨"name", 1, text.write "x"⟩], ["é"]⟩

/-- Both are read back, under a limit that the envelope just meets. -/
theorem serializeFrom_roundTrip_numberAndText :
    ∃ entries, deserializeWire primitiveTypes (wireContextFormat.write numberAndTextWire) =
        .ok (entries, ["é"]) ∧ EntriesOf byteRegistry numberAndText entries := by
  have horder : Enumerates [⟨"k", u64Value 7⟩, ⟨"name", ⟨.string, ("x" : String)⟩⟩]
      numberAndText := Multiset.coe_eq_coe.mpr (.swap _ _ [])
  exact (serializeFrom_roundTrip 85 byteRegistry _ ["é"] horder).2
    ⟨wireContextFormat.write numberAndTextWire, by decide⟩ rfl

end DContext
