import DContext.Wire.Decoding
import DContext.Wire.Upgrade

/-!
# A context passed on by services

A request goes through a line of services. Each one attaches the bytes it was sent, opens a scope
of its own, and sends on what it then shows; each has its own registry, limits and order of
iteration. What comes out at the end is, key by key, what the registries on the way have made of
the value one after the other, and the end of the path of all scopes.

## Main definitions

* `Service U`, `Service.handle`, `relay services`: one service, and a line of them
* `route sender registries key val`: a value from registry to registry
* `Agrees sender receiver key val`: both read and write the key alike
* `RoomFor registry values chain services`: every service can send the values on

## Main results

* `Service.handle_eq_some_iff`: what a service sends on
* `relay_route`: what comes out of a line of services
* `relay_lossless_iff`: services that agree on the keys lose no value, and fail on their size only
-/

namespace DContext

open ByteFormat Overlay

variable {U : TypeUniverse}

/-- A service: the calls that built its registry, its limits, the scope it opens, the order in
which it iterates, and what its thread had in the cell. -/
structure Service (U : TypeUniverse) where
  calls : List (BuilderCall U)
  maxContextSize : Nat
  maxScopeChainLen : Nat
  scope : String
  iter : IterationOrder U
  ambient : Cell U

namespace Service

def globals (service : Service U) : Globals U :=
  ⟨⟨buildMap service.calls⟩, service.maxContextSize, service.maxScopeChainLen⟩

/-- `attach_from_bytes`, `push_scope` and `capture_serialized`; nothing is sent on after an
error, and the length of a `Vec<u8>` is a `usize`. -/
def handle (service : Service U) (bytes : ByteVec) : Option ByteVec :=
  match Thread.attachFromBytes service.globals bytes.1 service.ambient with
  | .error _ => none
  | .ok r =>
    let cell := (Thread.pushScope service.globals service.scope r.1).1
    match Thread.captureSerialized service.globals service.iter cell with
    | .error _ => none
    | .ok out => if h : out.length < 2 ^ 64 then some ⟨out, h⟩ else none

/-- The scope chain that a service sends on. -/
def chainAfter (service : Service U) (chain : List String) : List String :=
  keepLast service.maxScopeChainLen (chain ++ [service.scope])

end Service

/-- A line of services, the first one first. -/
def relay : List (Service U) → ByteVec → Option ByteVec
  | [], bytes => some bytes
  | service :: services, bytes => (service.handle bytes).bind (relay services)

/-! ## One service -/

/-- Below a scope that was opened on it, a snapshot that was read is captured as it is. -/
theorem Service.capture_pushScope (service : Service U) (cell : Cell U) {bytes : Bytes}
    {snap : ContextSnapshot U}
    (h : ContextSnapshot.deserialize service.globals bytes = .ok snap) :
    Thread.capture service.globals (Thread.pushScope service.globals service.scope
        (Thread.attachSnapshot service.globals snap cell).1).1 =
      ⟨snap.values, service.chainAfter snap.scopeChain⟩ := by
  have haccepted : Accepted service.globals.registry snap.values :=
    deserialize_accepted (built_localSafe ⟨service.calls, rfl⟩)
      (built_decodersTyped ⟨service.calls, rfl⟩) h
  have hwf := (storeFromSnapshot_reachable snap service.globals.registry).wellFormed
  have hchain := hwf.scopeChain_pushScope service.globals.registry (some service.scope)
    (show 1 ≤ maxScopeDepth by decide) service.maxScopeChainLen
  rw [scopeChain_storeFromSnapshot, keepLast_append_keepLast] at hchain
  have hvalues : (captureWithRegistry service.maxScopeChainLen
      ((storeFromSnapshotWithRegistry snap service.globals.registry).pushScope
        service.globals.registry (some service.scope)).1 service.globals.registry).values =
      snap.values := by
    apply Finmap.ext_lookup
    intro key
    rw [lookup_captureWithRegistry, hwf.getValue_pushScope, storeFromSnapshot_of_accepted haccepted,
      ContextStore.getValue_fromValuesWithChain]
    cases hval : snap.values.lookup key with
    | none => exact ite_self none
    | some val => simp [(haccepted key val hval).2]
  exact congrArg₂ ContextSnapshot.mk hvalues hchain

/-- **What a service sends on**: what it has read, below its own scope. -/
theorem Service.handle_eq_some_iff {service : Service U} {bytes bytes' : ByteVec} :
    service.handle bytes = some bytes' ↔
      ∃ snap, ContextSnapshot.deserialize service.globals bytes.1 = .ok snap ∧
        ContextSnapshot.serialize service.globals service.iter
          ⟨snap.values, service.chainAfter snap.scopeChain⟩ = .ok bytes'.1 := by
  unfold handle Thread.attachFromBytes
  cases hread : ContextSnapshot.deserialize service.globals bytes.1 with
  | error e => simp
  | ok snap =>
    simp only [Thread.captureSerialized, service.capture_pushScope service.ambient hread,
      Except.ok.injEq, exists_eq_left']
    cases hwrite : ContextSnapshot.serialize service.globals service.iter
        ⟨snap.values, service.chainAfter snap.scopeChain⟩ with
    | error e => simp
    | ok out =>
      dsimp only
      split_ifs with hsize
      · simp [Subtype.ext_iff]
      · simp only [Except.ok.injEq, false_iff]
        rintro rfl
        exact hsize bytes'.2

/-! ## A line of services -/

/-- What becomes of a value under a key, from registry to registry. -/
def route (key : Key) : Registry U → List (Registry U) → ContextValue U → Option (ContextValue U)
  | _, [], val => some val
  | sender, receiver :: registries, val =>
    ((transcode sender receiver key val).toOption.join).bind (route key receiver registries)

/-- The scope chain after a line of services. -/
def relayedChain : List String → List (Service U) → List String
  | chain, [] => chain
  | chain, service :: services => relayedChain (service.chainAfter chain) services

/-- The length of the scope chain after a line of services: each adds one name, up to its limit. -/
def relayedLength : Nat → List (Service U) → Nat
  | n, [] => n
  | n, service :: services =>
    let added := if service.maxScopeChainLen = 0 then n + 1
      else min service.maxScopeChainLen (n + 1)
    relayedLength added services

theorem Service.chainAfter_rtake (service : Service U) (path : List String) (n : Nat) :
    service.chainAfter (path.rtake n) = (path ++ [service.scope]).rtake
      (if service.maxScopeChainLen = 0 then n + 1 else min service.maxScopeChainLen (n + 1)) := by
  have hnext : path.rtake n ++ [service.scope] = (path ++ [service.scope]).rtake (n + 1) := by
    rw [rtake_append, List.length_singleton, Nat.add_sub_cancel]
    simp [List.rtake]
  rw [chainAfter, hnext]
  split_ifs with hzero
  · rw [hzero, keepLast_zero]
  · rw [keepLast_pos (Nat.pos_of_ne_zero hzero)]
    unfold List.rtake
    rw [List.drop_drop, List.length_drop]
    congr 1
    omega

/-- **The chain after a line of services** is the end of the path of all scopes. -/
theorem relayedChain_rtake (services : List (Service U)) : ∀ (path : List String) (n : Nat),
    relayedChain (path.rtake n) services =
      (path ++ services.map Service.scope).rtake (relayedLength n services) := by
  induction services with
  | nil =>
    intro path n
    rw [relayedChain, relayedLength, List.map_nil, List.append_nil]
  | cons service services ih =>
    intro path n
    rw [relayedChain, relayedLength, service.chainAfter_rtake, ih, List.append_assoc]
    rfl

/-- A key that one registry on the way does not know, or keeps to itself, does not arrive. -/
theorem route_absent {key : Key} (services : List (Service U)) (h : ∃ service ∈ services,
    service.globals.registry.map.lookup key = none ∨
      service.globals.registry.isLocalKey key = true) :
    ∀ (sender : Registry U) (val : ContextValue U),
      route key sender (services.map (·.globals.registry)) val = none := by
  induction services with
  | nil =>
    obtain ⟨service, hmem, -⟩ := h
    cases hmem
  | cons service services ih =>
    intro sender val
    rw [List.map_cons, route]
    obtain ⟨service', hmem, habsent⟩ := h
    rcases List.mem_cons.mp hmem with rfl | hmem
    · have hnone : (transcode sender service'.globals.registry key val).toOption.join = none := by
        cases hencode : valueEncoder sender key val with
        | error e =>
          rw [transcode, hencode]
          rfl
        | ok bytes =>
          have htrans : transcode sender service'.globals.registry key val = .ok none :=
            transcode_absent hencode habsent
          rw [htrans]
          rfl
      rw [hnone, Option.bind_none]
    · cases (transcode sender service.globals.registry key val).toOption.join with
      | none => rfl
      | some val' => exact ih ⟨service', hmem, habsent⟩ service.globals.registry val'

/-- What a key has on the other side. -/
theorem Crosses.lookup_eq {sender receiver : Registry U} {values result : ValueMap U}
    (h : Crosses sender receiver values result) (key : Key) :
    result.lookup key =
      (values.lookup key).bind fun val => (transcode sender receiver key val).toOption.join := by
  cases hval : values.lookup key with
  | none => exact h.of_absent hval
  | some val =>
    rw [Option.bind_some, h.of_lookup hval]
    rfl

theorem relay_chain_values (services : List (Service U)) (receiver : Service U) :
    ∀ (g : Globals U) (iter : IterationOrder U) (snap result : ContextSnapshot U)
      (bytes bytes' : ByteVec), snap.serialize g iter = .ok bytes.1 →
      relay services bytes = some bytes' →
      ContextSnapshot.deserialize receiver.globals bytes'.1 = .ok result →
      result.scopeChain = relayedChain snap.scopeChain services ∧
        ∀ key, result.values.lookup key = (snap.values.lookup key).bind
          (route key g.registry ((services ++ [receiver]).map (·.globals.registry))) := by
  induction services with
  | nil =>
    intro g iter snap result bytes bytes' hwrite hrelay hread
    obtain rfl := Option.some.inj hrelay
    have hsafe : LocalSafe receiver.globals.registry.map := built_localSafe ⟨receiver.calls, rfl⟩
    obtain ⟨hchain, hvalues⟩ := (deserialize_serialize_iff hsafe hwrite result).mp hread
    refine ⟨hchain, fun key => ?_⟩
    rw [hvalues.lookup_eq key]
    congr 1
    funext val
    exact (Option.bind_fun_some _).symm
  | cons service services ih =>
    intro g iter snap result bytes bytes' hwrite hrelay hread
    obtain ⟨mid, hmid, hrest⟩ := Option.bind_eq_some_iff.mp hrelay
    obtain ⟨snap', hread', hwrite'⟩ := Service.handle_eq_some_iff.mp hmid
    have hsafe : LocalSafe service.globals.registry.map := built_localSafe ⟨service.calls, rfl⟩
    obtain ⟨hchain, hvalues⟩ := (deserialize_serialize_iff hsafe hwrite snap').mp hread'
    obtain ⟨hchain', hvalues'⟩ := ih _ _ _ result mid bytes' hwrite' hrest hread
    refine ⟨?_, fun key => ?_⟩
    · rw [hchain', hchain]
      rfl
    · rw [hvalues' key, hvalues.lookup_eq key, Option.bind_assoc]
      rfl

/-- **What comes out of a line of services**: under each key what the registries have made of the
value one after the other, and nothing if one of them does not know the key or keeps it to itself;
and the end of the path of all scopes. -/
theorem relay_route (g : Globals U) (iter : IterationOrder U) (services : List (Service U))
    (receiver : Service U) (snap result : ContextSnapshot U) (bytes bytes' : ByteVec)
    (hwrite : snap.serialize g iter = .ok bytes.1) (hrelay : relay services bytes = some bytes')
    (hread : ContextSnapshot.deserialize receiver.globals bytes'.1 = .ok result) :
    (∀ key, result.values.lookup key = (snap.values.lookup key).bind
        (route key g.registry ((services ++ [receiver]).map (·.globals.registry)))) ∧
      (∀ key, ∀ service ∈ services ++ [receiver],
        service.globals.registry.map.lookup key = none ∨
          service.globals.registry.isLocalKey key = true → result.values.lookup key = none) ∧
      result.scopeChain = (snap.scopeChain ++ services.map Service.scope).rtake
        (relayedLength snap.scopeChain.length services) := by
  obtain ⟨hchain, hvalues⟩ :=
    relay_chain_values services receiver g iter snap result bytes bytes' hwrite hrelay hread
  refine ⟨hvalues, ?_, ?_⟩
  · intro key service hmem habsent
    rw [hvalues]
    cases snap.values.lookup key with
    | none => rfl
    | some val => exact route_absent _ ⟨service, hmem, habsent⟩ g.registry val
  · rw [hchain, ← relayedChain_rtake services snap.scopeChain]
    simp [List.rtake]

/-- A service that knows `k` as a number, and one that knows it as a text. -/
noncomputable def numberService : Service primitiveTypes :=
  ⟨numberCalls, 0, 64, "b", .arbitrary, none⟩

noncomputable def textService : Service primitiveTypes := ⟨textCalls, 0, 1, "c", .arbitrary, none⟩

/-- A number under one name, and under two. -/
def numberSnapshot (scopeChain : List String) : ContextSnapshot primitiveTypes :=
  ⟨Finmap.insert "k" (u64Value 7) ∅, scopeChain⟩

def numberBytes (scopeChain : List String) : Bytes :=
  wireContextFormat.write ⟨2, [⟨"k", 1, u64.write 7⟩], scopeChain⟩

theorem serialize_numberSnapshot (iter : IterationOrder primitiveTypes) (scopeChain : List String) :
    (numberSnapshot scopeChain).serialize numberService.globals iter =
      .ok (numberBytes scopeChain) := serialize_number iter scopeChain

theorem relay_numberService :
    relay [numberService] ⟨numberBytes ["a"], by decide⟩ =
      some ⟨numberBytes ["a", "b"], by decide⟩ := by
  refine Option.bind_eq_some_iff.mpr ⟨_, Service.handle_eq_some_iff.mpr ?_, rfl⟩
  exact ⟨numberSnapshot ["a"], rfl, serialize_numberSnapshot .arbitrary ["a", "b"]⟩

/-- A number through a service that knows it, to one where it has become a text. -/
theorem relay_route_number :
    ∃ result, ContextSnapshot.deserialize textService.globals (numberBytes ["a", "b"]) =
        .ok result ∧
      result.scopeChain = ["a", "b"] ∧ result.values.lookup "k" = some ⟨.string, "7"⟩ := by
  have hroute := relay_route numberService.globals .arbitrary [numberService] textService
    (numberSnapshot ["a"]) ⟨Finmap.insert "k" ⟨.string, "7"⟩ ∅, ["a", "b"]⟩ _ _
    (serialize_numberSnapshot .arbitrary ["a"]) relay_numberService rfl
  exact ⟨_, rfl, hroute.2.2.trans rfl, (hroute.1 "k").trans rfl⟩

/-! ## Services that agree -/

/-- The receiver knows the key as the sender does: in the same version, with the same encoder, and
with the type of the value. -/
def Agrees (sender receiver : Registry U) (key : Key) (val : ContextValue U) : Prop :=
  ∃ reg, receiver.map.lookup key = some reg ∧ reg.localOnly = false ∧
    reg.keyVersion = wireKeyVersion sender key ∧ val.typeId = reg.typeId ∧
    valueEncoder sender key = reg.encoder

section Agrees

variable {sender receiver receiver' : Registry U} {key : Key} {val : ContextValue U}

theorem Agrees.valueEncoder_eq (h : Agrees sender receiver key val) :
    valueEncoder receiver key = valueEncoder sender key := by
  obtain ⟨reg, hreg, -, -, -, hencoder⟩ := h
  rw [valueEncoder_of_registered hreg, hencoder]

theorem Agrees.wireKeyVersion_eq (h : Agrees sender receiver key val) :
    wireKeyVersion receiver key = wireKeyVersion sender key := by
  obtain ⟨reg, hreg, -, hversion, -⟩ := h
  rw [wireKeyVersion_of_registered hreg, hversion]

/-- Two that know the key as the sender does know it alike. -/
theorem Agrees.next (h : Agrees sender receiver key val) (h' : Agrees sender receiver' key val) :
    Agrees receiver receiver' key val := by
  obtain ⟨reg, hreg, hlocal, hversion, htype, hencoder⟩ := h'
  refine ⟨reg, hreg, hlocal, ?_, htype, ?_⟩
  · rw [h.wireKeyVersion_eq, hversion]
  · rw [h.valueEncoder_eq, hencoder]

theorem Agrees.transcode (hU : U.RoundTrips) {service : Service U}
    (hcalls : ∀ call ∈ service.calls, call.RoundTrips)
    (h : Agrees sender service.globals.registry key val) {bytes : ByteVec}
    (hbytes : valueEncoder sender key val = .ok bytes.1) :
    transcode sender service.globals.registry key val = .ok (some val) := by
  obtain ⟨reg, hreg, hlocal, hversion, htype, hencoder⟩ := h
  exact transcode_same hU hcalls hbytes hreg hlocal hversion htype hencoder

end Agrees

/-- Every service can send the values on; `size` is that of their envelope with a scope chain. -/
def RoomFor (size : List String → Nat) : List String → List (Service U) → Prop
  | _, [] => True
  | chain, service :: services =>
    size (service.chainAfter chain) < 2 ^ 64 ∧
      (service.maxContextSize = 0 ∨ size (service.chainAfter chain) ≤ service.maxContextSize) ∧
      RoomFor size (service.chainAfter chain) services

/-- The size of an envelope is a matter of the encoders. -/
theorem encodedLength_congr {registry registry' : Registry U} {values : ValueMap U}
    (h : ∀ key val, values.lookup key = some val →
      valueEncoder registry' key = valueEncoder registry key) :
    encodedLength registry' values = encodedLength registry values := by
  funext scopeChain
  have hentries : values.entries.map (fun e => encodedEntryLength registry' e.1 e.2) =
      values.entries.map fun e => encodedEntryLength registry e.1 e.2 := by
    apply Multiset.map_congr rfl
    rintro ⟨key, val⟩ hmem
    rw [encodedEntryLength, encodedEntryLength, h key val (Finmap.mem_lookup_iff.mpr hmem)]
  rw [encodedLength, encodedLength, hentries]

/-- A snapshot can be sent when its values can be encoded and there is room. -/
theorem exists_serialize_iff {g : Globals U} {iter : IterationOrder U} {snap : ContextSnapshot U}
    (h : ∀ key val, snap.values.lookup key = some val →
      ∃ bytes, valueEncoder g.registry key val = .ok bytes) :
    (∃ bytes : ByteVec, snap.serialize g iter = .ok bytes.1) ↔
      encodedLength g.registry snap.values snap.scopeChain < 2 ^ 64 ∧
        (g.maxContextSize = 0 ∨
          encodedLength g.registry snap.values snap.scopeChain ≤ g.maxContextSize) := by
  have horder := iter.enumerates snap.values
  constructor
  · rintro ⟨bytes, hwrite⟩
    obtain ⟨entries, hentries, hbytes, hlimit⟩ := serializeFrom_eq_ok_iff.mp hwrite
    rw [← length_write_serializeEntries horder hentries snap.scopeChain, ← hbytes]
    exact ⟨bytes.2, hlimit⟩
  · rintro ⟨hsize, hlimit⟩
    obtain ⟨entries, hentries⟩ := (exists_serializeEntries_iff horder).mpr h
    rw [← length_write_serializeEntries horder hentries snap.scopeChain] at hsize hlimit
    exact ⟨⟨_, hsize⟩, serializeFrom_eq_ok_iff.mpr ⟨entries, hentries, rfl, hlimit⟩⟩

/-- A service that agrees with the sender reads what was sent. -/
theorem Service.deserialize_of_agrees (hU : U.RoundTrips) {service : Service U}
    (hcalls : ∀ call ∈ service.calls, call.RoundTrips) {g : Globals U} {iter : IterationOrder U}
    {snap : ContextSnapshot U} {bytes : ByteVec} (hwrite : snap.serialize g iter = .ok bytes.1)
    (hagrees : ∀ key val, snap.values.lookup key = some val →
      Agrees g.registry service.globals.registry key val) :
    ContextSnapshot.deserialize service.globals bytes.1 = .ok snap := by
  have hsafe : LocalSafe service.globals.registry.map := built_localSafe ⟨service.calls, rfl⟩
  refine (deserialize_serialize_iff hsafe hwrite snap).mpr ⟨rfl, fun key => ?_⟩
  cases hval : snap.values.lookup key with
  | none => rfl
  | some val =>
    obtain ⟨valueBytes, hvalue⟩ := encoded_of_serialize hwrite hval
    exact (hagrees key val hval).transcode hU hcalls hvalue

/-- **Services that agree on the keys lose no value.** The receiver reads the values as they were
sent, below the end of the path of all scopes, and all that keeps the bytes from it is their size
at one of the services. -/
theorem relay_lossless_iff (hU : U.RoundTrips) (services : List (Service U)) (receiver : Service U)
    (hcalls : ∀ service ∈ services ++ [receiver], ∀ call ∈ service.calls, call.RoundTrips) :
    ∀ (g : Globals U) (iter : IterationOrder U) (snap : ContextSnapshot U) (bytes : ByteVec),
      snap.serialize g iter = .ok bytes.1 →
      (∀ service ∈ services ++ [receiver], ∀ key val, snap.values.lookup key = some val →
        Agrees g.registry service.globals.registry key val) →
      ((∃ bytes', relay services bytes = some bytes') ↔
        RoomFor (encodedLength g.registry snap.values) snap.scopeChain services) ∧
      ∀ bytes', relay services bytes = some bytes' →
        ContextSnapshot.deserialize receiver.globals bytes'.1 =
          .ok ⟨snap.values, relayedChain snap.scopeChain services⟩ := by
  induction services with
  | nil =>
    intro g iter snap bytes hwrite hagrees
    refine ⟨⟨fun _ => trivial, fun _ => ⟨bytes, rfl⟩⟩, ?_⟩
    rintro bytes' ⟨⟩
    have hmem : receiver ∈ [] ++ [receiver] := List.mem_singleton.mpr rfl
    exact receiver.deserialize_of_agrees hU (hcalls receiver hmem) hwrite (hagrees receiver hmem)
  | cons service services ih =>
    intro g iter snap bytes hwrite hagrees
    obtain ⟨hcall, hcalls⟩ := List.forall_mem_cons.mp hcalls
    obtain ⟨hagree, hagrees⟩ := List.forall_mem_cons.mp hagrees
    have hread := service.deserialize_of_agrees hU hcall hwrite hagree
    have hsize : encodedLength service.globals.registry snap.values =
        encodedLength g.registry snap.values :=
      encodedLength_congr fun key val hval => (hagree key val hval).valueEncoder_eq
    have hmid : ∀ mid, service.handle bytes = some mid ↔
        ContextSnapshot.serialize service.globals service.iter
          ⟨snap.values, service.chainAfter snap.scopeChain⟩ = .ok mid.1 := by
      intro mid
      rw [Service.handle_eq_some_iff, hread]
      simp
    have hnext : ∀ mid, service.handle bytes = some mid → _ := fun mid hmid' =>
      ih hcalls service.globals service.iter ⟨snap.values, service.chainAfter snap.scopeChain⟩ mid
        ((hmid mid).mp hmid') fun service' hmem key val hval =>
          (hagree key val hval).next (hagrees service' hmem key val hval)
    have hencodes : ∀ key val, snap.values.lookup key = some val →
        ∃ bytes, valueEncoder service.globals.registry key val = .ok bytes := by
      intro key val hval
      obtain ⟨valueBytes, hvalue⟩ := encoded_of_serialize hwrite hval
      exact ⟨valueBytes.1, by rw [(hagree key val hval).valueEncoder_eq, hvalue]⟩
    have hroom : (∃ mid, service.handle bytes = some mid) ↔
        encodedLength service.globals.registry snap.values (service.chainAfter snap.scopeChain) <
            2 ^ 64 ∧
          (service.maxContextSize = 0 ∨
            encodedLength service.globals.registry snap.values
              (service.chainAfter snap.scopeChain) ≤ service.maxContextSize) :=
      (exists_congr hmid).trans (exists_serialize_iff hencodes)
    rw [hsize] at hroom hnext
    constructor
    · rw [RoomFor, ← and_assoc, ← hroom]
      constructor
      · rintro ⟨bytes', hrelay⟩
        obtain ⟨mid, hmid', hrest⟩ := Option.bind_eq_some_iff.mp hrelay
        exact ⟨⟨mid, hmid'⟩, (hnext mid hmid').1.mp ⟨bytes', hrest⟩⟩
      · rintro ⟨⟨mid, hmid'⟩, hrooms⟩
        obtain ⟨bytes', hrest⟩ := (hnext mid hmid').1.mpr hrooms
        exact ⟨bytes', Option.bind_eq_some_iff.mpr ⟨mid, hmid', hrest⟩⟩
    · intro bytes' hrelay
      obtain ⟨mid, hmid', hrest⟩ := Option.bind_eq_some_iff.mp hrelay
      exact (hnext mid hmid').2 bytes' hrest

/-- A number through a service that knows it, to itself. -/
theorem relay_lossless_number :
    RoomFor (encodedLength numberService.globals.registry (numberSnapshot ["a"]).values) ["a"]
        [numberService] ∧
      ContextSnapshot.deserialize numberService.globals (numberBytes ["a", "b"]) =
        .ok (numberSnapshot ["a", "b"]) := by
  have hcalls : ∀ service ∈ [numberService] ++ [numberService],
      ∀ call ∈ service.calls, call.RoundTrips := by
    intro service hmem
    simp only [List.cons_append, List.nil_append, List.mem_cons, List.not_mem_nil, or_false,
      or_self] at hmem
    subst hmem
    exact numberCalls_roundTrips
  have hagrees : ∀ service ∈ [numberService] ++ [numberService], ∀ key val,
      (numberSnapshot ["a"]).values.lookup key = some val →
      Agrees numberService.globals.registry service.globals.registry key val := by
    intro service hmem key val hval
    simp only [List.cons_append, List.nil_append, List.mem_cons, List.not_mem_nil, or_false,
      or_self] at hmem
    subst hmem
    rw [numberSnapshot, Map.lookup_insert_eq] at hval
    split_ifs at hval with hkey
    · obtain rfl := Option.some.inj hval
      subst hkey
      exact ⟨newRegistration .u64 "k" .new, rfl, rfl, rfl, rfl, rfl⟩
    · cases hval
  obtain ⟨hroom, hread⟩ := relay_lossless_iff primitiveTypes_roundTrips [numberService]
    numberService hcalls numberService.globals .arbitrary (numberSnapshot ["a"])
    ⟨numberBytes ["a"], by decide⟩ (serialize_numberSnapshot .arbitrary ["a"]) hagrees
  exact ⟨hroom.mp ⟨_, relay_numberService⟩, (hread _ relay_numberService).trans rfl⟩

end DContext
