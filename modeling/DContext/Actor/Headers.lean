import DContext.Wire.Upgrade

/-!
# Message headers

An actor message carries its context in one of two headers: the bytes of a snapshot, for another
process, or the snapshot itself, for the same one. The actor runtime keeps the headers of a message
by their types. Its transport is a parameter: it sends what a header gives as bytes, and rebuilds
the header at the other end by the deserializer registered under its name.

## Main definitions

* `HeaderType`, `Headers U`: the two headers, and the headers of a message
* `registerContextHeaders`: the deserializer of the crate
* `Transport U`, `Transport.direct`: a transport that rebuilds headers, and one within a process

## Main results

* `Transport.lookup_context`, `Transport.lookup_snapshot`: what arrives
-/

namespace DContext

open Overlay

variable {U : TypeUniverse}

/-- `ContextHeader`. -/
structure ContextHeader where
  bytes : Bytes
  deriving DecidableEq, Repr

/-- `ContextHeader::from_bytes`. -/
def ContextHeader.fromBytes (bytes : Bytes) : ContextHeader := ⟨bytes⟩

/-- `ContextSnapshotHeader`. -/
structure ContextSnapshotHeader (U : TypeUniverse) where
  snapshot : ContextSnapshot U

/-- The types of the two headers. -/
inductive HeaderType
  | context
  | snapshot
  deriving DecidableEq, Repr

namespace HeaderType

/-- The values of a header. -/
abbrev Value (U : TypeUniverse) : HeaderType → Type
  | .context => ContextHeader
  | .snapshot => ContextSnapshotHeader U

/-- `HeaderValue::header_name`. -/
def headerName : HeaderType → String
  | .context => "dcontext.wire"
  | .snapshot => "dcontext.snapshot"

/-- `HeaderValue::to_bytes`; a snapshot is not sent over the wire. -/
def toBytes : (t : HeaderType) → t.Value U → Option Bytes
  | .context, header => some header.bytes
  | .snapshot, _ => none

end HeaderType

/-- The headers of a message, at most one of each type. -/
abbrev Headers (U : TypeUniverse) := Finmap (HeaderType.Value U)

/-- A header of some type. -/
abbrev AnyHeader (U : TypeUniverse) := Σ t : HeaderType, t.Value U

/-- `as_any().downcast_ref`. -/
def AnyHeader.downcast (t : HeaderType) (header : AnyHeader U) : Option (t.Value U) :=
  if h : header.1 = t then some (h ▸ header.2) else none

/-- `HeaderRegistry`: a deserializer for each name. -/
abbrev HeaderRegistry (U : TypeUniverse) := Map String (Bytes → Option (AnyHeader U))

/-- `register_context_headers`. -/
def registerContextHeaders (registry : HeaderRegistry U) : HeaderRegistry U :=
  registry.insert "dcontext.wire" fun bytes => some ⟨.context, .fromBytes bytes⟩

/-- What becomes of a header on the way: its bytes, and the deserializer of its name. -/
def rebuild (registry : HeaderRegistry U) (t : HeaderType) (header : t.Value U) :
    Option (t.Value U) :=
  (t.toBytes header).bind fun bytes => (registry.lookup t.headerName).bind fun deserializer =>
    (deserializer bytes).bind (AnyHeader.downcast t)

/-- A transport: the headers that arrive, of those that were sent. A header arrives as the
deserializer registered under its name makes it of its bytes. -/
structure Transport (U : TypeUniverse) where
  carry : HeaderRegistry U → Headers U → Headers U
  rebuilds : ∀ registry headers (t : HeaderType),
    (carry registry headers).lookup t = (headers.lookup t).bind (rebuild registry t)

namespace Transport

variable (transport : Transport U) (registry : HeaderRegistry U) (headers : Headers U)

/-- The bytes of a context arrive unchanged. -/
theorem lookup_context :
    (transport.carry (registerContextHeaders registry) headers).lookup .context =
      headers.lookup .context := by
  rw [transport.rebuilds]
  cases headers.lookup .context with
  | none => rfl
  | some header =>
    have hname : (registerContextHeaders registry).lookup "dcontext.wire" =
        some fun bytes => some ⟨.context, .fromBytes bytes⟩ := Finmap.lookup_insert _
    show ((registerContextHeaders registry).lookup "dcontext.wire").bind _ = _
    rw [hname]
    rfl

/-- A snapshot stays where it was. -/
theorem lookup_snapshot : (transport.carry registry headers).lookup .snapshot = none := by
  rw [transport.rebuilds]
  cases headers.lookup .snapshot <;> rfl

/-- A transport within one process, which keeps nothing else. -/
def direct : Transport U where
  carry registry headers :=
    match (headers.lookup .context).bind (rebuild registry .context) with
    | some header => Finmap.insert .context header ∅
    | none => ∅
  rebuilds registry headers t := by
    cases t with
    | context =>
      split
      · next header heq => rw [heq, Finmap.lookup_insert]
      · next heq => rw [heq, Finmap.lookup_empty]
    | snapshot =>
      -- no bytes, so nothing arrives
      have hnone : (headers.lookup .snapshot).bind (rebuild registry .snapshot) = none := by
        cases headers.lookup .snapshot <;> rfl
      rw [hnone]
      split
      · rw [Finmap.lookup_insert_of_ne _ (by decide), Finmap.lookup_empty]
      · rw [Finmap.lookup_empty]

end Transport

end DContext
