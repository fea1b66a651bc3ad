import DContext.Format.Basic
import DContext.Overlay.Map
import Mathlib.Data.Finset.Sort

/-!
# Context values and errors

A stored value is type-erased: it carries the identifier of its Rust type. The Rust types, with
what serde and bincode derive for them, come from outside the crate and are a parameter.

## Main definitions

* `TypeUniverse`: the types a program stores, with their bincode encoding
* `ContextValue U`: `Arc<dyn ContextValue>`, a value with its type
* `ContextError`: the crate's errors, with their `Display` text
* `bincodeText`: the texts of bincode for a failed read
* `primitiveTypes`: the universe of `u64` and `String`
-/

namespace DContext

open ByteFormat Overlay

/-- A context key, `&'static str`. -/
abbrev Key := String

/-- `Vec<u8>`. -/
abbrev Bytes := List UInt8

/-- The Rust types a program stores in its context: their identifiers, names, default values,
and the bincode encoding serde derives for them, which may fail with a message. With them comes what
else is left to others: the texts of bincode, and an order for each `HashMap` of decoders. -/
structure TypeUniverse where
  TypeId : Type
  decEq : DecidableEq TypeId
  El : TypeId → Type
  typeName : TypeId → String
  default : (t : TypeId) → El t
  serialize : (t : TypeId) → El t → Except String Bytes
  deserialize : (t : TypeId) → Bytes → Except String (El t)
  /-- bincode's text for a failed read. -/
  readErrorText : ReadError → String
  /-- The order in which the versions of a key are iterated: a `HashMap` promises none. -/
  versionOrder : Key → Finset UInt32 → List UInt32
  versionOrder_enumerates : ∀ key versions, (versionOrder key versions : Multiset UInt32) =
    versions.val

attribute [instance] TypeUniverse.decEq

/-- `ContextError`. -/
inductive ContextError
  | notRegistered (key : String)
  | alreadyRegistered (key : String)
  | typeMismatch (key expected got : String)
  | serializationFailed (message : String)
  | deserializationFailed (message : String)
  | contextTooLarge (size limit : Nat)
  | localOnlyKey (key : String)
  | noActiveScope (message : String)
  | registryFrozen
  deriving DecidableEq, Repr

/-- The `Display` text of an error. -/
def ContextError.display : ContextError → String
  | .notRegistered key => "context key '" ++ key ++ "' is not registered"
  | .alreadyRegistered key =>
      "context key '" ++ key ++ "' is already registered with a different type"
  | .typeMismatch key expected got =>
      "type mismatch for key '" ++ key ++ "': expected " ++ expected ++ ", got " ++ got
  | .serializationFailed message => "serialization failed: " ++ message
  | .deserializationFailed message => "deserialization failed: " ++ message
  | .contextTooLarge size limit =>
      "context size exceeds limit: " ++ toString size ++ " bytes > " ++ toString limit ++ " bytes"
  | .localOnlyKey key => "key '" ++ key ++ "' is local-only and cannot be serialized"
  | .noActiveScope message => "no active scope: " ++ message
  | .registryFrozen =>
      "registry is already initialized; registrations must happen before initialize()"

/-- What a call that renames its errors returns is what the call below returns. -/
theorem mapError_eq_ok_iff {ε ε' α : Type} {f : ε → ε'} {r : Except ε α} {a : α} :
    r.mapError f = .ok a ↔ r = .ok a := by
  cases r with
  | error e => simp [Except.mapError]
  | ok b => rw [Except.mapError, Except.ok.injEq, Except.ok.injEq]

variable {U : TypeUniverse}

/-- `Arc<dyn ContextValue>`: a value together with its type. -/
structure ContextValue (U : TypeUniverse) where
  typeId : U.TypeId
  val : U.El typeId

namespace ContextValue

/-- `as_any().downcast_ref::<T>()`. -/
def downcast (t : U.TypeId) (v : ContextValue U) : Option (U.El t) :=
  if h : v.typeId = t then some (h ▸ v.val) else none

/-- `serialize_value`. -/
def serializeValue (v : ContextValue U) : Except ContextError Bytes :=
  (U.serialize v.typeId v.val).mapError .serializationFailed

theorem serializeValue_eq_ok_iff {v : ContextValue U} {bytes : Bytes} :
    v.serializeValue = .ok bytes ↔ U.serialize v.typeId v.val = .ok bytes :=
  mapError_eq_ok_iff

@[simp] theorem downcast_self (t : U.TypeId) (x : U.El t) :
    (⟨t, x⟩ : ContextValue U).downcast t = some x := dif_pos rfl

theorem downcast_isSome {t : U.TypeId} {v : ContextValue U} :
    (v.downcast t).isSome ↔ v.typeId = t := by
  unfold downcast
  split
  · simpa
  · simpa

end ContextValue

/-- `HashMap<&'static str, Arc<dyn ContextValue>>`. -/
abbrev ValueMap (U : TypeUniverse) := Map Key (ContextValue U)

/-! ## bincode's texts -/

/-- The number of bytes of a character, by its first byte; none starts with other bytes. -/
def utf8CharWidth (first : UInt8) : Nat :=
  if first < 0x80 then 1
  else if first < 0xC2 then 0
  else if first < 0xE0 then 2
  else if first < 0xF0 then 3
  else if first < 0xF5 then 4
  else 0

/-- What the second byte of a character can be. -/
def utf8SecondByte (first second : UInt8) : Bool :=
  (if first = 0xE0 then 0xA0 else if first = 0xF0 then 0x90 else 0x80) ≤ second &&
    second ≤ (if first = 0xED then 0x9F else if first = 0xF4 then 0x8F else 0xBF)

/-- How many of these bytes continue the character that starts with `first`. -/
def utf8Continued (first : UInt8) : List UInt8 → Nat
  | [] => 0
  | second :: more =>
    if utf8SecondByte first second then
      1 + (more.takeWhile fun b => 0x80 ≤ b && b < 0xC0).length
    else 0

/-- The text of `Utf8Error` for bytes that are not UTF-8, of which the first `index` have been
read: where the first broken character starts, and how many bytes of it are refused. -/
def utf8ErrorText (index : Nat) : List UInt8 → String
  | [] => ""
  | first :: rest =>
    let width := utf8CharWidth first
    let next := rest.take (width - 1)
    let continued := utf8Continued first next
    if continued + 1 = width then
      utf8ErrorText (index + width) (rest.drop (width - 1))
    else if 0 < width ∧ continued = next.length then
      "incomplete utf-8 byte sequence from index " ++ toString index
    else
      "invalid utf-8 sequence of " ++ toString (continued + 1) ++ " bytes from index " ++
        toString index
termination_by bytes => bytes.length
decreasing_by simp only [List.length_drop, List.length_cons]; omega

/-- bincode's text for a failed read. -/
def bincodeText : ReadError → String
  | .eofInNumber => "io error: unexpected end of file"
  | .eofInBytes => "io error: "
  | .invalidUtf8 bytes => "string is not valid utf8: " ++ utf8ErrorText 0 bytes

/-! ## Two primitive types -/

/-- The identifiers of `u64` and `String`. -/
inductive PrimitiveType
  | u64
  | string
  deriving DecidableEq, Repr

/-- The universe of `u64` and `String`, in bincode's fixed-width encoding; trailing bytes are
accepted. -/
def primitiveTypes : TypeUniverse where
  TypeId := PrimitiveType
  decEq := inferInstance
  El
    | .u64 => UInt64
    | .string => String
  typeName
    | .u64 => "u64"
    | .string => "alloc::string::String"
  default
    | .u64 => (0 : UInt64)
    | .string => ""
  serialize
    | .u64, (n : UInt64) => .ok (u64.write n.toNat)
    | .string, (s : String) => .ok (text.write s)
  deserialize
    | .u64, bs => ((u64.read bs).map fun r => UInt64.ofNat r.1).mapError bincodeText
    | .string, bs => ((text.read bs).map Prod.fst).mapError bincodeText
  readErrorText := bincodeText
  versionOrder _ versions := versions.sort (· ≤ ·)
  versionOrder_enumerates _ versions := Finset.sort_eq versions _

/-- A `u64` value. -/
def u64Value (n : UInt64) : ContextValue primitiveTypes := ⟨.u64, n⟩

end DContext
