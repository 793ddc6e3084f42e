/-
**Reading single MessagePack values.**

A cursor over bytes is the list of the bytes that are left.  Every read gives a result and the
bytes left after it, also when it fails: a marker is consumed before its kind is checked, a number
before its range, a number that is cut short takes everything with it, and a payload that is too
long is left alone.

A container is read by its header alone.  A count that the rest of the input cannot hold is refused
at once, one byte for each item or two for each entry being the least.

Main definitions:

* `HubGateway.MessagePack.Outcome` — a result and what is left;
* `HubGateway.MessagePack.readInt32`, `readInt64`, `readBoolean`, `readDouble`, `readNil`,
  `readString`, `readOptionalString`, `readBlob`, `skipExtension` — values that are read whole;
* `HubGateway.MessagePack.readArrayHeader`, `readMapHeader` — the counts of containers.
-/

import HubGateway.MessagePack.Marker
import HubGateway.MessagePack.Cause
import HubGateway.Binary64.Basic

set_option relaxedAutoImplicit false
set_option autoImplicit false

namespace HubGateway.MessagePack

/-- The result of a read and the bytes left after it. -/
abbrev Outcome (ε α : Type) := Except ε α × List UInt8

/-- An outcome with its result changed and its error worded anew. -/
def Outcome.map {ε ε' α β : Type} (error : ε → ε') (value : α → β) : Outcome ε α → Outcome ε' β
  | (.ok a, rest) => (.ok (value a), rest)
  | (.error e, rest) => (.error (error e), rest)

/-! ### Bytes and numbers -/

/-- Whether there are at least `n` bytes. -/
def hasAtLeast : Nat → List UInt8 → Bool
  | 0, _ => true
  | _ + 1, [] => false
  | n + 1, _ :: bytes => hasAtLeast n bytes

theorem hasAtLeast_iff (n : Nat) (bytes : List UInt8) : hasAtLeast n bytes ↔ n ≤ bytes.length := by
  induction n generalizing bytes with
  | zero => simp [hasAtLeast]
  | succ n ih =>
    cases bytes with
    | nil => simp [hasAtLeast]
    | cons b bytes => simp [hasAtLeast, ih]

/-- The number of big-endian bytes. -/
def bigEndian (bytes : List UInt8) : Nat := bytes.foldl (fun n b => n * 256 + b.toNat) 0

/-- A number of `width` bytes. -/
def takeNumber (width : Nat) (bytes : List UInt8) : Outcome Fault Nat :=
  if hasAtLeast width bytes then (.ok (bigEndian (bytes.take width)), bytes.drop width)
  else (.error .noData, [])

/-- The integer whose two's complement form of `width` bytes is `n`. -/
def twosComplement (width n : Nat) : Int :=
  let count := Nat.pow 256 width
  if 2 * n < count then n else (n : Int) - count

/-- A marker. -/
def takeMarker : List UInt8 → Outcome Fault Marker
  | [] => (.error .noMarker, [])
  | b :: rest => (.ok (.ofByte b), rest)

/-- A payload of `length` bytes. -/
def takePayload (length : Nat) (bytes : List UInt8) : Outcome Cause (List UInt8) :=
  if hasAtLeast length bytes then (.ok (bytes.take length), bytes.drop length)
  else (.error (.shortPayload length bytes.length), bytes)

/-! ### Scalars -/

/-- An integer in any of the integer forms. -/
def takeInteger (bytes : List UInt8) : Outcome Fault Int :=
  match takeMarker bytes with
  | (.error fault, rest) => (.error fault, rest)
  | (.ok marker, rest) =>
    match marker with
    | .fixPositive value => (.ok value, rest)
    | .fixNegative value => (.ok value, rest)
    | .unsigned width => (takeNumber width rest).map id Int.ofNat
    | .signed width => (takeNumber width rest).map id (twosComplement width)
    | _ => (.error .mismatch, rest)

/-- An integer from `low` on and below `high`. -/
def takeIntegerIn (low high : Int) (bytes : List UInt8) : Outcome Fault Int :=
  match takeInteger bytes with
  | (.ok value, rest) =>
    if low ≤ value ∧ value < high then (.ok value, rest) else (.error .outOfRange, rest)
  | (.error fault, rest) => (.error fault, rest)

/-- A 32-bit integer. -/
def readInt32 (bytes : List UInt8) : Outcome Cause Int32 :=
  (takeIntegerIn (-0x80000000) 0x80000000 bytes).map (.unreadable .int32) Int32.ofInt

/-- A 64-bit integer. -/
def readInt64 (bytes : List UInt8) : Outcome Cause Int64 :=
  (takeIntegerIn (-0x8000000000000000) 0x8000000000000000 bytes).map (.unreadable .int64) Int64.ofInt

/-- A truth value. -/
def readBoolean (bytes : List UInt8) : Outcome Cause Bool :=
  match takeMarker bytes with
  | (.ok (.boolean value), rest) => (.ok value, rest)
  | (.ok _, rest) => (.error (.unreadable .boolean .mismatch), rest)
  | (.error fault, rest) => (.error (.unreadable .boolean fault), rest)

/-- A floating-point number; one of single precision is widened. -/
def readDouble (bytes : List UInt8) : Outcome Cause Binary64 :=
  match takeMarker bytes with
  | (.ok .float32, rest) =>
    (takeNumber 4 rest).map (.unreadable .double) fun n => Binary64.ofBinary32 n.toUInt32
  | (.ok .float64, rest) =>
    (takeNumber 8 rest).map (.unreadable .double) fun n => ⟨n.toUInt64⟩
  | (.ok _, rest) => (.error (.unreadable .double .mismatch), rest)
  | (.error fault, rest) => (.error (.unreadable .double fault), rest)

/-- Nil. -/
def readNil (bytes : List UInt8) : Outcome Cause Unit :=
  match takeMarker bytes with
  | (.ok .nil, rest) => (.ok (), rest)
  | (.ok _, rest) => (.error (.unreadable .nil .mismatch), rest)
  | (.error fault, rest) => (.error (.unreadable .nil fault), rest)

/-! ### Strings, blobs and extensions -/

/-- The size that a marker of one kind tells, or that stands behind it. -/
def takeSize (size? : Marker → Option Size) (bytes : List UInt8) : Outcome Fault Nat :=
  match takeMarker bytes with
  | (.error fault, rest) => (.error fault, rest)
  | (.ok marker, rest) =>
    match size? marker with
    | some (.given n) => (.ok n, rest)
    | some (.behind width) => takeNumber width rest
    | none => (.error .mismatch, rest)

/-- The length of a string. -/
def takeStringLength : List UInt8 → Outcome Fault Nat := takeSize Marker.stringSize?

/-- The length of a blob. -/
def takeBlobLength : List UInt8 → Outcome Fault Nat := takeSize Marker.blobSize?

/-- The length of an extension's payload; its type byte is consumed with the header. -/
def takeExtensionLength (bytes : List UInt8) : Outcome Fault Nat :=
  match takeSize Marker.extensionSize? bytes with
  | (.ok length, rest) => (takeNumber 1 rest).map id fun _ => length
  | (.error fault, rest) => (.error fault, rest)

/-- A UTF-8 string. -/
def readString (bytes : List UInt8) : Outcome Cause String :=
  match takeStringLength bytes with
  | (.error fault, rest) => (.error (.unreadable .string fault), rest)
  | (.ok length, rest) =>
    match takePayload length rest with
    | (.error cause, rest) => (.error cause, rest)
    | (.ok payload, rest) =>
      match Utf8.decode payload with
      | .ok text => (.ok text, rest)
      | .error fault => (.error (.notText fault), rest)

/-- A UTF-8 string, or nil. -/
def readOptionalString (bytes : List UInt8) : Outcome Cause (Option String) :=
  match takeMarker bytes with
  | (.ok .nil, rest) => (.ok none, rest)
  | _ => (readString bytes).map id some

/-- A blob. -/
def readBlob (bytes : List UInt8) : Outcome Cause (List UInt8) :=
  match takeBlobLength bytes with
  | (.error fault, rest) => (.error (.unreadable .blob fault), rest)
  | (.ok length, rest) => takePayload length rest

/-- An extension, passed over whole. -/
def skipExtension (bytes : List UInt8) : Outcome Cause Unit :=
  match takeExtensionLength bytes with
  | (.error fault, rest) => (.error (.unreadable .extension fault), rest)
  | (.ok length, rest) => (takePayload length rest).map id fun _ => ()

/-! ### Container headers -/

/-- The count of an array, before it is compared with what is left. -/
def takeArrayCount : List UInt8 → Outcome Fault Nat := takeSize Marker.arraySize?

/-- The count of a map, before it is compared with what is left. -/
def takeMapCount : List UInt8 → Outcome Fault Nat := takeSize Marker.mapSize?

/-- A header whose count, `least` bytes for each, the rest can hold. -/
def checkCount (container : Container) (least : Nat) :
    Outcome Fault Nat → Outcome Cause Nat
  | (.error fault, rest) => (.error (.unreadableHeader container fault), rest)
  | (.ok count, rest) =>
    if hasAtLeast (count * least) rest then (.ok count, rest)
    else (.error (.shortContainer count rest.length), rest)

/-- The number of items of an array. -/
def readArrayHeader (bytes : List UInt8) : Outcome Cause Nat :=
  checkCount .array 1 (takeArrayCount bytes)

/-- The number of entries of a map. -/
def readMapHeader (bytes : List UInt8) : Outcome Cause Nat :=
  checkCount .map 2 (takeMapCount bytes)

end HubGateway.MessagePack
