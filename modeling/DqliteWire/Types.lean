import DqliteWire.Exceptions

/-! Primitive encoders and decoders. -/

namespace DqliteWire

open WireLib WireLib.Utf8

def nullCellWidth : Nat := 8

/-- `struct.unpack` of one unsigned little-endian integer. -/
def unpack (width : Nat) (data : Bytes) : Except Exn Nat :=
  if data.length = width then .ok (fromLE data)
  else .error (.structError ["unpack requires a buffer of ", width, " bytes"])

def byteAt (data : Bytes) (i : Nat) : Except Exn UInt8 :=
  match data[i]? with
  | some byte => .ok byte
  | none => .error (.indexError ["index out of range"])

/-- `data.find(b"\x00")` -/
def findNul (data : Bytes) : Option Nat := data.findIdx? (· == 0)

def zeros (n : Nat) : Bytes := List.replicate n 0

def validateUint (bits : Nat) (name : String) (value : Int) : Except Exn Unit :=
  raiseIf (¬ (0 ≤ value ∧ value < 2 ^ bits))
    (.encodeError [name, "=", .boundedRepr value, " out of range for uint", bits, " (0 to ",
      ((2 ^ bits - 1 : Nat) : Int), ")"])

def validateUint64 (name : String) (value : Int) : Except Exn Unit := validateUint 64 name value

def validateUint32 (name : String) (value : Int) : Except Exn Unit := validateUint 32 name value

def validateInt64 (value : Int) : Except Exn Unit :=
  raiseIf (¬ (-2 ^ 63 ≤ value ∧ value < 2 ^ 63))
    (.encodeError ["Value ", .boundedRepr value, " out of range for int64"])

def encodeUint64 (value : Int) : Except Exn Bytes := do
  validateUint64 "value" value
  return toLE 8 value.toNat

/-- The three 8-byte readers differ in how they interpret the word and in the error label. -/
def decodeWord (data : Bytes) (label : String) : Except Exn Nat := do
  raiseIf (data.length < 8) (.decodeError ["Need 8 bytes for ", label, ", got ", data.length])
  unpack 8 (data.take 8)

def decodeUint64 (data : Bytes) (label : String := "uint64") : Except Exn Nat :=
  decodeWord data label

def encodeInt64 (value : Int) : Except Exn Bytes := do
  validateInt64 value
  return toLE 8 (value % 2 ^ 64).toNat

def signed64 (word : Nat) : Int := if word < 2 ^ 63 then word else (word : Int) - 2 ^ 64

def decodeInt64 (data : Bytes) (label : String := "int64") : Except Exn Int := do
  let word ← decodeWord data label
  return signed64 word

def encodeUint32 (value : Int) : Except Exn Bytes := do
  validateUint32 "value" value
  return toLE 4 value.toNat

def decodeUint32 (data : Bytes) : Except Exn Nat := do
  raiseIf (data.length < 4) (.decodeError ["Need 4 bytes for uint32, got ", data.length])
  unpack 4 (data.take 4)

def encodeDouble (value : WireInput) : Except Exn Bytes :=
  match value with
  | .value (.bool _) => .error (.encodeError ["encode_double rejects bool, got ", .boundedReprAny value])
  | .value (.float bits) => .ok (toLE 8 bits.toNat)
  | other => .error (.encodeError ["encode_double requires float, got ", other.typeName,
      "; cast with float(x) explicitly if int / numeric-proxy semantics are intended."])

def decodeDouble (data : Bytes) (label : String := "double") : Except Exn (BitVec 64) := do
  let word ← decodeWord data label
  return BitVec.ofNat 64 word

def padToWord (size : Nat) : Nat :=
  let remainder := size % wordSize
  if remainder = 0 then 0 else wordSize - remainder

def encodeText (value : Str) (maxSize : Option Nat := none) (label : String := "Text") :
    Except Exn Bytes := do
  let utf8 ← match Utf8.encode value with
    | .ok bytes => .ok bytes
    | .error position => .error (.encodeError ["Text cannot be encoded as UTF-8 (likely a lone ",
        "surrogate or surrogate-escape character): ", .unencodable position])
  raiseIf (∃ cap ∈ maxSize, cap < utf8.length)
    (.encodeError [label, " length ", utf8.length, " exceeds maximum (", maxSize.getD 0, ")"])
  match findNul utf8 with
  | some offset => .error (.encodeError ["Text value contains embedded null byte at byte offset ",
      offset, "; null-terminated encoding would lose data"])
  | none =>
    let padding := padToWord (utf8.length + 1)
    return utf8 ++ zeros (1 + padding)

def textOneShotMax : Nat := 65536
def textScanChunk : Nat := 4096
def textShortProbe : Nat := 256

/-- `bytes.decode("utf-8", errors=...)` -/
def bytesDecode (errors : Handler) (data : Bytes) : Except Exn Str :=
  match Utf8.decode errors data with
  | .ok text => .ok text
  | .error (.invalid start bytes reason) => .error (.unicodeDecodeError start bytes reason)
  | .error .handlerRefusesDecoding =>
    .error (.typeError ["don't know how to handle UnicodeDecodeError in error callback"])

section DecodeText

-- `decode` stands for `bytes.decode` with the caller's error handler
variable (decode : Bytes → Except Exn Str) (label : String)

/-- `try: decode except UnicodeDecodeError: raise DecodeError` -/
def decodeUtf8 (data : Bytes) : Except Exn Str :=
  match decode data with
  | .error (.unicodeDecodeError start bytes reason) =>
    .error (.decodeError ["Invalid UTF-8 in ", label, ": ", .undecodable start bytes reason])
  | other => other

def lengthExceeds (maxSize : Nat) : Exn :=
  .decodeError [label, " length exceeds maximum (", maxSize, ")"]

def notTerminated : Exn := .decodeError [label, " not null-terminated"]

/-- The common tail: the padding after the NUL must be there. -/
def finishText (dataLen : Nat) (text : Str) (nullPos : Nat) : Except Exn (Str × Nat) := do
  let totalSize := nullPos + 1 + padToWord (nullPos + 1)
  raiseIf (dataLen < totalSize)
    (.decodeError ["Not enough data for text padding: need ", totalSize, ", got ", dataLen])
  return (text, totalSize)

/-- The chunked scan: the position of the NUL and the chunks up to it. -/
def scanChunks (data : Bytes) (scanLimit scanned : Nat) (chunks : List Bytes) :
    Option (Nat × List Bytes) :=
  if scanned < scanLimit then
    let chunkEnd := min (scanned + textScanChunk) scanLimit
    let chunk := (data.drop scanned).take (chunkEnd - scanned)
    match findNul chunk with
    | some found => some (scanned + found, chunks ++ [chunk.take found])
    | none => scanChunks data scanLimit chunkEnd (chunks ++ [chunk])
  else none
termination_by scanLimit - scanned
decreasing_by
  simp only [textScanChunk]
  omega

def decodeTextView (data : Bytes) (maxSize : Nat) : Except Exn (Str × Nat) :=
  let dataLen := data.length
  let shortWindow := min (min dataLen (maxSize + 1)) textShortProbe
  let short := data.take shortWindow
  match findNul short with
  | some shortNull => do
    let text ← decodeUtf8 decode label (short.take shortNull)
    finishText dataLen text shortNull
  | none =>
    if maxSize + 1 ≤ shortWindow then .error (lengthExceeds label maxSize)
    else if dataLen ≤ shortWindow then .error (notTerminated label)
    else
      let probeWindow := min (min dataLen (maxSize + 1)) textOneShotMax
      let materialized := data.take probeWindow
      match findNul materialized with
      | some nullPos => do
        let text ← decodeUtf8 decode label (materialized.take nullPos)
        finishText dataLen text nullPos
      | none =>
        if maxSize + 1 ≤ probeWindow then .error (lengthExceeds label maxSize)
        else if dataLen ≤ probeWindow then .error (notTerminated label)
        else
          let scanLimit := min dataLen (maxSize + 1)
          match scanChunks data scanLimit probeWindow [materialized] with
          | none =>
            if scanLimit < dataLen then .error (lengthExceeds label maxSize)
            else .error (notTerminated label)
          | some (nullPos, chunks) => do
            let text ← decodeUtf8 decode label chunks.flatten
            finishText dataLen text nullPos

def decodeTextBytes (data : Bytes) (maxSize : Nat) : Except Exn (Str × Nat) :=
  let scanEnd := min data.length (maxSize + 1)
  match findNul (data.take scanEnd) with
  | none =>
    if scanEnd < data.length then .error (lengthExceeds label maxSize)
    else .error (notTerminated label)
  | some nullPos => do
    let text ← decodeUtf8 decode label (data.take nullPos)
    finishText data.length text nullPos

end DecodeText

/-- Which of the two buffer types a decoder was handed. -/
inductive Source
  | bytes | view
  deriving DecidableEq, Repr

def decodeText (source : Source) (data : Bytes) (maxSize : Nat := maxTextValueSize)
    (label : String := "Text") (errors : Handler := .strict) : Except Exn (Str × Nat) :=
  match source with
  | .view => decodeTextView (bytesDecode errors) label data maxSize
  | .bytes => decodeTextBytes (bytesDecode errors) label data maxSize

/-- A bytes-like value: what `len` says of it and the bytes it exposes. -/
structure BytesLike where
  len : Nat
  raw : Bytes
  deriving DecidableEq, Repr

def encodeBlob (value : BytesLike) (cap : Nat := maxBlobSize) : Except Exn Bytes := do
  let length := value.len
  raiseIf (cap < length)
    (.encodeError ["Blob length ", length, " exceeds maximum (", cap, ")"])
  let padding := padToWord length
  let buf := zeros (8 + length + padding)
  let word ← encodeUint64 length
  let buf := word ++ buf.drop 8
  -- slice assignment puts all raw bytes in place of the slice
  let buf := buf.take 8 ++ value.raw ++ buf.drop (8 + length)
  return buf

def decodeBlob (data : Bytes) (cap : Nat := maxBlobSize) : Except Exn (Bytes × Nat) := do
  raiseIf (data.length < 8) (.decodeError ["Not enough data for blob length"])
  let length ← decodeUint64 (data.take 8)
  raiseIf (cap < length)
    (.decodeError ["Blob length ", length, " exceeds maximum (", cap, ")"])
  let totalSize := 8 + length + padToWord length
  raiseIf (data.length < totalSize)
    (.decodeError ["Not enough data for blob: need ", totalSize, ", got ", data.length])
  return ((data.drop 8).take length, totalSize)

def inferValueType : WireInput → ValueType
  | .value .none => .null
  | .value (.bool _) => .boolean
  | .value (.int _) => .integer
  | .value (.float _) => .float
  | .value (.str _) => .text
  | .value (.bytes _) | .bytearray _ | .memoryview _ | .mmap _ => .blob

def byteFormats : List String := ["B", "b", "c"]

def rejectNonByteFormatMemoryview (view : MemoryView) : Except Exn Unit :=
  raiseIf (view.released = false ∧ view.format ∉ byteFormats)
    (.encodeError ["memoryview must have single-byte format ('B'/'b'/'c') to encode as BLOB; ",
      "got format='", view.format, "' itemsize=", view.itemsize, ". Typed numeric memoryviews ",
      "(e.g. memoryview(array.array('i', ...))) carry host-endian, host-int-width bytes and are ",
      "non-portable — identical hazard to the bare array.array rejection. Materialise to bytes via a ",
      "portable layout (e.g. struct.pack with '<' little-endian) before binding."])

section EncodeValue

-- the error `time.fromisoformat` raises where `datetime.fromisoformat` has failed as well
variable (isoError : Str → Option String)

def notBoolean (value : WireInput) : Exn :=
  .encodeError ["BOOLEAN requires bool (or exactly 0/1), got ", value.typeName, "=",
    .boundedReprAny value, ". Numeric proxies (numpy.int64, numpy.bool_, Decimal, Fraction, etc.) ",
    "are not int subclasses and must be coerced via int(x) or bool(x) at the bind site."]

def encodeBooleanValue (value : WireInput) : Except Exn Bytes :=
  match value with
  | .value (.bool b) => encodeUint64 (if b then 1 else 0)
  | .value (.int n) => if n = 0 ∨ n = 1 then encodeUint64 n else .error (notBoolean value)
  | other => .error (notBoolean other)

def encodeIntegerValue (value : WireInput) (valueType : ValueType) : Except Exn Bytes :=
  match value with
  | .value (.bool _) => .error (.encodeError ["Cannot encode bool as ", valueType.name,
      "; cast with int(x) explicitly if integer semantics are intended."])
  | .value (.int n) => encodeInt64 n
  | other => .error (.encodeError ["Expected int for ", valueType.name, ", got ", other.typeName])

def encodeFloatValue (value : WireInput) : Except Exn Bytes :=
  match value with
  | .value (.bool _) => .error (.encodeError ["Expected float for FLOAT, got ", value.typeName])
  | .value (.int _) => .error (.encodeError ["Cannot encode int as FLOAT; cast with float(x) ",
      "explicitly. Implicit coercion would silently lose precision for ints with absolute value ",
      ">= 2**53."])
  | other => encodeDouble other

def encodeTextValue (value : WireInput) (valueType : ValueType) : Except Exn Bytes :=
  match value with
  | .value (.str s) => do
    match (if valueType = .iso8601 then isoError s else none) with
    | some e => .error (.encodeError ["ISO8601 cell rejects non-ISO string ",
        .boundedReprAny value, ": ", e, ". Use ValueType.TEXT if the column is plain text, or ",
        "format the datetime via .isoformat() before binding."])
    | none => encodeText s (some maxTextValueSize) valueType.name
  | other => .error (.encodeError ["Expected str for ", valueType.name, ", got ", other.typeName])

/-- `value.nbytes` or `len(value)`, and `bytes(value)`; a released view and a closed map have
neither. -/
def blobContent : WireInput → Option Bytes
  | .value (.bytes b) => some b
  | .bytearray b => some b
  | .memoryview view => if view.released then none else some view.raw
  | .mmap map => if map.closed then none else some map.raw
  | _ => none

/-- What `bytes(value)` says where there is no content. -/
def materialiseError : WireInput → String
  | .mmap _ => "mmap closed or invalid"
  | _ => "operation forbidden on released memoryview object"

def isBytesLike : WireInput → Bool
  | .value (.bytes _) | .bytearray _ | .memoryview _ | .mmap _ => true
  | _ => false

def encodeBlobValue (value : WireInput) : Except Exn Bytes := do
  raiseIf (isBytesLike value = false)
    (.encodeError ["Expected bytes for BLOB, got ", value.typeName])
  match blobContent value with
  | none => .error (.encodeError ["Cannot materialise BLOB from ", value.typeName, ": ",
      materialiseError value])
  | some content =>
    raiseIf (maxBlobSize < content.length)
      (.encodeError ["Blob length ", content.length, " exceeds maximum (", maxBlobSize, ")"])
    encodeBlob ⟨content.length, content⟩

def encodeValue (value : WireInput) (valueType : Option ValueType := none) :
    Except Exn (Bytes × ValueType) :=
  match value with
  | .value .none =>
    match valueType with
    | none | some .null => .ok (zeros nullCellWidth, .null)
    | some other => .error (.encodeError ["Cannot encode None with explicit type ", other.name,
        ". Pass value_type=ValueType.NULL or omit value_type."])
  | value => do
    match value with
    | .memoryview view => rejectNonByteFormatMemoryview view
    | _ => .ok ()
    let valueType := valueType.getD (inferValueType value)
    let encoded ← match valueType with
      | .boolean => encodeBooleanValue value
      | .integer | .unixtime => encodeIntegerValue value valueType
      | .float => encodeFloatValue value
      | .text | .iso8601 => encodeTextValue isoError value valueType
      | .blob => encodeBlobValue value
      | .null => .error (.encodeError ["Cannot encode non-None value ", .boundedReprAny value,
          " as NULL. Pass value=None or use the appropriate ValueType."])
    return (encoded, valueType)

end EncodeValue

def decodeValue (source : Source) (data : Bytes) (valueType : ValueType)
    (textErrors : Handler := .strict) : Except Exn (WireValue × Nat) :=
  match valueType with
  | .integer => do
    let n ← decodeInt64 data "INTEGER cell"
    return (.int n, 8)
  | .float => do
    let bits ← decodeDouble data "FLOAT cell"
    return (.float bits, 8)
  | .text => do
    let (text, consumed) ← decodeText source data maxTextValueSize "TEXT" textErrors
    return (.str text, consumed)
  | .iso8601 => do
    let (text, consumed) ← decodeText source data maxTextValueSize "ISO8601" textErrors
    return (.str text, consumed)
  | .blob => do
    let (content, consumed) ← decodeBlob data
    return (.bytes content, consumed)
  | .null => do
    let _ ← decodeUint64 data "NULL cell"
    return (.none, nullCellWidth)
  | .unixtime => do
    let n ← decodeInt64 data "UNIXTIME cell"
    return (.int n, 8)
  | .boolean => do
    let raw ← decodeUint64 data "BOOLEAN cell"
    return (.bool (raw != 0), 8)

end DqliteWire
