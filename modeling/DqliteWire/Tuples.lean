import DqliteWire.Types

/-! Params tuples, row headers and row values. -/

namespace DqliteWire

open WireLib WireLib.Utf8

inductive RowMarker
  | done | part
  deriving DecidableEq, Repr

def rowDoneMarker : Bytes := List.replicate 8 rowDoneByte
def rowPartMarker : Bytes := List.replicate 8 rowPartByte

/-- `_NIBBLE_TO_VALUETYPE` -/
def nibbleToValueType (nibble : Nat) : Option ValueType := ValueType.ofCode nibble

section Encode

variable (isoError : Str → Option String)

def encodeParams : Nat → List WireInput → Except Exn (List ValueType × List Bytes)
  | _, [] => .ok ([], [])
  | i, param :: rest => do
    let (encoded, valueType) ← encodeValue isoError param
    raiseIf (valueType = .unixtime)
      (.encodeError ["Parameter ", i, " resolved to UNIXTIME, which the server cannot decode; ",
        "use INTEGER or ISO8601 instead"])
    let (types, values) ← encodeParams (i + 1) rest
    return (valueType :: types, encoded :: values)

def encodeParamsTuple (params : List WireInput) (schema : Int := 0) (bufferOffset : Nat := 0)
    (emitEmptyHeader : Bool := false) : Except Exn Bytes := do
  raiseIf (schema ≠ 0 ∧ schema ≠ 1)
    (.encodeError ["Unsupported params tuple schema version: ", schema, " (expected 0 or 1)"])
  raiseIf (maxParamCount < params.length)
    (.encodeError ["Parameter count ", params.length, " exceeds maximum (", maxParamCount, ")"])
  if params = [] then
    return if emitEmptyHeader then zeros 8 else []
  else
    let (types, values) ← encodeParams isoError 0 params
    let count ← if schema = 1 then .ok (toLE 4 params.length)
      else if 255 < params.length then
        .error (.encodeError ["V0 params tuple supports at most 255 parameters, got ",
          params.length, ". Use schema=1 for larger parameter lists."])
      else .ok [UInt8.ofNat params.length]
    let header := count ++ types.map fun t => UInt8.ofNat t.code
    let padding := padToWord (bufferOffset + header.length)
    return header ++ zeros padding ++ values.flatten

def encodeCells : List (WireInput × ValueType) → Except Exn Bytes
  | [] => .ok []
  | (value, valueType) :: cells => do
    let (encoded, _) ← encodeValue isoError value (some valueType)
    let rest ← encodeCells cells
    return encoded ++ rest

def encodeRowValues (values : List WireInput) (types : List ValueType) : Except Exn Bytes := do
  raiseIf (values.length ≠ types.length)
    (.encodeError ["Row values count (", values.length, ") does not match types count (",
      types.length, ")"])
  encodeCells isoError (values.zip types)

end Encode

def decodeParamTypes (data : Bytes) (countSize : Nat) : Nat → Nat → Except Exn (List ValueType)
  | _, 0 => .ok []
  | i, remaining + 1 => do
    let rawType ← byteAt data (countSize + i)
    match ValueType.ofCode rawType.toNat with
    | none => .error (.decodeError ["Invalid value type code ", rawType.toNat, " at param index ", i])
    | some .unixtime => .error (.decodeError ["UNIXTIME tag at param index ", i,
        ": server-to-client only; the upstream C gateway rejects DQLITE_UNIXTIME on inbound ",
        "params with DQLITE_PARSE"])
    | some valueType => do
      let rest ← decodeParamTypes data countSize (i + 1) remaining
      return valueType :: rest

def decodeValues (source : Source) (textErrors : Handler) (data : Bytes) :
    Nat → List ValueType → Except Exn (List WireValue × Nat)
  | offset, [] => .ok ([], offset)
  | offset, valueType :: types => do
    let (value, consumed) ← decodeValue source (data.drop offset) valueType textErrors
    let (values, last) ← decodeValues source textErrors data (offset + consumed) types
    return (value :: values, last)

/-- The part of `decode_params_tuple` after the count is known. -/
def decodeParamsBody (source : Source) (data : Bytes) (countSize count bufferOffset : Nat) :
    Except Exn (List WireValue × Nat) := do
  raiseIf (maxParamCount < count)
    (.decodeError ["Parameter count ", count, " exceeds maximum (", maxParamCount, ")"])
  let headerLen := countSize + count
  let paddedHeaderLen := headerLen + padToWord (bufferOffset + headerLen)
  raiseIf (data.length < paddedHeaderLen)
    (.decodeError ["Not enough data for param types: need ", paddedHeaderLen, ", got ",
      data.length])
  let types ← decodeParamTypes data countSize 0 count
  decodeValues source .strict data paddedHeaderLen types

def decodeParamsTuple (source : Source) (data : Bytes) (count : Option Nat := none)
    (schema : Nat := 0) (bufferOffset : Nat := 0) : Except Exn (List WireValue × Nat) := do
  raiseIf (schema ≠ 0 ∧ schema ≠ 1)
    (.decodeError ["Unsupported params tuple schema version: ", schema, " (expected 0 or 1)"])
  if data.length = 0 then
    match count with
    | some (n + 1) => .error (.decodeError ["Expected data for ", (n + 1 : Nat),
        " parameters, but data is empty"])
    | _ => return ([], 0)
  else if data.length < 8 then
    if count = some 0 then return ([], 0)
    else .error (.decodeError ["Not enough data for params tuple header: got ", data.length])
  else
    match count with
    | none => do
      let countSize := if schema = 1 then 4 else 1
      let count ← if schema = 1 then unpack 4 (data.take 4) else UInt8.toNat <$> byteAt data 0
      if count = 0 then
        return ([], countSize + padToWord (bufferOffset + countSize))
      else decodeParamsBody source data countSize count bufferOffset
    | some 0 => return ([], 0)
    | some (n + 1) => decodeParamsBody source data 0 (n + 1) bufferOffset

def checkTypeCodes : Nat → List ValueType → Except Exn Unit
  | _, [] => .ok ()
  | i, t :: rest => do
    raiseIf (15 < t.code)
      (.encodeError ["Value type ", t.name, " at index ", i,
        " exceeds 4-bit nibble range (max 15)"])
    raiseIf (ValueType.ofCode t.code = none)
      (.encodeError ["Invalid type code ", t.code, " at index ", i, ": not a valid ValueType"])
    checkTypeCodes (i + 1) rest

/-- Two codes a byte, the first in the low nibble. -/
def packNibbles : List ValueType → Bytes
  | [] => []
  | [low] => [UInt8.ofNat low.code]
  | low :: high :: rest => UInt8.ofNat (high.code * 16 + low.code) :: packNibbles rest

def encodeRowHeader (types : List ValueType) : Except Exn Bytes := do
  if types = [] then return []
  else
    checkTypeCodes 0 types
    let header := packNibbles types
    return header ++ zeros (padToWord header.length)

def decodeRowTypes (data : Bytes) : Nat → Nat → Except Exn (List ValueType)
  | _, 0 => .ok []
  | i, remaining + 1 => do
    let byte ← byteAt data (i / 2)
    let nibble := if i % 2 = 0 then byte.toNat % 16 else byte.toNat / 16 % 16
    match nibbleToValueType nibble with
    | none => .error (.decodeError ["Invalid value type code ", nibble, " at column index ", i])
    | some valueType => do
      let rest ← decodeRowTypes data (i + 1) remaining
      return valueType :: rest

def decodeRowHeader (data : Bytes) (columnCount : Nat) :
    Except Exn ((List ValueType ⊕ RowMarker) × Nat) := do
  let prefix8 := data.take 8
  if 8 ≤ data.length ∧ prefix8 = rowDoneMarker then return (.inr .done, 8)
  else if 8 ≤ data.length ∧ prefix8 = rowPartMarker then return (.inr .part, 8)
  else
    let bytesForTypes := (columnCount + 1) / 2
    let headerSize := bytesForTypes + padToWord bytesForTypes
    raiseIf (data.length < headerSize)
      (.decodeError ["Not enough data for row header: need ", headerSize, ", got ", data.length])
    let types ← decodeRowTypes data 0 columnCount
    return (.inl types, headerSize)

def decodeRowValues (source : Source) (data : Bytes) (types : List ValueType)
    (textErrors : Handler := .strict) : Except Exn (List WireValue × Nat) :=
  decodeValues source textErrors data 0 types

end DqliteWire
