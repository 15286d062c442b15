import DqliteWire.Tuples

/-! The frame header and the checks the message classes share. -/

namespace DqliteWire

open WireLib WireLib.Utf8

structure Header where
  sizeWords : Nat
  msgType : Nat
  schema : Nat
  reserved : Nat
  deriving DecidableEq, Repr

def Header.checkRange (field : String) (value : Int) (bits : Nat) : Except Exn Unit :=
  raiseIf (¬ (0 ≤ value ∧ value < 2 ^ bits))
    (.encodeError ["Header ", field, " ", value, " out of range for uint", bits])

/-- `Header(...)` of ints. The constructor refuses any other type first, a `bool` among them. -/
def Header.new (sizeWords msgType : Int) (schema : Int := 0) (reserved : Int := 0) :
    Except Exn Header := do
  checkRange "reserved field" reserved 16
  checkRange "size_words" sizeWords 32
  checkRange "msg_type" msgType 8
  checkRange "schema" schema 8
  return ⟨sizeWords.toNat, msgType.toNat, schema.toNat, reserved.toNat⟩

def Header.encode (h : Header) : Bytes :=
  toLE 4 h.sizeWords ++ toLE 1 h.msgType ++ toLE 1 h.schema ++ toLE 2 h.reserved

/-- `struct.unpack("<IBBH", data[:8])`, then the constructor. -/
def Header.decode (data : Bytes) : Except Exn Header := do
  raiseIf (data.length < headerSize)
    (.decodeError ["Need ", headerSize, " bytes for header, got ", data.length])
  let sizeWords ← unpack 4 (data.take 4)
  let msgType ← unpack 1 ((data.drop 4).take 1)
  let schema ← unpack 1 ((data.drop 5).take 1)
  let reserved ← unpack 2 ((data.drop 6).take 2)
  Header.new sizeWords msgType schema reserved

def Header.bodySize (h : Header) : Nat := h.sizeWords * wordSize

/-- `Message.encode`, given what the class's own methods return. -/
def encodeFrame (className : String) (msgType : Nat) (schema : Int) (encodeBody : Except Exn Bytes) :
    Except Exn Bytes := do
  let body ← encodeBody
  raiseIf (body.length % wordSize ≠ 0)
    (.encodeError [className, ".encode_body() returned ", body.length, " bytes; must be ",
      wordSize, "-aligned"])
  let header ← Header.new (body.length / wordSize : Nat) msgType schema
  return header.encode ++ body

def requireSchema (className : String) (schema : Nat) (allowed : List Nat := [0]) :
    Except Exn Unit :=
  raiseIf (schema ∉ allowed) (.decodeError [className, " unsupported schema version ", schema])

def requireLength (className : String) (data : Bytes) (size : Nat) : Except Exn Unit :=
  raiseIf (data.length ≠ size)
    (.decodeError [className, " body must be ", size, " bytes, got ", data.length])

def requireConsumed (className : String) (data : Bytes) (offset : Nat) : Except Exn Unit :=
  raiseIf (offset ≠ data.length)
    (.decodeError [className, " has ", .int (data.length - offset), " trailing bytes"])

end DqliteWire
