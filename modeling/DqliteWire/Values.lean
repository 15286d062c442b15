import DqliteWire.Constants

/-! The values cells and parameters can hold. A float is its 64-bit pattern. -/

namespace DqliteWire

open WireLib WireLib.Utf8

inductive WireValue
  | none
  | bool (value : Bool)
  | int (value : Int)
  | float (bits : BitVec 64)
  | str (value : Str)
  | bytes (value : Bytes)
  deriving DecidableEq, Repr

/-- A memoryview as the encoders see it: `len` counts first-dimension elements, `raw` is
`tobytes()`; a released view answers no query. -/
structure MemoryView where
  format : String
  itemsize : Nat
  len : Nat
  raw : Bytes
  released : Bool
  deriving DecidableEq, Repr

structure Mmap where
  raw : Bytes
  closed : Bool
  deriving DecidableEq, Repr

inductive WireInput
  | value (v : WireValue)
  | bytearray (value : Bytes)
  | memoryview (view : MemoryView)
  | mmap (map : Mmap)
  deriving DecidableEq, Repr

/-- `type(value).__name__` -/
def WireInput.typeName : WireInput → String
  | .value .none => "NoneType"
  | .value (.bool _) => "bool"
  | .value (.int _) => "int"
  | .value (.float _) => "float"
  | .value (.str _) => "str"
  | .value (.bytes _) => "bytes"
  | .bytearray _ => "bytearray"
  | .memoryview _ => "memoryview"
  | .mmap _ => "mmap"

end DqliteWire
