import DqliteWire.Values

/-! The exception classes. A message text is kept as the parts of its f-string, so that every
interpolated value stays readable; rendering the parts is left to the language. -/

namespace DqliteWire

open WireLib WireLib.Utf8

inductive Fmt
  | lit (text : String)
  | int (value : Int)
  /-- a value formatted with `:#x` -/
  | hex (value : Int)
  | bytesHex (data : Bytes)
  /-- a string formatted with `!r` -/
  | repr (value : Str)
  | reprs (values : List Str)
  /-- `_bounded_repr(value)` -/
  | boundedRepr (value : Int)
  /-- `_bounded_repr_any(value)` -/
  | boundedReprAny (value : WireInput)
  /-- the rendering of a `UnicodeDecodeError` -/
  | undecodable (start : Nat) (bytes : Bytes) (reason : Reason)
  /-- the rendering of a `UnicodeEncodeError` -/
  | unencodable (position : Nat)
  deriving DecidableEq, Repr

abbrev Text := List Fmt

instance : Coe String Fmt := ⟨Fmt.lit⟩
instance : Coe Nat Fmt := ⟨fun n => Fmt.int n⟩
instance : Coe Int Fmt := ⟨Fmt.int⟩

/-- What a call can raise: the package's own classes, and the built-in classes that its code
raises, lets through or stores as a poison cause. -/
inductive Exn
  | encodeError (text : Text)
  | decodeError (text : Text)
  | streamError (text : Text) (frameCount totalRows : Nat)
  | poisonedError (text : Text) (cause : Exn)
  | handshakeError (text : Text)
  | continuationError (text : Text)
  | serverFailure (code : Int) (message : Str)
  | valueError (text : Text)
  | typeError (text : Text)
  | indexError (text : Text)
  | structError (text : Text)
  | runtimeError (text : Text)
  | unicodeDecodeError (start : Nat) (bytes : Bytes) (reason : Reason)
  | keyboardInterrupt
  /-- not an exception: a loop of the model that outran its bound -/
  | outOfFuel
  deriving DecidableEq, Repr

def Exn.isProtocolError : Exn → Bool
  | .encodeError _ | .decodeError _ | .streamError _ _ _ | .poisonedError _ _
  | .handshakeError _ | .continuationError _ | .serverFailure _ _ => true
  | _ => false

def Exn.isException : Exn → Bool
  | .keyboardInterrupt | .outOfFuel => false
  | _ => true

def Exn.isDecodeError : Exn → Bool
  | .decodeError _ => true
  | _ => false

def RaisesDecodeError {α : Type} (x : Except Exn α) : Prop :=
  ∃ text, x = .error (.decodeError text)

theorem decodeError_congr {α β : Type} {x : Except Exn α} {y : Except Exn β}
    (same : ∀ e, x = .error e ↔ y = .error e) : RaisesDecodeError x ↔ RaisesDecodeError y :=
  exists_congr fun _ => same _

/-- `if condition: raise error` -/
def raiseIf (condition : Prop) [Decidable condition] (error : Exn) : Except Exn Unit :=
  if condition then .error error else .ok ()

theorem raiseIf_neg {condition : Prop} [Decidable condition] {error : Exn}
    (clear : ¬ condition) : raiseIf condition error = .ok () := if_neg clear

theorem raiseIf_eq_ok {condition : Prop} [Decidable condition] {error : Exn} {u : Unit} :
    raiseIf condition error = .ok u ↔ ¬ condition := by
  by_cases held : condition <;> simp [raiseIf, held]

theorem ok_bind {α β : Type} (a : α) (f : α → Except Exn β) : (Except.ok a >>= f) = f a := rfl

theorem error_bind {α β : Type} (e : Exn) (f : α → Except Exn β) :
    (Except.error e >>= f) = .error e := rfl

theorem bind_eq_ok {α β : Type} {x : Except Exn α} {f : α → Except Exn β} {b : β} :
    (x >>= f) = .ok b ↔ ∃ a, x = .ok a ∧ f a = .ok b := by
  cases x with
  | error e => simp [error_bind]
  | ok a => simp [ok_bind]

end DqliteWire
