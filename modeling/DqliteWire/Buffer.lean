import DqliteWire.Exceptions

/-! The read buffer: a byte array with a cursor. A call returns what the method returns or raises,
together with the buffer it leaves behind. -/

namespace DqliteWire

open WireLib

def compactThreshold : Nat := 4096

structure ReadBuffer where
  data : Bytes
  pos : Nat
  maxMessageSize : Nat
  skipRemaining : Nat
  poisoned : Option Exn
  poisonAfterSkip : Option Exn
  deriving DecidableEq, Repr

namespace ReadBuffer

def defaultMaxMessageSize : Nat := 64 * 1024 * 1024
def maxMessageSizeCeiling : Nat := 0xFFFFFFFF

def fresh (maxMessageSize : Nat) : ReadBuffer :=
  { data := [], pos := 0, maxMessageSize, skipRemaining := 0, poisoned := none,
    poisonAfterSkip := none }

def aboveCeiling (maxMessageSize : Int) : Exn :=
  .valueError ["max_message_size must be <= ", maxMessageSizeCeiling, " (UINT32_MAX bytes; the C ",
    "server's per-frame ceiling at dqlite-upstream/src/conn.c:169 rejects any single frame above ",
    "this bound), got ", maxMessageSize]

def new (maxMessageSize : Int := defaultMaxMessageSize) : Except Exn ReadBuffer := do
  raiseIf (maxMessageSize < 1)
    (.valueError ["max_message_size must be >= 1, got ", maxMessageSize])
  raiseIf ((maxMessageSizeCeiling : Int) < maxMessageSize) (aboveCeiling maxMessageSize)
  return fresh maxMessageSize.toNat

def isPoisoned (b : ReadBuffer) : Bool := b.poisoned.isSome

def poison (b : ReadBuffer) (error : Exn) : ReadBuffer :=
  if b.poisoned = none then { b with poisoned := some error } else b

def reset (b : ReadBuffer) : ReadBuffer :=
  { b with data := [], pos := 0, skipRemaining := 0, poisoned := none, poisonAfterSkip := none }

def clear (b : ReadBuffer) : ReadBuffer := b.reset

def poisonedError (cause : Exn) : Exn :=
  .poisonedError ["buffer is poisoned; call reset() and reconnect"] cause

def checkPoisoned (b : ReadBuffer) : Except Exn Unit :=
  match b.poisoned with
  | some cause => .error (poisonedError cause)
  | none => .ok ()

/-- `len(self._data) - self._pos`; the cursor never passes the end of the data. -/
def available (b : ReadBuffer) : Nat := b.data.length - b.pos

def isSkipping (b : ReadBuffer) : Bool := decide (0 < b.skipRemaining)

def slice (b : ReadBuffer) (n : Nat) : Bytes := (b.data.drop b.pos).take n

def advance (b : ReadBuffer) (n : Nat) : ReadBuffer := { b with pos := b.pos + n }

def tornHeader (sizeWords : Nat) : Exn :=
  .decodeError ["torn header read: size_words=", .hex sizeWords, " (>32 bits, indicates concurrent ",
    "misuse on a free-threaded build)"]

def checkTornSize (b : ReadBuffer) (sizeWords : Nat) : Except Exn Unit × ReadBuffer :=
  if 0xFFFFFFFF < sizeWords then (.error (tornHeader sizeWords), b.poison (tornHeader sizeWords))
  else (.ok (), b)

def tooLarge (totalSize cap : Nat) : Exn :=
  .decodeError ["Message size ", .hex totalSize, " bytes exceeds maximum ", cap]

def maybeCompact (b : ReadBuffer) : ReadBuffer :=
  if b.pos ≤ compactThreshold then b
  else if b.pos < b.data.length / 2 then b
  else { b with data := b.data.drop b.pos, pos := 0 }

/-- What both size guards of `feed` do before they raise: with wire state in flight the buffer
poisons itself, as `reset()` would lose the bytes it holds. -/
def rejectFeed (b : ReadBuffer) (error : Exn) : ReadBuffer :=
  if 0 < b.skipRemaining ∨ 0 < b.available then
    let b := if 0 < b.skipRemaining then { b with skipRemaining := 0, poisonAfterSkip := none }
      else b
    b.poison error
  else b

def chunkTooLarge (size cap : Nat) : Exn :=
  .decodeError ["feed data (", size, ") exceeds 2x max_message_size (", cap,
    "); split into smaller chunks"]

def bufferTooLarge (projected cap : Nat) : Exn :=
  .decodeError ["Buffer size ", projected, " exceeds maximum ", cap]

/-- The skip counter after `n` more discarded bytes. The deferred poison fires once the capped
skip has discarded all it was to discard. -/
def countDiscarded (b : ReadBuffer) (n : Nat) : ReadBuffer :=
  let b := { b with skipRemaining := b.skipRemaining - n }
  match b.poisonAfterSkip with
  | some cause =>
    if b.skipRemaining = 0 then { b with poisoned := some cause, poisonAfterSkip := none } else b
  | none => b

def extend (b : ReadBuffer) (data : Bytes) : ReadBuffer := { b with data := b.data ++ data }

def feed (b : ReadBuffer) (data : Bytes) : Except Exn Unit × ReadBuffer :=
  match b.checkPoisoned with
  | .error e => (.error e, b)
  | .ok () =>
    if 2 * b.maxMessageSize < data.length then
      let err := chunkTooLarge data.length b.maxMessageSize
      (.error err, b.rejectFeed err)
    else
      let effectiveLen := if 0 < b.skipRemaining then data.length - b.skipRemaining else data.length
      let projected := b.available + effectiveLen
      if b.maxMessageSize < projected then
        let err := bufferTooLarge projected b.maxMessageSize
        (.error err, b.rejectFeed err)
      else if 0 < b.skipRemaining then
        let discard := min data.length b.skipRemaining
        let data := data.drop discard
        let b := b.countDiscarded discard
        if data = [] then (.ok (), b) else (.ok (), b.maybeCompact.extend data)
      else (.ok (), b.maybeCompact.extend data)

def hasMessage (b : ReadBuffer) : Bool :=
  if b.available < headerSize then false
  else
    let sizeWords := fromLE (b.slice 4)
    if 0xFFFFFFFF < sizeWords then true
    else
      let totalSize := headerSize + sizeWords * wordSize
      if b.maxMessageSize < totalSize then true else decide (totalSize ≤ b.available)

def peekHeader (b : ReadBuffer) : Except Exn (Option (Nat × Nat × Nat)) × ReadBuffer :=
  match b.checkPoisoned with
  | .error e => (.error e, b)
  | .ok () =>
    if b.available < headerSize then (.ok none, b)
    else
      let sizeWords := fromLE (b.slice 4)
      match b.checkTornSize sizeWords with
      | (.error e, b) => (.error e, b)
      | (.ok (), b) =>
        let totalSize := headerSize + sizeWords * wordSize
        if b.maxMessageSize < totalSize then (.error (tooLarge totalSize b.maxMessageSize), b)
        else
          match b.data[b.pos + 4]?, b.data[b.pos + 5]? with
          | some msgType, some schema => (.ok (some (sizeWords, msgType.toNat, schema.toNat)), b)
          | _, _ => (.error (.indexError ["bytearray index out of range"]), b)

def readMessage (b : ReadBuffer) : Except Exn (Option Bytes) × ReadBuffer :=
  match b.checkPoisoned with
  | .error e => (.error e, b)
  | .ok () =>
    if b.available < headerSize then (.ok none, b)
    else
      let sizeWords := fromLE (b.slice 4)
      match b.checkTornSize sizeWords with
      | (.error e, b) => (.error e, b)
      | (.ok (), b) =>
        let totalSize := headerSize + sizeWords * wordSize
        if b.maxMessageSize < totalSize then (.error (tooLarge totalSize b.maxMessageSize), b)
        else if b.available < totalSize then (.ok none, b)
        else
          let message := b.slice totalSize
          (.ok (some message), (b.advance totalSize).maybeCompact)

def skipCapped (effectiveTotal totalSize : Nat) : Exn :=
  .decodeError ["Oversized message skip capped to ", effectiveTotal, " of ", totalSize,
    " bytes; stream is desynchronized. Call reset()."]

def skipMessage (b : ReadBuffer) : Except Exn Bool × ReadBuffer :=
  match b.checkPoisoned with
  | .error e => (.error e, b)
  | .ok () =>
    if b.available < headerSize then (.ok false, b)
    else
      let sizeWords := fromLE (b.slice 4)
      match b.checkTornSize sizeWords with
      | (.error e, b) => (.error e, b)
      | (.ok (), b) =>
        let totalSize := headerSize + sizeWords * wordSize
        if totalSize ≤ b.maxMessageSize ∧ b.available < totalSize then (.ok false, b)
        else if totalSize ≤ b.maxMessageSize then
          let b := (b.advance totalSize).maybeCompact
          (.ok (decide (b.skipRemaining = 0)), b)
        else
          let effectiveTotal := min totalSize b.maxMessageSize
          let skipNow := min effectiveTotal b.available
          let b : ReadBuffer :=
            { b.advance skipNow with skipRemaining := effectiveTotal - skipNow }
          let capped := skipCapped effectiveTotal totalSize
          if effectiveTotal < totalSize then
            if b.skipRemaining = 0 then (.ok false, (b.poison capped).maybeCompact)
            else
              let b := { b with poisonAfterSkip := some capped }.maybeCompact
              (.ok (decide (b.skipRemaining = 0)), b)
          else
            let b := b.maybeCompact
            (.ok (decide (b.skipRemaining = 0)), b)

def negativeCount (n : Int) : Exn := .valueError ["n must be non-negative, got ", n]

def readBytes (b : ReadBuffer) (n : Int) : Except Exn (Option Bytes) × ReadBuffer :=
  if n < 0 then (.error (negativeCount n), b)
  else
    match b.checkPoisoned with
    | .error e => (.error e, b)
    | .ok () =>
      if b.available < n.toNat then (.ok none, b)
      else
        let data := b.slice n.toNat
        (.ok (some data), (b.advance n.toNat).maybeCompact)

def peekBytes (b : ReadBuffer) (n : Int) : Except Exn (Option Bytes) :=
  if n < 0 then .error (negativeCount n)
  else
    match b.checkPoisoned with
    | .error e => .error e
    | .ok () => if b.available < n.toNat then .ok none else .ok (some (b.slice n.toNat))

end ReadBuffer

inductive BufferOp
  | feed (data : Bytes)
  | hasMessage
  | peekHeader
  | readMessage
  | skipMessage
  | readBytes (n : Int)
  | peekBytes (n : Int)
  | poison (error : Exn)
  | reset
  | clear
  deriving DecidableEq, Repr

inductive BufferValue
  | unit
  | bool (value : Bool)
  | header (value : Option (Nat × Nat × Nat))
  | bytes (value : Option Bytes)
  deriving DecidableEq, Repr

abbrev BufferReply := Except Exn BufferValue

def ReadBuffer.step (b : ReadBuffer) : BufferOp → BufferReply × ReadBuffer
  | .feed data => ((b.feed data).1.map fun _ => .unit, (b.feed data).2)
  | .hasMessage => (.ok (.bool b.hasMessage), b)
  | .peekHeader => (b.peekHeader.1.map .header, b.peekHeader.2)
  | .readMessage => (b.readMessage.1.map .bytes, b.readMessage.2)
  | .skipMessage => (b.skipMessage.1.map .bool, b.skipMessage.2)
  | .readBytes n => ((b.readBytes n).1.map .bytes, (b.readBytes n).2)
  | .peekBytes n => ((b.peekBytes n).map .bytes, b)
  | .poison error => (.ok .unit, b.poison error)
  | .reset => (.ok .unit, b.reset)
  | .clear => (.ok .unit, b.clear)

end DqliteWire
