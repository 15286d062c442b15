import DqliteWire.Codec
import DqliteWire.Lib.Interrupt

/-! The buffer and the decoder at the granularity of source lines, for the exception that a signal
handler raises between two of them. A statement that runs over several lines counts as its first:
nothing is stored before its last. -/

namespace DqliteWire

open WireLib WireLib.Interruptible

/-- A line of `buffer.py`, `codec.py` or `exceptions.py`, by its number. -/
inductive Line
  | buffer (number : Nat)
  | codec (number : Nat)
  | exceptions (number : Nat)
  deriving DecidableEq, Repr

namespace Lines

/-- What an `except BaseException as e` clause binds. -/
def caught : Thrown Exn Line → Exn
  | .raised e => e
  | .interrupted _ => .keyboardInterrupt

def streamErrorInit {σ : Type} : Interruptible σ Exn Line Unit := do
  line (.exceptions 44)
  line (.exceptions 45)
  line (.exceptions 46)

def serverFailureInit {σ : Type} : Interruptible σ Exn Line Unit := do
  line (.exceptions 84)
  line (.exceptions 85)
  line (.exceptions 89)

section Buffer

abbrev BufferCode (α : Type) : Type := Interruptible ReadBuffer Exn Line α

def poison (error : Exn) : BufferCode Unit := do
  line (.buffer 63)
  let b ← get
  if b.poisoned = none then do
    line (.buffer 64)
    modify fun b => { b with poisoned := some error }
  else pure ()

def checkPoisoned : BufferCode Unit := do
  line (.buffer 75)
  let b ← get
  match b.poisoned with
  | some cause => do
    call (.buffer 76) streamErrorInit
    raise (ReadBuffer.poisonedError cause)
  | none => pure ()

def checkTornSize (sizeWords : Nat) : BufferCode Unit := do
  line (.buffer 86)
  if 0xFFFFFFFF < sizeWords then do
    line (.buffer 87)
    call (.buffer 91) (poison (ReadBuffer.tornHeader sizeWords))
    line (.buffer 92)
    raise (ReadBuffer.tornHeader sizeWords)
  else pure ()

/-- The `except BaseException as e` clause of five methods, with the number of its line and of the
first line under it. -/
def poisonAndRaise {α : Type} (method : String) (clause first : Nat) (t : Thrown Exn Line) :
    BufferCode α := do
  line (.buffer clause)
  line (.buffer first)
  let b ← get
  if b.poisoned = none then do
    line (.buffer (first + 1))
    line (.buffer (if (caught t).isException then first + 2 else first + 4))
    modify fun b => { b with poisoned := some (MessageDecoder.poisonCause method (caught t)) }
    line (.buffer (first + 5))
    reraise t
  else do
    line (.buffer (first + 5))
    reraise t

def compact : BufferCode Unit := do
  line (.buffer 389)
  let b ← get
  line (.buffer 390)
  modify fun c => { c with data := b.data.drop b.pos }
  line (.buffer 391)
  modify fun c => { c with pos := 0 }

def maybeCompact : BufferCode Unit := do
  line (.buffer 382)
  let b ← get
  if b.pos ≤ compactThreshold then line (.buffer 383)
  else do
    line (.buffer 386)
    if b.pos < b.data.length / 2 then line (.buffer 387)
    else do
      line (.buffer 388)
      tryExcept compact (poisonAndRaise "buffer compact" 392 393)

/-- The reject arms of `feed` below their condition, with the numbers of the line that looks for
wire state and of the first of the stores. -/
def rejectFeed (error : Exn) (look stores : Nat) : BufferCode Unit := do
  line (.buffer look)
  line (.buffer (look + 1))
  let b ← get
  if 0 < b.skipRemaining ∨ 0 < b.available then do
    line (.buffer (look + 2))
    if 0 < b.skipRemaining then do
      line (.buffer stores)
      modify fun b => { b with skipRemaining := 0 }
      line (.buffer (stores + 1))
      modify fun b => { b with poisonAfterSkip := none }
      call (.buffer (stores + 2)) (poison error)
      line (.buffer (stores + 3))
      raise error
    else do
      call (.buffer (stores + 2)) (poison error)
      line (.buffer (stores + 3))
      raise error
  else do
    line (.buffer (stores + 3))
    raise error

def append (data : Bytes) : BufferCode Unit := do
  call (.buffer 159) maybeCompact
  line (.buffer 160)
  modify fun b => b.extend data

def appendRest (data : Bytes) : BufferCode Unit := do
  line (.buffer 157)
  if data = [] then line (.buffer 158) else append data

/-- The `try` block of `feed`. -/
def absorb (data : Bytes) : BufferCode Unit := do
  line (.buffer 148)
  let b ← get
  if 0 < b.skipRemaining then do
    line (.buffer 149)
    let discard := min data.length b.skipRemaining
    line (.buffer 150)
    line (.buffer 151)
    modify fun b => { b with skipRemaining := b.skipRemaining - discard }
    line (.buffer 154)
    let b ← get
    if b.skipRemaining = 0 ∧ b.poisonAfterSkip ≠ none then do
      line (.buffer 155)
      modify fun b => { b with poisoned := b.poisonAfterSkip }
      line (.buffer 156)
      modify fun b => { b with poisonAfterSkip := none }
      appendRest (data.drop discard)
    else appendRest (data.drop discard)
  else append data

def feed (data : Bytes) : BufferCode Unit := do
  call (.buffer 106) checkPoisoned
  line (.buffer 111)
  let b ← get
  if 2 * b.maxMessageSize < data.length then do
    line (.buffer 112)
    rejectFeed (ReadBuffer.chunkTooLarge data.length b.maxMessageSize) 119 122
  else do
    line (.buffer 129)
    line (.buffer (if 0 < b.skipRemaining then 130 else 132))
    let effectiveLen := if 0 < b.skipRemaining then data.length - b.skipRemaining else data.length
    line (.buffer 133)
    let projected := b.available + effectiveLen
    line (.buffer 134)
    if b.maxMessageSize < projected then do
      line (.buffer 135)
      rejectFeed (ReadBuffer.bufferTooLarge projected b.maxMessageSize) 139 143
    else do
      line (.buffer 147)
      tryExcept (absorb data) (poisonAndRaise "feed" 161 164)

/-- The first lines of `read_message` and of `skip_message`: the size of the next frame, if its
header is there. -/
def nextSize (first : Nat) : BufferCode (Option Nat) := do
  call (.buffer first) checkPoisoned
  line (.buffer (first + 1))
  let b ← get
  line (.buffer (first + 2))
  if b.available < headerSize then do
    line (.buffer (first + 3))
    pure none
  else do
    line (.buffer (first + 5))
    let sizeWords := fromLE (b.slice 4)
    call (.buffer (first + 6)) (checkTornSize sizeWords)
    line (.buffer (first + 7))
    pure (some (headerSize + sizeWords * wordSize))

/-- The `try` blocks of `read_message` and `read_bytes`, by the number of their first line. -/
def consume (n first : Nat) : BufferCode Bytes := do
  line (.buffer first)
  let b ← get
  line (.buffer (first + 1))
  modify fun b => b.advance n
  call (.buffer (first + 2)) maybeCompact
  pure (b.slice n)

def readMessage : BufferCode (Option Bytes) := do
  let size ← nextSize 236
  match size with
  | none => pure none
  | some totalSize => do
    line (.buffer 245)
    let b ← get
    if b.maxMessageSize < totalSize then do
      line (.buffer 248)
      raise (ReadBuffer.tooLarge totalSize b.maxMessageSize)
    else do
      line (.buffer 252)
      if b.available < totalSize then do
        line (.buffer 253)
        pure none
      else do
        line (.buffer 255)
        let message ← tryExcept (consume totalSize 256) (poisonAndRaise "read_message" 259 260)
        line (.buffer 267)
        pure (some message)

/-- The oversized branch of the `try` block of `skip_message`; a value is the `return` inside. -/
def skipOversized (totalSize : Nat) : BufferCode (Option Bool) := do
  line (.buffer 299)
  let b ← get
  let effectiveTotal := min totalSize b.maxMessageSize
  line (.buffer 300)
  let skipNow := min effectiveTotal b.available
  line (.buffer 301)
  modify fun b => b.advance skipNow
  line (.buffer 302)
  modify fun b => { b with skipRemaining := effectiveTotal - skipNow }
  line (.buffer 305)
  if effectiveTotal < totalSize then do
    line (.buffer 306)
    if effectiveTotal - skipNow = 0 then do
      call (.buffer 310) (poison (ReadBuffer.skipCapped effectiveTotal totalSize))
      call (.buffer 317) maybeCompact
      line (.buffer 318)
      pure (some false)
    else do
      line (.buffer 320)
      modify fun b => { b with
        poisonAfterSkip := some (ReadBuffer.skipCapped effectiveTotal totalSize) }
      call (.buffer 325) maybeCompact
      pure none
  else do
    call (.buffer 325) maybeCompact
    pure none

def skipNext (totalSize : Nat) : BufferCode (Option Bool) := do
  line (.buffer 293)
  let b ← get
  if totalSize ≤ b.maxMessageSize then do
    line (.buffer 294)
    modify fun b => b.advance totalSize
    call (.buffer 325) maybeCompact
    pure none
  else skipOversized totalSize

def skipMessage : BufferCode Bool := do
  let size ← nextSize 278
  match size with
  | none => pure false
  | some totalSize => do
    line (.buffer 289)
    let b ← get
    if totalSize ≤ b.maxMessageSize ∧ b.available < totalSize then do
      line (.buffer 290)
      pure false
    else do
      line (.buffer 292)
      let returned ← tryExcept (skipNext totalSize) (poisonAndRaise "skip_message" 326 327)
      match returned with
      | some value => pure value
      | none => do
        line (.buffer 334)
        let b ← get
        pure (decide (b.skipRemaining = 0))

def readBytes (n : Int) : BufferCode (Option Bytes) := do
  line (.buffer 341)
  if n < 0 then do
    line (.buffer 342)
    raise (ReadBuffer.negativeCount n)
  else do
    call (.buffer 343) checkPoisoned
    line (.buffer 344)
    let b ← get
    line (.buffer 345)
    if b.available < n.toNat then do
      line (.buffer 346)
      pure none
    else do
      line (.buffer 348)
      let data ← tryExcept (consume n.toNat 349) (poisonAndRaise "read_bytes" 352 353)
      line (.buffer 359)
      pure (some data)

def peekBytes (n : Int) : BufferCode (Option Bytes) := do
  line (.buffer 367)
  if n < 0 then do
    line (.buffer 368)
    raise (ReadBuffer.negativeCount n)
  else do
    call (.buffer 369) checkPoisoned
    line (.buffer 370)
    let b ← get
    line (.buffer 371)
    if b.available < n.toNat then do
      line (.buffer 372)
      pure none
    else do
      line (.buffer 373)
      pure (some (b.slice n.toNat))

end Buffer

section Decoder

abbrev DecoderCode (α : Type) : Type := Interruptible MessageDecoder Exn Line α

def onBuffer {α : Type} (body : BufferCode α) : DecoderCode α :=
  onPart MessageDecoder.buffer MessageDecoder.withBuffer body

def finalizeContinuationState : DecoderCode Unit := do
  line (.codec 312)
  modify fun d => { d with continuation := { d.continuation with expected := false } }
  line (.codec 313)
  modify fun d => { d with continuation := { d.continuation with frameCount := 0 } }
  line (.codec 314)
  modify fun d => { d with continuation := { d.continuation with totalRows := 0 } }
  line (.codec 315)
  modify fun d => { d with continuation := { d.continuation with columnCount := none } }
  line (.codec 316)
  modify fun d => { d with continuation := { d.continuation with columnNames := none } }
  line (.codec 317)
  let d ← get
  if d.config.isRequest then do
    line (.codec 318)
    modify fun d => { d with handshakeDone := false }
    line (.codec 319)
    modify fun d => { d with version := none }
  else pure ()

/-- The lines of `decode_bytes` from 575 on, and what they call, store nothing; how many of them
run depends on the frame. -/
def decodeBytes (lines : Line → Nat) (data : Bytes) : DecoderCode Message := do
  call (.codec 568) (onBuffer checkPoisoned)
  line (.codec 569)
  let d ← get
  if d.handshakeDone = false then do
    line (.codec 570)
    raise (.handshakeError ["Protocol handshake not yet received. Call decode_handshake() before ",
      "decode_bytes()."])
  else
    compute (.codec 575) (lines (.codec 575)) (MessageDecoder.decodeFrame d.config d.version data)

/-- The `try` block of `decode` below the call of `decode_bytes`. -/
def openStream (message : Message) : DecoderCode Message := do
  line (.codec 537)
  match message with
  | .response (.rows result) =>
    if result.hasMore then do
      line (.codec 541)
      let initialRowCount := result.rows.length
      line (.codec 542)
      let d ← get
      if ∃ cap ∈ d.config.maxTotalRows, cap < initialRowCount then do
        line (.codec 543)
        raise (MessageDecoder.initialTooManyRows (d.config.maxTotalRows.getD 0) initialRowCount)
      else do
        line (.codec 548)
        modify fun d => { d with continuation := { d.continuation with expected := true } }
        line (.codec 551)
        modify fun d => { d with continuation := { d.continuation with frameCount := 1 } }
        line (.codec 552)
        modify fun d =>
          { d with continuation := { d.continuation with totalRows := initialRowCount } }
        line (.codec 553)
        modify fun d => { d with continuation := { d.continuation with
          columnCount := some result.columnNames.length } }
        line (.codec 554)
        modify fun d => { d with continuation := { d.continuation with
          columnNames := some result.columnNames } }
        pure message
    else pure message
  | _ => pure message

/-- The `try` block of `decode`. -/
def startMessage (lines : Line → Nat) (data : Bytes) : DecoderCode Message := do
  let message ← call (.codec 533) (decodeBytes lines data)
  openStream message

def decodeRaised {α : Type} (t : Thrown Exn Line) : DecoderCode α := do
  line (.codec 555)
  call (.codec 557) (onBuffer (poison (MessageDecoder.poisonCause "decode" (caught t))))
  line (.codec 562)
  reraise t

def decode (lines : Line → Nat) : DecoderCode (Option Message) := do
  call (.codec 513) (onBuffer checkPoisoned)
  line (.codec 514)
  let d ← get
  if d.continuation.expected then do
    line (.codec 515)
    raise (.continuationError ["Cannot decode a new message while a ROWS continuation is in ",
      "progress. Call decode_continuation() until has_more is False, or call reset() to abandon ",
      "the stream."])
  else do
    line (.codec 520)
    if d.handshakeDone = false then do
      line (.codec 521)
      raise (.handshakeError ["Protocol handshake not yet received. Call decode_handshake() ",
        "before decode()."])
    else do
      let read ← call (.codec 526) (onBuffer readMessage)
      line (.codec 527)
      match read with
      | none => do
        line (.codec 528)
        pure none
      | some data => do
        line (.codec 532)
        let message ← tryExcept (startMessage lines data) decodeRaised
        line (.codec 564)
        pure (some message)

def continueRows (result : RowsResponse) : DecoderCode Message := do
  line (.codec 436)
  modify fun d => { d with continuation := { d.continuation with
    frameCount := d.continuation.frameCount + 1 } }
  line (.codec 437)
  let d ← get
  if ∃ cap ∈ d.config.maxContinuationFrames, cap < d.continuation.frameCount then do
    line (.codec 441)
    raise (MessageDecoder.tooManyFrames (d.config.maxContinuationFrames.getD 0))
  else do
    line (.codec 446)
    modify fun d => { d with continuation := { d.continuation with
      totalRows := d.continuation.totalRows + result.rows.length } }
    line (.codec 447)
    let d ← get
    if ∃ cap ∈ d.config.maxTotalRows, cap < d.continuation.totalRows then do
      line (.codec 451)
      raise (MessageDecoder.tooManyRows (d.config.maxTotalRows.getD 0) d.continuation.totalRows
        d.continuation.frameCount)
    else do
      line (.codec 459)
      if ∃ count ∈ d.continuation.columnCount, result.columnNames.length ≠ count then do
        line (.codec 463)
        raise (MessageDecoder.columnCountDrift (d.continuation.columnCount.getD 0)
          d.continuation.frameCount result.columnNames.length)
      else do
        line (.codec 471)
        if ∃ names ∈ d.continuation.columnNames, result.columnNames ≠ names then do
          line (.codec 475)
          raise (MessageDecoder.columnNameDrift (d.continuation.columnNames.getD [])
            d.continuation.frameCount result.columnNames)
        else do
          line (.codec 481)
          if result.hasMore then do
            line (.codec 483)
            pure (.response (.rows result))
          else do
            call (.codec 482) finalizeContinuationState
            line (.codec 483)
            pure (.response (.rows result))

/-- The second `try` block of `decode_continuation`, by the type of the frame. -/
def continueStream (lines : Line → Nat) (data : Bytes) : DecoderCode Message := do
  let header ← call (.codec 385)
    (compute (.codec 385) (lines (.codec 385)) (Header.decode (data.take headerSize)))
  call (.codec 386) (work (.codec 386) (lines (.codec 386)))
  let body := (data.drop headerSize).take header.bodySize
  line (.codec 390)
  let d ← get
  if header.msgType ∉ [ResponseType.failure.code, ResponseType.empty.code, ResponseType.rows.code]
  then do
    line (.codec 397)
    line (.codec 398)
    call (.codec 399) finalizeContinuationState
    call (.codec 400) streamErrorInit
    raise (MessageDecoder.wrongFrameType header.msgType d.continuation.frameCount
      d.continuation.totalRows)
  else do
    line (.codec 407)
    line (.codec 408)
    match MessageDecoder.checkSchema d.config.isRequest header with
    | .error e => do
      line (.codec 409)
      raise e
    | .ok () => do
      line (.codec 414)
      if header.msgType = ResponseType.failure.code then do
        let failure ← call (.codec 418) (compute (.codec 418) (lines (.codec 418))
          (FailureResponse.decodeBody body header.schema))
        call (.codec 419) finalizeContinuationState
        call (.codec 420) serverFailureInit
        raise (.serverFailure failure.code failure.message)
      else do
        line (.codec 421)
        if header.msgType = ResponseType.empty.code then do
          let result ← call (.codec 426) (compute (.codec 426) (lines (.codec 426))
            (EmptyResponse.decodeBody body header.schema))
          call (.codec 427) finalizeContinuationState
          line (.codec 428)
          pure (.response (.empty result))
        else do
          let result ← call (.codec 431) (compute (.codec 431) (lines (.codec 431))
            (RowsResponse.decodeBody body header.schema d.config.maxRows d.config.textErrors))
          continueRows result

/-- The last of the `except` clauses of that block, for what is none of the three errors. -/
def streamBroken {α : Type} (t : Thrown Exn Line) : DecoderCode α := do
  line (.codec 497)
  call (.codec 499) finalizeContinuationState
  call (.codec 500)
    (onBuffer (poison (MessageDecoder.poisonCause "decode_continuation" (caught t))))
  line (.codec 505)
  reraise t

def streamRaised {α : Type} (t : Thrown Exn Line) : DecoderCode α := do
  line (.codec 484)
  match caught t with
  | .serverFailure _ _ => do
    line (.codec 486)
    reraise t
  | .streamError _ _ _ | .poisonedError _ _ => do
    line (.codec 487)
    line (.codec 491)
    reraise t
  | .decodeError _ => do
    line (.codec 487)
    line (.codec 492)
    call (.codec 495) finalizeContinuationState
    line (.codec 496)
    reraise t
  | _ => do
    line (.codec 487)
    line (.codec 492)
    streamBroken t

/-- The `except` clause of the first `try` block of `decode_continuation`. -/
def oversizedRaised {α : Type} (t : Thrown Exn Line) : DecoderCode α := do
  line (.codec 373)
  if (caught t).isDecodeError then do
    call (.codec 376) finalizeContinuationState
    call (.codec 377) (onBuffer (poison MessageDecoder.oversizedContinuation))
    line (.codec 380)
    reraise t
  else reraise t

def decodeContinuation (lines : Line → Nat) : DecoderCode (Option Message) := do
  call (.codec 365) (onBuffer checkPoisoned)
  line (.codec 366)
  let d ← get
  if d.continuation.expected = false then do
    line (.codec 367)
    raise (.continuationError ["decode_continuation() called but no ROWS continuation is in ",
      "progress. Use decode() for the initial message."])
  else do
    line (.codec 371)
    let read ← tryExcept (call (.codec 372) (onBuffer readMessage)) oversizedRaised
    line (.codec 381)
    match read with
    | none => do
      line (.codec 382)
      pure none
    | some data => do
      line (.codec 384)
      let message ← tryExcept (continueStream lines data) streamRaised
      pure (some message)

/-- The `except` clause of `decode_handshake`. -/
def revertHandshake {α : Type} (t : Thrown Exn Line) : DecoderCode α := do
  line (.codec 667)
  line (.codec 668)
  modify fun d => { d with handshakeDone := false }
  line (.codec 669)
  modify fun d => { d with version := none }
  line (.codec 670)
  reraise t

def decodeHandshake : DecoderCode (Option Nat) := do
  line (.codec 653)
  let d ← get
  if d.handshakeDone then do
    line (.codec 654)
    raise (.handshakeError ["Handshake already completed"])
  else do
    let peeked ← call (.codec 656) (onBuffer (peekBytes 8))
    line (.codec 657)
    match peeked with
    | none => do
      line (.codec 658)
      pure none
    | some peek => do
      line (.codec 659)
      let version := fromLE peek
      line (.codec 660)
      if version ∉ supportedVersions then do
        line (.codec 661)
        raise (.handshakeError ["Unsupported protocol version: ", .hex version])
      else do
        line (.codec 663)
        modify fun d => { d with version := some version }
        line (.codec 664)
        modify fun d => { d with handshakeDone := true }
        line (.codec 665)
        let _ ← tryExcept (call (.codec 666) (onBuffer (readBytes 8))) revertHandshake
        line (.codec 671)
        pure (some version)

end Decoder

end Lines

end DqliteWire
