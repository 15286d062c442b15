import DqliteWire.Buffer
import DqliteWire.Messages.Message

/-! The message encoder and decoder. A call of the decoder returns what the method returns or
raises, together with the decoder it leaves behind. -/

namespace DqliteWire

open WireLib WireLib.Utf8

/-- `REQUEST_TYPES`: heartbeat and connect frames are not accepted from the wire. -/
def requestTypes : List RequestType :=
  [.leader, .client, .open, .prepare, .exec, .query, .finalize, .execSql, .querySql, .interrupt,
   .add, .assign, .remove, .dump, .cluster, .transfer, .describe, .weight]

def responseTypes : List ResponseType :=
  [.failure, .leader, .welcome, .servers, .db, .stmt, .result, .rows, .empty, .files, .metadata]

def requestMaxSchema : List (Nat × Nat) :=
  [RequestType.prepare, .exec, .query, .execSql, .querySql].map fun t => (t.code, 1)

def responseMaxSchema : List (Nat × Nat) := [(ResponseType.stmt.code, 1)]

def unsupportedVersion (version : Int) : Exn :=
  .handshakeError ["Unsupported protocol version: ", .hex version, ". Supported: ",
    .hex protocolVersion, ", ", .hex protocolVersionLegacy]

section Encoder

variable (isoError : Str → Option String)

def MessageEncoder.encode (maxMessageSize : Nat) (message : Message) : Except Exn Bytes := do
  let frame ← message.encode isoError
  raiseIf (maxMessageSize < frame.length)
    (.encodeError ["Message size ", .hex frame.length, " bytes exceeds maximum ", maxMessageSize])
  return frame

def MessageEncoder.encodeHandshake (version : Nat) : Bytes := toLE 8 version

end Encoder

/-- The arguments of a decoder, as its constructor accepts them. -/
structure Config where
  isRequest : Bool
  version : Nat
  maxMessageSize : Nat
  maxRows : Nat
  maxContinuationFrames : Option Nat
  maxTotalRows : Option Nat
  unknownRolePolicy : UnknownRolePolicy
  textErrors : Handler
  version_supported : version ∈ supportedVersions
  size_positive : 1 ≤ maxMessageSize
  size_le_ceiling : maxMessageSize ≤ ReadBuffer.maxMessageSizeCeiling
  rows_positive : 1 ≤ maxRows
  frames_positive : ∀ cap ∈ maxContinuationFrames, 1 ≤ cap
  total_positive : ∀ cap ∈ maxTotalRows, 1 ≤ cap
  deriving DecidableEq, Repr

def UnknownRolePolicy.ofName : String → Option UnknownRolePolicy
  | "reject" => some .reject
  | "warn" => some .warn
  | "accept" => some .accept
  | _ => none

def textErrorsOfName : String → Option Handler
  | "strict" => some .strict
  | "replace" => some .replace
  | "ignore" => some .ignore
  | "backslashreplace" => some .backslashreplace
  | "surrogateescape" => some .surrogateescape
  | "surrogatepass" => some .surrogatepass
  | "xmlcharrefreplace" => some .xmlcharrefreplace
  | "namereplace" => some .namereplace
  | _ => none

namespace Config

def tooSmall (name : String) (value : Int) : Exn := .valueError [name, " must be >= 1, got ", value]

def capTooSmall (name : String) (value : Int) : Exn :=
  .valueError [name, " must be >= 1 or None, got ", value]

theorem cap_none : ∀ n ∈ (none : Option Nat), 1 ≤ n := fun _ member => by cases member

theorem cap_some {value : Int} (large : ¬ value < 1) : ∀ n ∈ some value.toNat, 1 ≤ n := by
  intro n member
  cases member
  omega

def checkCap (name : String) : Option Int → Except Exn { cap : Option Nat // ∀ n ∈ cap, 1 ≤ n }
  | none => .ok ⟨none, cap_none⟩
  | some value =>
    if small : value < 1 then .error (capTooSmall name value)
    else .ok ⟨some value.toNat, cap_some small⟩

/-- `MessageDecoder.__init__` up to the stores: the checks in their order. -/
def ofArgs (isRequest : Bool := false) (version : Int := protocolVersion)
    (maxMessageSize : Int := ReadBuffer.defaultMaxMessageSize) (maxRows : Int := defaultMaxRows)
    (maxContinuationFrames : Option Int := some defaultMaxContinuationFrames)
    (maxTotalRows : Option Int := some defaultMaxTotalRows) (unknownRolePolicy : String := "reject")
    (textErrors : String := "strict") : Except Exn Config :=
  if supported : 0 ≤ version ∧ version.toNat ∈ supportedVersions then
    if ceiling : (ReadBuffer.maxMessageSizeCeiling : Int) < maxMessageSize then
      .error (ReadBuffer.aboveCeiling maxMessageSize)
    else if rows : maxRows < 1 then .error (tooSmall "max_rows" maxRows)
    else
      checkCap "max_continuation_frames" maxContinuationFrames >>= fun frames =>
      checkCap "max_total_rows" maxTotalRows >>= fun total =>
      match UnknownRolePolicy.ofName unknownRolePolicy with
      | none => .error (.decodeError ["unknown_role_policy must be one of 'reject', 'warn', ",
          "'accept'; got '", unknownRolePolicy, "'"])
      | some policy =>
        match textErrorsOfName textErrors with
        | none => .error (.valueError ["text_errors must be a recognised UTF-8 decode error handler ",
            "(strict, replace, ignore, backslashreplace, surrogateescape, surrogatepass, ",
            "xmlcharrefreplace, namereplace); got '", textErrors, "'"])
        | some errors =>
          if size : maxMessageSize < 1 then .error (tooSmall "max_message_size" maxMessageSize)
          else .ok
            { isRequest, version := version.toNat, maxMessageSize := maxMessageSize.toNat,
              maxRows := maxRows.toNat, maxContinuationFrames := frames.1, maxTotalRows := total.1,
              unknownRolePolicy := policy, textErrors := errors,
              version_supported := supported.2, size_positive := by omega,
              size_le_ceiling := by omega, rows_positive := by omega,
              frames_positive := frames.2, total_positive := total.2 }
  else .error (unsupportedVersion version)

def default (isRequest : Bool := false) : Config where
  isRequest := isRequest
  version := protocolVersion
  maxMessageSize := ReadBuffer.defaultMaxMessageSize
  maxRows := defaultMaxRows
  maxContinuationFrames := some defaultMaxContinuationFrames
  maxTotalRows := some defaultMaxTotalRows
  unknownRolePolicy := .reject
  textErrors := .strict
  version_supported := by decide
  size_positive := by decide
  size_le_ceiling := by decide
  rows_positive := by decide
  frames_positive := by decide
  total_positive := by decide

def withCaps (frames total : Nat) (frames_positive : 1 ≤ frames) (total_positive : 1 ≤ total) :
    Config :=
  { default with
    maxContinuationFrames := some frames
    maxTotalRows := some total
    frames_positive := by simpa using frames_positive
    total_positive := by simpa using total_positive }

theorem ofArgs_default (isRequest : Bool) : ofArgs isRequest = .ok (default isRequest) := rfl

end Config

/-- The five `_continuation_*` fields. -/
structure Continuation where
  expected : Bool
  frameCount : Nat
  totalRows : Nat
  columnCount : Option Nat
  columnNames : Option (List Str)
  deriving DecidableEq, Repr

def Continuation.idle : Continuation := ⟨false, 0, 0, none, none⟩

structure MessageDecoder where
  config : Config
  buffer : ReadBuffer
  version : Option Nat
  handshakeDone : Bool
  continuation : Continuation
  deriving DecidableEq, Repr

namespace MessageDecoder

def new (config : Config) : MessageDecoder where
  config := config
  buffer := ReadBuffer.fresh config.maxMessageSize
  version := if config.isRequest then none else some config.version
  handshakeDone := !config.isRequest
  continuation := .idle

def withBuffer (d : MessageDecoder) (b : ReadBuffer) : MessageDecoder := { d with buffer := b }

def isPoisoned (d : MessageDecoder) : Bool := d.buffer.isPoisoned

def isSkipping (d : MessageDecoder) : Bool := d.buffer.isSkipping

def finalizeContinuationState (d : MessageDecoder) : MessageDecoder :=
  let d := { d with continuation := .idle }
  if d.config.isRequest then { d with handshakeDone := false, version := none } else d

def reset (d : MessageDecoder) : MessageDecoder :=
  (d.withBuffer d.buffer.reset).finalizeContinuationState

def poison (d : MessageDecoder) (error : Exn) : MessageDecoder :=
  d.withBuffer (d.buffer.poison error)

/-- The poison cause kept for an exception: one that is no `Exception` is wrapped. -/
def poisonCause (call : String) (e : Exn) : Exn :=
  if e.isException then e else .runtimeError [call, " interrupted: KeyboardInterrupt"]

def feed (d : MessageDecoder) (data : Bytes) : Except Exn Unit × MessageDecoder :=
  ((d.buffer.feed data).1, d.withBuffer (d.buffer.feed data).2)

def hasMessage (d : MessageDecoder) : Bool := d.buffer.hasMessage

def pendingFrameSize (d : MessageDecoder) : Except Exn Nat × MessageDecoder :=
  (d.buffer.peekHeader.1.map fun header => match header with
    | none => 0
    | some (sizeWords, _, _) => headerSize + sizeWords * wordSize,
   d.withBuffer d.buffer.peekHeader.2)

def takeFrame (d : MessageDecoder) : Except Exn (Option Bytes) × MessageDecoder :=
  (d.buffer.readMessage.1, d.withBuffer d.buffer.readMessage.2)

def skipMessage (d : MessageDecoder) : Except Exn Bool × MessageDecoder :=
  if d.continuation.expected then
    (.error (.continuationError ["Cannot skip a message while a ROWS continuation is in progress. ",
      "Call decode_continuation() to drain, or reset() to abandon the stream."]), d)
  else (d.buffer.skipMessage.1, d.withBuffer d.buffer.skipMessage.2)

/-- `self._max_schema.get(msg_type, 0)` -/
def maxSchema (isRequest : Bool) (msgType : Nat) : Nat :=
  ((if isRequest then requestMaxSchema else responseMaxSchema).lookup msgType).getD 0

def checkSchema (isRequest : Bool) (header : Header) : Except Exn Unit :=
  raiseIf (maxSchema isRequest header.msgType < header.schema)
    (.decodeError ["Unsupported schema version ", header.schema, " for message type ",
      header.msgType, " (max supported: ", maxSchema isRequest header.msgType, ")"])

def decodeRequestBody (t : RequestType) (body : Bytes) (schema : Nat) : Except Exn Request :=
  match t with
  | .leader => .leader <$> LeaderRequest.decodeBody body schema
  | .client => .client <$> ClientRequest.decodeBody body schema
  | .heartbeat => .heartbeat <$> HeartbeatRequest.decodeBody body schema
  | .open => .open <$> OpenRequest.decodeBody body schema
  | .prepare => .prepare <$> PrepareRequest.decodeBody body schema
  | .exec => .exec <$> ExecRequest.decodeBody body schema
  | .query => .query <$> QueryRequest.decodeBody body schema
  | .finalize => .finalize <$> FinalizeRequest.decodeBody body schema
  | .execSql => .execSql <$> ExecSqlRequest.decodeBody body schema
  | .querySql => .querySql <$> QuerySqlRequest.decodeBody body schema
  | .interrupt => .interrupt <$> InterruptRequest.decodeBody body schema
  | .connect => .connect <$> ConnectRequest.decodeBody body schema
  | .add => .add <$> AddRequest.decodeBody body schema
  | .assign => .assign <$> AssignRequest.decodeBody body schema
  | .remove => .remove <$> RemoveRequest.decodeBody body schema
  | .dump => .dump <$> DumpRequest.decodeBody body schema
  | .cluster => .cluster <$> ClusterRequest.decodeBody body schema
  | .transfer => .transfer <$> TransferRequest.decodeBody body schema
  | .describe => .describe <$> DescribeRequest.decodeBody body schema
  | .weight => .weight <$> WeightRequest.decodeBody body schema

/-- The leader body has no node id under the legacy version; rows and servers take extra
arguments. -/
def decodeResponseBody (config : Config) (version : Option Nat) (t : ResponseType) (body : Bytes)
    (schema : Nat) : Except Exn Response :=
  match t with
  | .failure => .failure <$> FailureResponse.decodeBody body schema
  | .leader =>
    if version = some protocolVersionLegacy then .leader <$> LeaderResponse.decodeBodyLegacy body
    else .leader <$> LeaderResponse.decodeBody body schema
  | .welcome => .welcome <$> WelcomeResponse.decodeBody body schema
  | .servers => .servers <$> ServersResponse.decodeBody body schema config.unknownRolePolicy
  | .db => .db <$> DbResponse.decodeBody body schema
  | .stmt => .stmt <$> StmtResponse.decodeBody body schema
  | .result => .result <$> ResultResponse.decodeBody body schema
  | .rows => .rows <$> RowsResponse.decodeBody body schema config.maxRows config.textErrors
  | .empty => .empty <$> EmptyResponse.decodeBody body schema
  | .files => .files <$> FilesResponse.decodeBody body schema
  | .metadata => .metadata <$> MetadataResponse.decodeBody body schema

/-- `self._type_map.get(msg_type)`, the checks before dispatch and the dispatch. -/
def decodeBody (config : Config) (version : Option Nat) (header : Header) (body : Bytes) :
    Except Exn Message :=
  let unknown : Exn := .decodeError ["Unknown message type: ", header.msgType]
  if config.isRequest then
    match requestTypes.find? (·.code = header.msgType) with
    | none => .error unknown
    | some t => do
      checkSchema true header
      Message.request <$> decodeRequestBody t body header.schema
  else
    match responseTypes.find? (·.code = header.msgType) with
    | none => .error unknown
    | some t => do
      checkSchema false header
      Message.response <$> decodeResponseBody config version t body header.schema

/-- `decode_bytes` after the handshake check: of a decoder it needs the arguments and the
version only. -/
def decodeFrame (config : Config) (version : Option Nat) (data : Bytes) : Except Exn Message := do
  raiseIf (data.length < headerSize)
    (.decodeError ["Message too short: ", data.length, " bytes"])
  let header ← Header.decode (data.take headerSize)
  let bodySize := header.bodySize
  let totalSize := headerSize + bodySize
  raiseIf (config.maxMessageSize < totalSize) (ReadBuffer.tooLarge totalSize config.maxMessageSize)
  raiseIf (data.length < headerSize + bodySize)
    (.decodeError ["Message body too short: header says ", bodySize, " bytes, got ",
      .int (data.length - headerSize)])
  raiseIf (totalSize < data.length)
    (.decodeError ["Message has ", .int (data.length - totalSize), " trailing bytes after declared ",
      "body (header says ", bodySize, " bytes + ", headerSize, "-byte header = ", totalSize,
      ", got ", data.length, ")"])
  let body := (data.take totalSize).drop headerSize
  decodeBody config version header body

def decodeBytes (d : MessageDecoder) (data : Bytes) : Except Exn Message := do
  d.buffer.checkPoisoned
  raiseIf (d.handshakeDone = false)
    (.handshakeError ["Protocol handshake not yet received. Call decode_handshake() before ",
      "decode_bytes()."])
  decodeFrame d.config d.version data

def initialTooManyRows (cap rows : Nat) : Exn :=
  .decodeError ["ROWS initial frame already exceeded max_total_rows cap (", cap,
    "); first frame had ", rows, " rows"]

/-- The `try` block of `decode`. -/
def startMessage (d : MessageDecoder) (data : Bytes) : Except Exn Message × MessageDecoder :=
  match d.decodeBytes data with
  | .error e => (.error e, d)
  | .ok (.response (.rows result)) =>
    if result.hasMore then
      let initialRowCount := result.rows.length
      if ∃ cap ∈ d.config.maxTotalRows, cap < initialRowCount then
        (.error (initialTooManyRows (d.config.maxTotalRows.getD 0) initialRowCount), d)
      else
        (.ok (.response (.rows result)),
          { d with continuation := ⟨true, 1, initialRowCount, some result.columnNames.length,
            some result.columnNames⟩ })
    else (.ok (.response (.rows result)), d)
  | .ok message => (.ok message, d)

def decode (d : MessageDecoder) : Except Exn (Option Message) × MessageDecoder :=
  match d.buffer.checkPoisoned with
  | .error e => (.error e, d)
  | .ok () =>
    if d.continuation.expected then
      (.error (.continuationError ["Cannot decode a new message while a ROWS continuation is in ",
        "progress. Call decode_continuation() until has_more is False, or call reset() to abandon ",
        "the stream."]), d)
    else if d.handshakeDone = false then
      (.error (.handshakeError ["Protocol handshake not yet received. Call decode_handshake() ",
        "before decode()."]), d)
    else
      match d.buffer.readMessage with
      | (.error e, b) => (.error e, d.withBuffer b)
      | (.ok none, b) => (.ok none, d.withBuffer b)
      | (.ok (some data), b) =>
        match (d.withBuffer b).startMessage data with
        | (.ok message, d) => (.ok (some message), d)
        | (.error e, d) => (.error e, d.poison (poisonCause "decode" e))

def tooManyFrames (cap : Nat) : Exn :=
  .decodeError ["ROWS continuation exceeded max_continuation_frames cap (", cap,
    "); server may be slow-dripping rows"]

def tooManyRows (cap total frames : Nat) : Exn :=
  .decodeError ["ROWS continuation exceeded max_total_rows cap (", cap, "); cumulative row count ",
    total, " across ", frames, " frames"]

def columnCountDrift (initial frame now : Nat) : Exn :=
  .decodeError ["ROWS continuation column count drift: initial frame had ", initial,
    " columns, frame ", frame, " has ", now]

def columnNameDrift (initial : List Str) (frame : Nat) (now : List Str) : Exn :=
  .decodeError ["ROWS continuation column name drift: initial frame had ", .reprs initial,
    ", frame ", frame, " has ", .reprs now]

def continueRows (d : MessageDecoder) (result : RowsResponse) :
    Except Exn Message × MessageDecoder :=
  let frames := d.continuation.frameCount + 1
  let d := { d with continuation := { d.continuation with frameCount := frames } }
  if ∃ cap ∈ d.config.maxContinuationFrames, cap < frames then
    (.error (tooManyFrames (d.config.maxContinuationFrames.getD 0)), d)
  else
    let total := d.continuation.totalRows + result.rows.length
    let d := { d with continuation := { d.continuation with totalRows := total } }
    if ∃ cap ∈ d.config.maxTotalRows, cap < total then
      (.error (tooManyRows (d.config.maxTotalRows.getD 0) total frames), d)
    else if ∃ count ∈ d.continuation.columnCount, result.columnNames.length ≠ count then
      (.error (columnCountDrift (d.continuation.columnCount.getD 0) frames
        result.columnNames.length), d)
    else if ∃ names ∈ d.continuation.columnNames, result.columnNames ≠ names then
      (.error (columnNameDrift (d.continuation.columnNames.getD []) frames result.columnNames), d)
    else if result.hasMore then (.ok (.response (.rows result)), d)
    else (.ok (.response (.rows result)), d.finalizeContinuationState)

def wrongFrameType (msgType frames rows : Nat) : Exn :=
  .streamError ["Expected ROWS continuation (type ", ResponseType.rows.code, "), got type ",
    msgType] frames rows

/-- The second `try` block of `decode_continuation`. -/
def continueStream (d : MessageDecoder) (data : Bytes) : Except Exn Message × MessageDecoder :=
  match Header.decode (data.take headerSize) with
  | .error e => (.error e, d)
  | .ok header =>
    let body := (data.drop headerSize).take header.bodySize
    if header.msgType ∉ [ResponseType.failure.code, ResponseType.empty.code, ResponseType.rows.code]
    then
      (.error (wrongFrameType header.msgType d.continuation.frameCount d.continuation.totalRows),
        d.finalizeContinuationState)
    else
      match checkSchema d.config.isRequest header with
      | .error e => (.error e, d)
      | .ok () =>
        if header.msgType = ResponseType.failure.code then
          match FailureResponse.decodeBody body header.schema with
          | .error e => (.error e, d)
          | .ok failure =>
            (.error (.serverFailure failure.code failure.message), d.finalizeContinuationState)
        else if header.msgType = ResponseType.empty.code then
          match EmptyResponse.decodeBody body header.schema with
          | .error e => (.error e, d)
          | .ok result => (.ok (.response (.empty result)), d.finalizeContinuationState)
        else
          match RowsResponse.decodeBody body header.schema d.config.maxRows d.config.textErrors with
          | .error e => (.error e, d)
          | .ok result => d.continueRows result

/-- The `except` arms of that block: only what is none of the three protocol errors poisons. -/
def continuationRaised (d : MessageDecoder) (e : Exn) : MessageDecoder :=
  match e with
  | .serverFailure _ _ | .streamError _ _ _ | .poisonedError _ _ => d
  | .decodeError _ => d.finalizeContinuationState
  | e => d.finalizeContinuationState.poison (poisonCause "decode_continuation" e)

def oversizedContinuation : Exn :=
  .decodeError ["Oversized ROWS continuation frame; call reset() to recover"]

def decodeContinuation (d : MessageDecoder) : Except Exn (Option Message) × MessageDecoder :=
  match d.buffer.checkPoisoned with
  | .error e => (.error e, d)
  | .ok () =>
    if d.continuation.expected = false then
      (.error (.continuationError ["decode_continuation() called but no ROWS continuation is in ",
        "progress. Use decode() for the initial message."]), d)
    else
      match d.buffer.readMessage with
      | (.error e, b) =>
        let d := d.withBuffer b
        if e.isDecodeError then (.error e, d.finalizeContinuationState.poison oversizedContinuation)
        else (.error e, d)
      | (.ok none, b) => (.ok none, d.withBuffer b)
      | (.ok (some data), b) =>
        match (d.withBuffer b).continueStream data with
        | (.ok message, d) => (.ok (some message), d)
        | (.error e, d) => (.error e, d.continuationRaised e)

def decodeHandshake (d : MessageDecoder) : Except Exn (Option Nat) × MessageDecoder :=
  if d.handshakeDone then (.error (.handshakeError ["Handshake already completed"]), d)
  else
    match d.buffer.peekBytes 8 with
    | .error e => (.error e, d)
    | .ok none => (.ok none, d)
    | .ok (some peek) =>
      let version := fromLE peek
      if version ∉ supportedVersions then
        (.error (.handshakeError ["Unsupported protocol version: ", .hex version]), d)
      else
        match d.buffer.readBytes 8 with
        | (.error e, b) => (.error e, { d.withBuffer b with version := none, handshakeDone := false })
        | (.ok _, b) =>
          (.ok (some version), { d.withBuffer b with version := some version, handshakeDone := true })

def forceHandshakeForStateless (d : MessageDecoder) (version : Nat) : MessageDecoder :=
  { d with version := some version, handshakeDone := true }

end MessageDecoder

def decodeMessage (config : Config) (data : Bytes) : Except Exn Message :=
  let decoder := MessageDecoder.new config
  let decoder := if config.isRequest then decoder.forceHandshakeForStateless config.version
    else decoder
  decoder.decodeBytes data

def encodeMessage (isoError : Str → Option String) (message : Message)
    (maxMessageSize : Nat := ReadBuffer.defaultMaxMessageSize) : Except Exn Bytes :=
  MessageEncoder.encode isoError maxMessageSize message

inductive DecoderOp
  | feed (data : Bytes)
  | hasMessage
  | pendingFrameSize
  | takeFrame
  | decode
  | decodeBytes (data : Bytes)
  | decodeContinuation
  | skipMessage
  | decodeHandshake
  | reset
  deriving DecidableEq, Repr

inductive DecoderValue
  | unit
  | bool (value : Bool)
  | size (value : Nat)
  | frame (value : Option Bytes)
  | message (value : Option Message)
  | version (value : Option Nat)
  deriving DecidableEq, Repr

abbrev DecoderReply := Except Exn DecoderValue

def MessageDecoder.step (d : MessageDecoder) : DecoderOp → DecoderReply × MessageDecoder
  | .feed data => ((d.feed data).1.map fun _ => .unit, (d.feed data).2)
  | .hasMessage => (.ok (.bool d.hasMessage), d)
  | .pendingFrameSize => (d.pendingFrameSize.1.map .size, d.pendingFrameSize.2)
  | .takeFrame => (d.takeFrame.1.map .frame, d.takeFrame.2)
  | .decode => (d.decode.1.map .message, d.decode.2)
  | .decodeBytes data => ((d.decodeBytes data).map fun m => .message (some m), d)
  | .decodeContinuation => (d.decodeContinuation.1.map .message, d.decodeContinuation.2)
  | .skipMessage => (d.skipMessage.1.map .bool, d.skipMessage.2)
  | .decodeHandshake => (d.decodeHandshake.1.map .version, d.decodeHandshake.2)
  | .reset => (.ok .unit, d.reset)

end DqliteWire
