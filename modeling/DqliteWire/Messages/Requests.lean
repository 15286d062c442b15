import DqliteWire.Messages.Base

/-! Client to server messages. -/

namespace DqliteWire

open WireLib WireLib.Utf8

/-- `_WordRequest.decode_body`; `new` is the constructor of the class. -/
def decodeWordRequest {α : Type} (className : String) (new : Int → Except Exn α) (data : Bytes)
    (schema : Nat) : Except Exn α := do
  requireSchema className schema
  requireLength className data 8
  let word ← decodeUint64 data
  new word

structure LeaderRequest where
  deriving DecidableEq, Repr

namespace LeaderRequest

def encodeBody (_ : LeaderRequest) : Except Exn Bytes := encodeUint64 0

def decodeBody (data : Bytes) (schema : Nat := 0) : Except Exn LeaderRequest := do
  requireSchema "LeaderRequest" schema
  requireLength "LeaderRequest" data 8
  let reserved ← decodeUint64 data
  raiseIf (reserved ≠ 0) (.decodeError ["LeaderRequest reserved field must be 0, got ", reserved])
  return ⟨⟩

end LeaderRequest

structure ClientRequest where
  clientId : Int
  deriving DecidableEq, Repr

namespace ClientRequest

def new (clientId : Int) : Except Exn ClientRequest := do
  validateUint64 "client_id" clientId
  return ⟨clientId⟩

def encodeBody (m : ClientRequest) : Except Exn Bytes := encodeUint64 m.clientId

def decodeBody (data : Bytes) (schema : Nat := 0) : Except Exn ClientRequest :=
  decodeWordRequest "ClientRequest" new data schema

end ClientRequest

structure HeartbeatRequest where
  timestamp : Int
  deriving DecidableEq, Repr

namespace HeartbeatRequest

def new (timestamp : Int) : Except Exn HeartbeatRequest := do
  validateUint64 "timestamp" timestamp
  return ⟨timestamp⟩

def encodeBody (m : HeartbeatRequest) : Except Exn Bytes := encodeUint64 m.timestamp

def decodeBody (data : Bytes) (schema : Nat := 0) : Except Exn HeartbeatRequest :=
  decodeWordRequest "_HeartbeatRequest" new data schema

end HeartbeatRequest

structure InterruptRequest where
  dbId : Int
  deriving DecidableEq, Repr

namespace InterruptRequest

def new (dbId : Int := 0) : Except Exn InterruptRequest := do
  validateUint64 "db_id" dbId
  return ⟨dbId⟩

def encodeBody (m : InterruptRequest) : Except Exn Bytes := encodeUint64 m.dbId

def decodeBody (data : Bytes) (schema : Nat := 0) : Except Exn InterruptRequest :=
  decodeWordRequest "InterruptRequest" (new ·) data schema

end InterruptRequest

structure RemoveRequest where
  nodeId : Int
  deriving DecidableEq, Repr

namespace RemoveRequest

def new (nodeId : Int) : Except Exn RemoveRequest := do
  validateUint64 "node_id" nodeId
  return ⟨nodeId⟩

def encodeBody (m : RemoveRequest) : Except Exn Bytes := encodeUint64 m.nodeId

def decodeBody (data : Bytes) (schema : Nat := 0) : Except Exn RemoveRequest :=
  decodeWordRequest "RemoveRequest" new data schema

end RemoveRequest

structure TransferRequest where
  targetNodeId : Int
  deriving DecidableEq, Repr

namespace TransferRequest

def new (targetNodeId : Int) : Except Exn TransferRequest := do
  validateUint64 "target_node_id" targetNodeId
  return ⟨targetNodeId⟩

def encodeBody (m : TransferRequest) : Except Exn Bytes := encodeUint64 m.targetNodeId

def decodeBody (data : Bytes) (schema : Nat := 0) : Except Exn TransferRequest :=
  decodeWordRequest "TransferRequest" new data schema

end TransferRequest

structure WeightRequest where
  weight : Int
  deriving DecidableEq, Repr

namespace WeightRequest

def new (weight : Int) : Except Exn WeightRequest := do
  validateUint64 "weight" weight
  return ⟨weight⟩

def encodeBody (m : WeightRequest) : Except Exn Bytes := encodeUint64 m.weight

def decodeBody (data : Bytes) (schema : Nat := 0) : Except Exn WeightRequest :=
  decodeWordRequest "WeightRequest" new data schema

end WeightRequest

def encodeNodeAddress (label : String) (nodeId : Int) (address : Str) : Except Exn Bytes := do
  let nodeId ← encodeUint64 nodeId
  let address ← encodeText address (some maxAddressSize) label
  return nodeId ++ address

/-- `_NodeAddressRequest.decode_body` -/
def decodeNodeAddress {α : Type} (className label : String) (new : Int → Str → Except Exn α)
    (data : Bytes) (schema : Nat) : Except Exn α := do
  requireSchema className schema
  let nodeId ← decodeUint64 data
  let (address, consumed) ← decodeText .bytes (data.drop 8) maxAddressSize label
  requireConsumed className data (8 + consumed)
  new nodeId address

structure AddRequest where
  nodeId : Int
  address : Str
  deriving DecidableEq, Repr

namespace AddRequest

def new (nodeId : Int) (address : Str) : Except Exn AddRequest := do
  validateUint64 "node_id" nodeId
  return ⟨nodeId, address⟩

def encodeBody (m : AddRequest) : Except Exn Bytes :=
  encodeNodeAddress "add address" m.nodeId m.address

def decodeBody (data : Bytes) (schema : Nat := 0) : Except Exn AddRequest :=
  decodeNodeAddress "AddRequest" "add address" new data schema

end AddRequest

structure ConnectRequest where
  nodeId : Int
  address : Str
  deriving DecidableEq, Repr

namespace ConnectRequest

def new (nodeId : Int) (address : Str) : Except Exn ConnectRequest := do
  validateUint64 "node_id" nodeId
  return ⟨nodeId, address⟩

def encodeBody (m : ConnectRequest) : Except Exn Bytes :=
  encodeNodeAddress "connect address" m.nodeId m.address

def decodeBody (data : Bytes) (schema : Nat := 0) : Except Exn ConnectRequest :=
  decodeNodeAddress "_ConnectRequest" "connect address" new data schema

end ConnectRequest

/-- What `_ParamsRequest` holds: the parameters, and the two hints that let a decoded frame
re-encode to the bytes it came from. -/
structure ParamsFields where
  params : List WireInput
  decodedSchema : Option Int
  decodedEmptyHeader : Option Bool
  deriving DecidableEq, Repr

namespace ParamsFields

def validateDecodedSchema (decodedSchema : Option Int) (paramCount : Nat) : Except Exn Unit :=
  match decodedSchema with
  | none => .ok ()
  | some schema => do
    raiseIf (schema ≠ 0 ∧ schema ≠ 1)
      (.encodeError ["_decoded_schema must be 0, 1, or None; got ", schema])
    raiseIf (schema = 0 ∧ 255 < paramCount)
      (.encodeError ["_decoded_schema=0 (V0 tuple format) supports at most 255 parameters; got ",
        paramCount])
    raiseIf (schema = 1 ∧ maxParamCount < paramCount)
      (.encodeError ["_decoded_schema=1 (V1 tuple format) supports at most ", maxParamCount,
        " parameters; got ", paramCount])

def validateDecodedEmptyHeader (decodedEmptyHeader : Option Bool) (paramCount : Nat) :
    Except Exn Unit :=
  raiseIf (decodedEmptyHeader = some true ∧ 0 < paramCount)
    (.encodeError ["_decoded_empty_header=True requires empty params (the field is a C-style ",
      "8-byte empty-header round-trip hint); got params with ", paramCount, " elements"])

/-- `_validate_params_hints` -/
def validate (f : ParamsFields) : Except Exn Unit := do
  validateDecodedSchema f.decodedSchema f.params.length
  validateDecodedEmptyHeader f.decodedEmptyHeader f.params.length

def getSchema (f : ParamsFields) : Int :=
  match f.decodedSchema with
  | some schema => schema
  | none => if 255 < f.params.length then 1 else 0

def encodeBody (isoError : Str → Option String) (f : ParamsFields)
    (encodePrefix : Except Exn Bytes) : Except Exn Bytes := do
  let start ← encodePrefix
  let tuple ← encodeParamsTuple isoError f.params f.getSchema start.length
    (f.decodedEmptyHeader.getD false)
  return start ++ tuple

/-- `_ParamsRequest.decode_body`; `decodePrefix` returns the constructor arguments and the bytes
it consumed, `new` is the constructor. -/
def decodeBody {α β : Type} (className : String) (decodePrefix : Bytes → Except Exn (α × Nat))
    (new : α → ParamsFields → Except Exn β) (data : Bytes) (schema : Nat) : Except Exn β := do
  requireSchema className schema [0, 1]
  let (args, offset) ← decodePrefix data
  let (params, consumed) ← decodeParamsTuple .view (data.drop offset) none schema offset
  requireConsumed className data (offset + consumed)
  new args ⟨params.map .value, some schema, some (params = [] ∧ 0 < consumed)⟩

end ParamsFields

def encodeStatementPrefix (dbId stmtId : Int) : Except Exn Bytes := do
  let db ← encodeUint32 dbId
  let stmt ← encodeUint32 stmtId
  return db ++ stmt

/-- `_PreparedStatementRequest._decode_prefix` -/
def decodeStatementPrefix (view : Bytes) : Except Exn ((Int × Int) × Nat) := do
  let dbId ← decodeUint32 view
  let stmtId ← decodeUint32 (view.drop 4)
  return ((dbId, stmtId), 8)

def encodeSqlPrefix (dbId : Int) (sql : Str) : Except Exn Bytes := do
  let db ← encodeUint64 dbId
  let text ← encodeText sql (some maxTextValueSize) "SQL"
  return db ++ text

/-- `_SqlTextRequest._decode_prefix` -/
def decodeSqlPrefix (view : Bytes) : Except Exn ((Int × Str) × Nat) := do
  let dbId ← decodeUint64 view
  let (sql, consumed) ← decodeText .view (view.drop 8) maxTextValueSize "SQL"
  return ((dbId, sql), 8 + consumed)

structure ExecRequest extends ParamsFields where
  dbId : Int
  stmtId : Int
  deriving DecidableEq, Repr

namespace ExecRequest

def new (ids : Int × Int) (fields : ParamsFields) : Except Exn ExecRequest := do
  validateUint32 "db_id" ids.1
  validateUint32 "stmt_id" ids.2
  fields.validate
  return ⟨fields, ids.1, ids.2⟩

def encodeBody (isoError : Str → Option String) (m : ExecRequest) : Except Exn Bytes :=
  m.toParamsFields.encodeBody isoError (encodeStatementPrefix m.dbId m.stmtId)

def decodeBody (data : Bytes) (schema : Nat := 0) : Except Exn ExecRequest :=
  ParamsFields.decodeBody "ExecRequest" decodeStatementPrefix new data schema

end ExecRequest

structure QueryRequest extends ParamsFields where
  dbId : Int
  stmtId : Int
  deriving DecidableEq, Repr

namespace QueryRequest

def new (ids : Int × Int) (fields : ParamsFields) : Except Exn QueryRequest := do
  validateUint32 "db_id" ids.1
  validateUint32 "stmt_id" ids.2
  fields.validate
  return ⟨fields, ids.1, ids.2⟩

def encodeBody (isoError : Str → Option String) (m : QueryRequest) : Except Exn Bytes :=
  m.toParamsFields.encodeBody isoError (encodeStatementPrefix m.dbId m.stmtId)

def decodeBody (data : Bytes) (schema : Nat := 0) : Except Exn QueryRequest :=
  ParamsFields.decodeBody "QueryRequest" decodeStatementPrefix new data schema

end QueryRequest

structure ExecSqlRequest extends ParamsFields where
  dbId : Int
  sql : Str
  deriving DecidableEq, Repr

namespace ExecSqlRequest

def new (args : Int × Str) (fields : ParamsFields) : Except Exn ExecSqlRequest := do
  validateUint64 "db_id" args.1
  fields.validate
  return ⟨fields, args.1, args.2⟩

def encodeBody (isoError : Str → Option String) (m : ExecSqlRequest) : Except Exn Bytes :=
  m.toParamsFields.encodeBody isoError (encodeSqlPrefix m.dbId m.sql)

def decodeBody (data : Bytes) (schema : Nat := 0) : Except Exn ExecSqlRequest :=
  ParamsFields.decodeBody "ExecSqlRequest" decodeSqlPrefix new data schema

end ExecSqlRequest

structure QuerySqlRequest extends ParamsFields where
  dbId : Int
  sql : Str
  deriving DecidableEq, Repr

namespace QuerySqlRequest

def new (args : Int × Str) (fields : ParamsFields) : Except Exn QuerySqlRequest := do
  validateUint64 "db_id" args.1
  fields.validate
  return ⟨fields, args.1, args.2⟩

def encodeBody (isoError : Str → Option String) (m : QuerySqlRequest) : Except Exn Bytes :=
  m.toParamsFields.encodeBody isoError (encodeSqlPrefix m.dbId m.sql)

def decodeBody (data : Bytes) (schema : Nat := 0) : Except Exn QuerySqlRequest :=
  ParamsFields.decodeBody "QuerySqlRequest" decodeSqlPrefix new data schema

end QuerySqlRequest

structure PrepareRequest where
  dbId : Int
  sql : Str
  schema : Int
  deriving DecidableEq, Repr

namespace PrepareRequest

def new (dbId : Int) (sql : Str) (schema : Int := 0) : Except Exn PrepareRequest := do
  validateUint64 "db_id" dbId
  raiseIf (schema ≠ 0 ∧ schema ≠ 1) (.encodeError ["schema must be 0 or 1, got ", schema])
  return ⟨dbId, sql, schema⟩

def encodeBody (m : PrepareRequest) : Except Exn Bytes := encodeSqlPrefix m.dbId m.sql

def decodeBody (data : Bytes) (schema : Nat := 0) : Except Exn PrepareRequest := do
  requireSchema "PrepareRequest" schema [0, 1]
  let dbId ← decodeUint64 data
  let (sql, consumed) ← decodeText .view (data.drop 8) maxTextValueSize "SQL"
  requireConsumed "PrepareRequest" data (8 + consumed)
  new dbId sql schema

end PrepareRequest

structure FinalizeRequest where
  dbId : Int
  stmtId : Int
  deriving DecidableEq, Repr

namespace FinalizeRequest

def new (dbId stmtId : Int) : Except Exn FinalizeRequest := do
  validateUint32 "db_id" dbId
  validateUint32 "stmt_id" stmtId
  return ⟨dbId, stmtId⟩

def encodeBody (m : FinalizeRequest) : Except Exn Bytes := encodeStatementPrefix m.dbId m.stmtId

def decodeBody (data : Bytes) (schema : Nat := 0) : Except Exn FinalizeRequest := do
  requireSchema "FinalizeRequest" schema
  requireLength "FinalizeRequest" data 8
  let dbId ← decodeUint32 data
  let stmtId ← decodeUint32 (data.drop 4)
  new dbId stmtId

end FinalizeRequest

structure OpenRequest where
  name : Str
  flags : Int
  vfs : Str
  deriving DecidableEq, Repr

namespace OpenRequest

def new (name : Str) (flags : Int := 0) (vfs : Str := []) : Except Exn OpenRequest := do
  validateUint64 "flags" flags
  return ⟨name, flags, vfs⟩

def encodeBody (m : OpenRequest) : Except Exn Bytes := do
  let name ← encodeText m.name (some maxFilenameSize) "database name"
  let flags ← encodeUint64 m.flags
  let vfs ← encodeText m.vfs (some maxFilenameSize) "vfs name"
  return name ++ flags ++ vfs

def decodeBody (data : Bytes) (schema : Nat := 0) : Except Exn OpenRequest := do
  requireSchema "OpenRequest" schema
  let (name, offset) ← decodeText .view data maxFilenameSize "database name"
  let flags ← decodeUint64 (data.drop offset) "OpenRequest.flags"
  let offset := offset + 8
  let (vfs, consumed) ← decodeText .view (data.drop offset) maxFilenameSize "vfs name"
  requireConsumed "OpenRequest" data (offset + consumed)
  new name flags vfs

end OpenRequest

structure DumpRequest where
  name : Str
  deriving DecidableEq, Repr

namespace DumpRequest

def encodeBody (m : DumpRequest) : Except Exn Bytes :=
  encodeText m.name (some maxDumpFilenameSize) "database name"

def decodeBody (data : Bytes) (schema : Nat := 0) : Except Exn DumpRequest := do
  requireSchema "DumpRequest" schema
  let (name, consumed) ← decodeText .bytes data maxDumpFilenameSize "database name"
  requireConsumed "DumpRequest" data consumed
  return ⟨name⟩

end DumpRequest

structure AssignRequest where
  nodeId : Int
  role : Option NodeRole
  legacyIntent : Bool
  deriving DecidableEq, Repr

namespace AssignRequest

def new (nodeId : Int) (role : Option RoleInput := none) (legacyIntent : Bool := false) :
    Except Exn AssignRequest := do
  validateUint64 "node_id" nodeId
  match role with
  | none =>
    if legacyIntent then return ⟨nodeId, none, legacyIntent⟩
    else .error (.encodeError ["AssignRequest requires role=NodeRole.VOTER/STANDBY/SPARE for the ",
      "modern ASSIGN body. Bare AssignRequest(node_id=N) is rejected at construction so the typo ",
      "doesn't silently surface as a cryptic encode-time error. Callers that genuinely need the ",
      "legacy 1-word PROMOTE shape must pass _legacy_intent=True and call encode_body_legacy() ",
      "explicitly."])
  | some (.role r) => return ⟨nodeId, some r, legacyIntent⟩
  | some (.int n) => do
    validateUint64 "role" n
    match NodeRole.ofCode n with
    | some r => return ⟨nodeId, some r, legacyIntent⟩
    | none => .error (.encodeError ["AssignRequest: unknown role ", n])

def encodeBody (m : AssignRequest) : Except Exn Bytes :=
  match m.role with
  | none => .error (.encodeError ["AssignRequest with role=None cannot be encoded via encode_body ",
      "— modern dqlite servers and Go-dqlite always send both node_id and role. Use ",
      "role=NodeRole.VOTER (or another role) for the modern ASSIGN body, or call ",
      "encode_body_legacy() explicitly for the legacy PROMOTE shape."])
  | some role => do
    let nodeId ← encodeUint64 m.nodeId
    let role ← encodeUint64 role.code
    return nodeId ++ role

def encodeBodyLegacy (m : AssignRequest) : Except Exn Bytes := encodeUint64 m.nodeId

def decodeBody (data : Bytes) (schema : Nat := 0) : Except Exn AssignRequest := do
  requireSchema "AssignRequest" schema
  if data.length = 8 then
    let nodeId ← decodeUint64 data
    new nodeId (some (.role .voter))
  else if data.length = 16 then
    let raw ← decodeUint64 (data.drop 8)
    match NodeRole.ofCode raw with
    | none => .error (.decodeError ["AssignRequest: unknown role ", raw])
    | some role => do
      let nodeId ← decodeUint64 data
      new nodeId (some (.role role))
  else .error (.decodeError ["AssignRequest body must be 8 (PROMOTE) or 16 (ASSIGN) bytes, got ",
    data.length])

end AssignRequest

structure ClusterRequest where
  format : Int
  decoded : Bool
  deriving DecidableEq, Repr

namespace ClusterRequest

def formatText (format : Int) : Text :=
  ["ClusterRequest format must be 0 (V0) or 1 (V1); upstream defines only those two values. Got ",
   format, "."]

def new (format : Int := 1) (decoded : Bool := false) : Except Exn ClusterRequest := do
  validateUint64 "format" format
  raiseIf (format = 0 ∧ decoded = false)
    (.encodeError ["ClusterRequest format=0 (V0) is valid in upstream dqlite but not implemented ",
      "in this Python library: ServersResponse only decodes V1 (with node role fields). Use ",
      "format=1."])
  raiseIf (format ≠ 0 ∧ format ≠ 1) (.encodeError (formatText format))
  return ⟨format, decoded⟩

def encodeBody (m : ClusterRequest) : Except Exn Bytes := encodeUint64 m.format

def decodeBody (data : Bytes) (schema : Nat := 0) : Except Exn ClusterRequest := do
  requireSchema "ClusterRequest" schema
  requireLength "ClusterRequest" data 8
  let format ← decodeUint64 data
  raiseIf (format ≠ 0 ∧ format ≠ 1) (.decodeError (formatText format))
  new format true

end ClusterRequest

structure DescribeRequest where
  format : Int
  decoded : Bool
  deriving DecidableEq, Repr

namespace DescribeRequest

def new (format : Int := 0) (decoded : Bool := false) : Except Exn DescribeRequest := do
  validateUint64 "format" format
  raiseIf (format ≠ 0 ∧ decoded = false)
    (.encodeError ["DescribeRequest format must be 0 (V0); upstream rejects anything else with ",
      "SQLITE_PROTOCOL. Got ", format, "."])
  return ⟨format, decoded⟩

def encodeBody (m : DescribeRequest) : Except Exn Bytes := encodeUint64 m.format

def decodeBody (data : Bytes) (schema : Nat := 0) (strict : Bool := true) :
    Except Exn DescribeRequest := do
  requireSchema "DescribeRequest" schema
  requireLength "DescribeRequest" data 8
  let format ← decodeUint64 data
  if format ≠ 0 then
    if strict then
      .error (.decodeError ["DescribeRequest format must be 0 (V0); got ", format])
    else new format true
  else new format

end DescribeRequest

end DqliteWire
