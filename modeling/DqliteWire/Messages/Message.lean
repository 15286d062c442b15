import DqliteWire.Messages.Requests
import DqliteWire.Messages.Responses

/-! The messages of both directions, and `Message.encode`. -/

namespace DqliteWire

open WireLib WireLib.Utf8

inductive Request
  | leader (m : LeaderRequest)
  | client (m : ClientRequest)
  | heartbeat (m : HeartbeatRequest)
  | open (m : OpenRequest)
  | prepare (m : PrepareRequest)
  | exec (m : ExecRequest)
  | query (m : QueryRequest)
  | finalize (m : FinalizeRequest)
  | execSql (m : ExecSqlRequest)
  | querySql (m : QuerySqlRequest)
  | interrupt (m : InterruptRequest)
  | connect (m : ConnectRequest)
  | add (m : AddRequest)
  | assign (m : AssignRequest)
  | remove (m : RemoveRequest)
  | dump (m : DumpRequest)
  | cluster (m : ClusterRequest)
  | transfer (m : TransferRequest)
  | describe (m : DescribeRequest)
  | weight (m : WeightRequest)
  deriving DecidableEq, Repr

namespace Request

/-- `MSG_TYPE` -/
def type : Request → RequestType
  | .leader _ => .leader
  | .client _ => .client
  | .heartbeat _ => .heartbeat
  | .open _ => .open
  | .prepare _ => .prepare
  | .exec _ => .exec
  | .query _ => .query
  | .finalize _ => .finalize
  | .execSql _ => .execSql
  | .querySql _ => .querySql
  | .interrupt _ => .interrupt
  | .connect _ => .connect
  | .add _ => .add
  | .assign _ => .assign
  | .remove _ => .remove
  | .dump _ => .dump
  | .cluster _ => .cluster
  | .transfer _ => .transfer
  | .describe _ => .describe
  | .weight _ => .weight

def getSchema : Request → Int
  | .prepare m => m.schema
  | .exec m => m.toParamsFields.getSchema
  | .query m => m.toParamsFields.getSchema
  | .execSql m => m.toParamsFields.getSchema
  | .querySql m => m.toParamsFields.getSchema
  | _ => 0

def encodeBody (isoError : Str → Option String) : Request → Except Exn Bytes
  | .leader m => m.encodeBody
  | .client m => m.encodeBody
  | .heartbeat m => m.encodeBody
  | .open m => m.encodeBody
  | .prepare m => m.encodeBody
  | .exec m => m.encodeBody isoError
  | .query m => m.encodeBody isoError
  | .finalize m => m.encodeBody
  | .execSql m => m.encodeBody isoError
  | .querySql m => m.encodeBody isoError
  | .interrupt m => m.encodeBody
  | .connect m => m.encodeBody
  | .add m => m.encodeBody
  | .assign m => m.encodeBody
  | .remove m => m.encodeBody
  | .dump m => m.encodeBody
  | .cluster m => m.encodeBody
  | .transfer m => m.encodeBody
  | .describe m => m.encodeBody
  | .weight m => m.encodeBody

end Request

inductive Response
  | failure (m : FailureResponse)
  | leader (m : LeaderResponse)
  | welcome (m : WelcomeResponse)
  | servers (m : ServersResponse)
  | db (m : DbResponse)
  | stmt (m : StmtResponse)
  | result (m : ResultResponse)
  | rows (m : RowsResponse)
  | empty (m : EmptyResponse)
  | files (m : FilesResponse)
  | metadata (m : MetadataResponse)
  deriving DecidableEq, Repr

namespace Response

/-- `MSG_TYPE` -/
def type : Response → ResponseType
  | .failure _ => .failure
  | .leader _ => .leader
  | .welcome _ => .welcome
  | .servers _ => .servers
  | .db _ => .db
  | .stmt _ => .stmt
  | .result _ => .result
  | .rows _ => .rows
  | .empty _ => .empty
  | .files _ => .files
  | .metadata _ => .metadata

def getSchema : Response → Int
  | .stmt m => m.getSchema
  | _ => 0

def encodeBody (isoError : Str → Option String) : Response → Except Exn Bytes
  | .failure m => m.encodeBody
  | .leader m => m.encodeBody
  | .welcome m => m.encodeBody
  | .servers m => m.encodeBody
  | .db m => m.encodeBody
  | .stmt m => m.encodeBody
  | .result m => m.encodeBody
  | .rows m => m.encodeBody isoError
  | .empty m => m.encodeBody
  | .files m => m.encodeBody
  | .metadata m => m.encodeBody

end Response

inductive Message
  | request (m : Request)
  | response (m : Response)
  deriving DecidableEq, Repr

namespace Message

def typeCode : Message → Nat
  | .request m => m.type.code
  | .response m => m.type.code

def className : Message → String
  | .request m => m.type.className
  | .response m => m.type.className

def getSchema : Message → Int
  | .request m => m.getSchema
  | .response m => m.getSchema

def encodeBody (isoError : Str → Option String) : Message → Except Exn Bytes
  | .request m => m.encodeBody isoError
  | .response m => m.encodeBody isoError

def encode (isoError : Str → Option String) (m : Message) : Except Exn Bytes :=
  encodeFrame m.className m.typeCode m.getSchema (m.encodeBody isoError)

end Message

end DqliteWire
