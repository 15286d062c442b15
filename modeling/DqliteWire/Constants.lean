import DqliteWire.Lib.Utf8

/-! Protocol constants, enumerations and size caps. -/

namespace DqliteWire

def protocolVersion : Nat := 1
def protocolVersionLegacy : Nat := 0x86104DD760433FE5

@[simp] def wordSize : Nat := 8
@[simp] def headerSize : Nat := 8

def rowDoneByte : UInt8 := 0xFF
def rowPartByte : UInt8 := 0xEE

def supportedVersions : List Nat := [protocolVersion, protocolVersionLegacy]

inductive RequestType
  | leader | client | heartbeat | open | prepare | exec | query | finalize | execSql | querySql
  | interrupt | connect | add | assign | remove | dump | cluster | transfer | describe | weight
  deriving DecidableEq, Repr

def RequestType.code : RequestType → Nat
  | .leader => 0
  | .client => 1
  | .heartbeat => 2
  | .open => 3
  | .prepare => 4
  | .exec => 5
  | .query => 6
  | .finalize => 7
  | .execSql => 8
  | .querySql => 9
  | .interrupt => 10
  | .connect => 11
  | .add => 12
  | .assign => 13
  | .remove => 14
  | .dump => 15
  | .cluster => 16
  | .transfer => 17
  | .describe => 18
  | .weight => 19

def RequestType.className : RequestType → String
  | .leader => "LeaderRequest"
  | .client => "ClientRequest"
  | .heartbeat => "_HeartbeatRequest"
  | .open => "OpenRequest"
  | .prepare => "PrepareRequest"
  | .exec => "ExecRequest"
  | .query => "QueryRequest"
  | .finalize => "FinalizeRequest"
  | .execSql => "ExecSqlRequest"
  | .querySql => "QuerySqlRequest"
  | .interrupt => "InterruptRequest"
  | .connect => "_ConnectRequest"
  | .add => "AddRequest"
  | .assign => "AssignRequest"
  | .remove => "RemoveRequest"
  | .dump => "DumpRequest"
  | .cluster => "ClusterRequest"
  | .transfer => "TransferRequest"
  | .describe => "DescribeRequest"
  | .weight => "WeightRequest"

inductive ResponseType
  | failure | leader | welcome | servers | db | stmt | result | rows | empty | files | metadata
  deriving DecidableEq, Repr

def ResponseType.code : ResponseType → Nat
  | .failure => 0
  | .leader => 1
  | .welcome => 2
  | .servers => 3
  | .db => 4
  | .stmt => 5
  | .result => 6
  | .rows => 7
  | .empty => 8
  | .files => 9
  | .metadata => 10

def ResponseType.className : ResponseType → String
  | .failure => "FailureResponse"
  | .leader => "LeaderResponse"
  | .welcome => "WelcomeResponse"
  | .servers => "ServersResponse"
  | .db => "DbResponse"
  | .stmt => "StmtResponse"
  | .result => "ResultResponse"
  | .rows => "RowsResponse"
  | .empty => "EmptyResponse"
  | .files => "FilesResponse"
  | .metadata => "MetadataResponse"

inductive ValueType
  | integer | float | text | blob | null | unixtime | iso8601 | boolean
  deriving DecidableEq, Repr

def ValueType.code : ValueType → Nat
  | .integer => 1
  | .float => 2
  | .text => 3
  | .blob => 4
  | .null => 5
  | .unixtime => 9
  | .iso8601 => 10
  | .boolean => 11

def ValueType.name : ValueType → String
  | .integer => "INTEGER"
  | .float => "FLOAT"
  | .text => "TEXT"
  | .blob => "BLOB"
  | .null => "NULL"
  | .unixtime => "UNIXTIME"
  | .iso8601 => "ISO8601"
  | .boolean => "BOOLEAN"

/-- `ValueType(code)`: `none` where the constructor raises. -/
def ValueType.ofCode : Nat → Option ValueType
  | 1 => some .integer
  | 2 => some .float
  | 3 => some .text
  | 4 => some .blob
  | 5 => some .null
  | 9 => some .unixtime
  | 10 => some .iso8601
  | 11 => some .boolean
  | _ => none

theorem ValueType.ofCode_code (t : ValueType) : ValueType.ofCode t.code = some t := by
  cases t <;> rfl

theorem ValueType.code_le (t : ValueType) : t.code ≤ 11 := by
  cases t <;> decide

inductive NodeRole
  | voter | standby | spare
  deriving DecidableEq, Repr

def NodeRole.code : NodeRole → Nat
  | .voter => 0
  | .standby => 1
  | .spare => 2

def NodeRole.ofCode : Int → Option NodeRole
  | 0 => some .voter
  | 1 => some .standby
  | 2 => some .spare
  | _ => none

theorem NodeRole.ofCode_code (role : NodeRole) : NodeRole.ofCode role.code = some role := by
  cases role <;> rfl

theorem NodeRole.code_of_ofCode {code : Int} {role : NodeRole}
    (known : NodeRole.ofCode code = some role) : (role.code : Int) = code := by
  unfold NodeRole.ofCode at known
  split at known <;> cases known <;> rfl

/-- A role as callers pass it: the enum member or its integer. -/
inductive RoleInput
  | role (r : NodeRole)
  | int (n : Int)
  deriving DecidableEq, Repr

def defaultMaxTotalRows : Nat := 10000000
def defaultMaxContinuationFrames : Nat := 100000

def framePayload : Nat := 64 * 1024 * 1024 - 64
def maxBlobSize : Nat := framePayload
def maxTextValueSize : Nat := framePayload
def maxFileContentSize : Nat := framePayload
def maxTailOffset : Nat := 64 * 1024 * 1024
def maxParamCount : Nat := 32766
def maxColumnCount : Nat := 2000
def maxFileCount : Nat := 100
def maxNodeCount : Nat := 10000
def maxRowsAffected : Nat := 2 ^ 31 - 1
def defaultMaxRows : Nat := 1000000
def maxFailureMessageSize : Nat := 64 * 1024
def maxColumnNameSize : Nat := 4096
def maxFilenameSize : Nat := 4096
def maxDumpFilenameSize : Nat := 1019
def maxAddressSize : Nat := 256

end DqliteWire
