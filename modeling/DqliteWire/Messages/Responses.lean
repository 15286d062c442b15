import DqliteWire.Messages.Base

/-! Server to client messages. -/

namespace DqliteWire

open WireLib WireLib.Utf8

/-- The ranges of control, bidi and invisible characters, both ends included. -/
def controlCharRanges : List (Nat × Nat) :=
  [(0x00, 0x08), (0x0B, 0x1F), (0x7F, 0x9F), (0x061C, 0x061C), (0x1680, 0x1680),
   (0x180E, 0x180E), (0x200B, 0x200F), (0x2028, 0x2029), (0x202A, 0x202E), (0x202F, 0x202F),
   (0x2060, 0x2060), (0x2066, 0x2069), (0xFEFF, 0xFEFF)]

def isControlChar (c : CodePoint) : Bool :=
  controlCharRanges.any fun range => decide (range.1 ≤ c.val ∧ c.val ≤ range.2)

def questionMark : CodePoint := ⟨0x3F, by decide⟩

def sanitizeServerText (s : Str) : Str :=
  s.map fun c => if isControlChar c then questionMark else c

/-- An address as error texts show it: sanitised, cut after 64 characters. -/
def displayAddress (address : Str) : Str :=
  let sanitised := sanitizeServerText address
  if sanitised.length ≤ 64 then sanitised else sanitised.take 64 ++ [⟨0x2026, by decide⟩]

structure FailureResponse where
  code : Int
  message : Str
  deriving DecidableEq, Repr

namespace FailureResponse

def new (code : Int) (message : Str) : Except Exn FailureResponse := do
  validateUint64 "code" code
  return ⟨code, message⟩

def encodeBody (m : FailureResponse) : Except Exn Bytes := do
  let code ← encodeUint64 m.code
  let message ← encodeText m.message (some maxFailureMessageSize) "Failure message"
  return code ++ message

def skipColumnNames (data : Bytes) : Nat → Nat → Except Exn Nat
  | 0, offset => .ok offset
  | remaining + 1, offset => do
    let (_, consumed) ← decodeText .bytes (data.drop offset) maxColumnNameSize "column name"
    skipColumnNames data remaining (offset + consumed)

/-- The `try` block of `_recover_trailing_failure_record`: the record and the offset after it,
or `none` where the block returns early. -/
def trailingRecord (data : Bytes) (columnCount : Nat) : Except Exn (Option (Nat × Str × Nat)) := do
  let offset ← skipColumnNames data columnCount 8
  if data.length < offset + 9 then return none
  else
    let code ← decodeUint64 ((data.drop offset).take 8)
    let (message, consumed) ←
      decodeText .bytes (data.drop (offset + 8)) maxFailureMessageSize "Failure message"
    return some (code, message, offset + 8 + consumed)

def recoverTrailingFailureRecord (data : Bytes) (columnCount : Nat) :
    Except Exn (Option (Nat × Str)) :=
  if maxColumnCount < columnCount then .ok none
  else
    match trailingRecord data columnCount with
    | .error (.decodeError _) => .ok none
    | .error other => .error other
    | .ok none => .ok none
    | .ok (some (code, message, offset)) =>
      if offset ≠ data.length then .ok none else .ok (some (code, message))

def decodeBody (data : Bytes) (schema : Nat := 0) : Except Exn FailureResponse := do
  raiseIf (schema ≠ 0)
    (.decodeError ["FailureResponse unsupported schema version ", schema])
  raiseIf (data.length < 9)
    (.decodeError ["FailureResponse body too short: a conforming peer emits at least 16 bytes ",
      "(8 for code + 8 for the padded empty text block, per BytePad64). The 9-byte minimum here ",
      "catches the degenerate truncated case before ``decode_text``'s less-actionable ",
      "'not null-terminated' error. Got ", data.length, "."])
  let code ← decodeUint64 (data.take 8)
  let (message, consumed) ←
    decodeText .bytes (data.drop 8) maxFailureMessageSize "Failure message"
  let offset := 8 + consumed
  if offset ≠ data.length then
    match ← recoverTrailingFailureRecord data code with
    | some (code, message) => new code (sanitizeServerText message)
    | none => new code (sanitizeServerText message)
  else new code (sanitizeServerText message)

end FailureResponse

structure LeaderResponse where
  nodeId : Int
  address : Str
  deriving DecidableEq, Repr

namespace LeaderResponse

def new (nodeId : Int) (address : Str) : Except Exn LeaderResponse := do
  validateUint64 "node_id" nodeId
  return ⟨nodeId, address⟩

def encodeBody (m : LeaderResponse) : Except Exn Bytes := do
  raiseIf (m.nodeId = 0 ∧ m.address ≠ [])
    (.encodeError ["LeaderResponse: node_id=0 must be paired with an empty address (raft-leader ",
      "atomicity invariant); got address=", .repr (displayAddress m.address)])
  let nodeId ← encodeUint64 m.nodeId
  let address ← encodeText m.address (some maxAddressSize) "leader address"
  return nodeId ++ address

def encodeBodyLegacy (m : LeaderResponse) : Except Exn Bytes := do
  raiseIf (m.nodeId ≠ 0)
    (.encodeError ["LeaderResponse legacy encoding cannot carry node_id; got node_id=", m.nodeId,
      ". Use encode_body() for the modern format."])
  encodeText m.address (some maxAddressSize) "leader address"

def decodeBody (data : Bytes) (schema : Nat := 0) : Except Exn LeaderResponse := do
  raiseIf (schema ≠ 0) (.decodeError ["LeaderResponse unsupported schema version ", schema])
  raiseIf (data.length < 8)
    (.decodeError ["LeaderResponse body too short; need 8 bytes for node_id, got ", data.length])
  let nodeId ← decodeUint64 data
  let (address, consumed) ← decodeText .bytes (data.drop 8) maxAddressSize "leader address"
  let offset := 8 + consumed
  raiseIf (offset ≠ data.length)
    (.decodeError ["LeaderResponse has ", .int (data.length - offset),
      " trailing bytes after address"])
  raiseIf (nodeId = 0 ∧ address ≠ [])
    (.decodeError ["LeaderResponse: malformed (node_id, address) — got id=", nodeId, " addr=",
      .repr (displayAddress address), "; node_id=0 must be paired with an empty address"])
  new nodeId address

def decodeBodyLegacy (data : Bytes) : Except Exn LeaderResponse := do
  raiseIf (data.length < 8)
    (.decodeError ["LeaderResponse (legacy) body too short; need at least 8 bytes for the ",
      "NUL-terminated address (1-byte NUL terminator + 7-byte padding to the 8-byte boundary), ",
      "got ", data.length])
  let (address, consumed) ← decodeText .bytes data maxAddressSize "leader address"
  raiseIf (consumed ≠ data.length)
    (.decodeError ["LeaderResponse (legacy) has ", .int (data.length - consumed),
      " trailing bytes after address"])
  new 0 address

end LeaderResponse

structure WelcomeResponse where
  heartbeatTimeout : Int
  deriving DecidableEq, Repr

namespace WelcomeResponse

def new (heartbeatTimeout : Int) : Except Exn WelcomeResponse := do
  validateUint64 "heartbeat_timeout" heartbeatTimeout
  return ⟨heartbeatTimeout⟩

def encodeBody (m : WelcomeResponse) : Except Exn Bytes := encodeUint64 m.heartbeatTimeout

def decodeBody (data : Bytes) (schema : Nat := 0) : Except Exn WelcomeResponse := do
  raiseIf (schema ≠ 0) (.decodeError ["WelcomeResponse unsupported schema version ", schema])
  raiseIf (data.length ≠ 8)
    (.decodeError ["WelcomeResponse body must be exactly 8 bytes, got ", data.length])
  let heartbeatTimeout ← decodeUint64 data
  new heartbeatTimeout

end WelcomeResponse

structure DbResponse where
  dbId : Int
  deriving DecidableEq, Repr

namespace DbResponse

def new (dbId : Int) : Except Exn DbResponse := do
  validateUint32 "db_id" dbId
  return ⟨dbId⟩

def encodeBody (m : DbResponse) : Except Exn Bytes := do
  let dbId ← encodeUint32 m.dbId
  let reserved ← encodeUint32 0
  return dbId ++ reserved

def decodeBody (data : Bytes) (schema : Nat := 0) : Except Exn DbResponse := do
  raiseIf (schema ≠ 0) (.decodeError ["DbResponse unsupported schema version ", schema])
  raiseIf (data.length ≠ 8)
    (.decodeError ["DbResponse body must be exactly 8 bytes, got ", data.length])
  let dbId ← decodeUint32 data
  new dbId

end DbResponse

structure StmtResponse where
  dbId : Int
  stmtId : Int
  numParams : Int
  tailOffset : Option Int
  schema : Option Int
  deriving DecidableEq, Repr

namespace StmtResponse

def new (dbId stmtId numParams : Int) (tailOffset : Option Int := none)
    (schema : Option Int := none) : Except Exn StmtResponse := do
  validateUint32 "db_id" dbId
  validateUint32 "stmt_id" stmtId
  validateUint64 "num_params" numParams
  raiseIf ((maxParamCount : Int) < numParams)
    (.encodeError ["StmtResponse num_params ", numParams, " exceeds maximum (", maxParamCount, ")"])
  match tailOffset with
  | none => .ok ()
  | some offset => do
    validateUint64 "tail_offset" offset
    raiseIf ((maxTailOffset : Int) < offset)
      (.encodeError ["StmtResponse tail_offset ", offset, " exceeds maximum (", maxTailOffset, ")"])
  match schema with
  | none => .ok ()
  | some version =>
    raiseIf (version ≠ 0 ∧ version ≠ 1)
      (.encodeError ["StmtResponse.schema must be 0 or 1, got ", version])
  raiseIf (schema = some 0 ∧ tailOffset ≠ none)
    (.encodeError ["StmtResponse: schema=0 (V0 body) cannot carry tail_offset; pass schema=1 ",
      "for V1"])
  let tailOffset := if schema = some 1 ∧ tailOffset = none then some 0 else tailOffset
  return ⟨dbId, stmtId, numParams, tailOffset, schema⟩

def getSchema (m : StmtResponse) : Int :=
  match m.schema with
  | some version => version
  | none => if m.tailOffset = none then 0 else 1

def encodeBody (m : StmtResponse) : Except Exn Bytes := do
  raiseIf ((maxParamCount : Int) < m.numParams)
    (.encodeError ["StmtResponse num_params ", m.numParams, " exceeds maximum (", maxParamCount,
      ")"])
  let dbId ← encodeUint32 m.dbId
  let stmtId ← encodeUint32 m.stmtId
  let numParams ← encodeUint64 m.numParams
  let result := dbId ++ stmtId ++ numParams
  if m.getSchema = 1 then
    let tailOffset := m.tailOffset.getD 0
    raiseIf ((maxTailOffset : Int) < tailOffset)
      (.encodeError ["StmtResponse tail_offset ", tailOffset, " exceeds maximum (", maxTailOffset,
        ")"])
    let tail ← encodeUint64 tailOffset
    return result ++ tail
  else return result

def decodeBody (data : Bytes) (schema : Nat := 0) : Except Exn StmtResponse := do
  raiseIf (schema ≠ 0 ∧ schema ≠ 1)
    (.decodeError ["StmtResponse unsupported schema version ", schema, "; expected 0 or 1"])
  let expected : Nat := if schema = 1 then 24 else 16
  raiseIf (data.length ≠ expected)
    (.decodeError ["StmtResponse schema=", schema, " body must be exactly ", expected,
      " bytes, got ", data.length])
  let dbId ← decodeUint32 data
  let stmtId ← decodeUint32 (data.drop 4)
  let numParams ← decodeUint64 (data.drop 8)
  raiseIf (maxParamCount < numParams)
    (.decodeError ["StmtResponse num_params ", numParams, " exceeds maximum (", maxParamCount, ")"])
  if schema = 1 then
    let tailOffset ← decodeUint64 (data.drop 16)
    raiseIf (maxTailOffset < tailOffset)
      (.decodeError ["StmtResponse tail_offset ", tailOffset, " exceeds maximum (", maxTailOffset,
        ")"])
    new dbId stmtId numParams (some tailOffset) (some schema)
  else new dbId stmtId numParams none (some schema)

end StmtResponse

structure ResultResponse where
  lastInsertId : Int
  rowsAffected : Int
  deriving DecidableEq, Repr

namespace ResultResponse

def capText (rowsAffected : Int) : Text :=
  ["ResultResponse rows_affected ", rowsAffected, " exceeds maximum (", maxRowsAffected,
   "); a real dqlite cluster cannot emit a value above INT_MAX (sqlite3_changes returns C int)"]

def new (lastInsertId rowsAffected : Int) : Except Exn ResultResponse := do
  validateUint64 "last_insert_id" lastInsertId
  validateUint64 "rows_affected" rowsAffected
  raiseIf ((maxRowsAffected : Int) < rowsAffected) (.encodeError (capText rowsAffected))
  return ⟨lastInsertId, rowsAffected⟩

def encodeBody (m : ResultResponse) : Except Exn Bytes := do
  let lastInsertId ← encodeUint64 m.lastInsertId
  let rowsAffected ← encodeUint64 m.rowsAffected
  return lastInsertId ++ rowsAffected

def decodeBody (data : Bytes) (schema : Nat := 0) : Except Exn ResultResponse := do
  raiseIf (schema ≠ 0) (.decodeError ["ResultResponse unsupported schema version ", schema])
  raiseIf (data.length ≠ 16)
    (.decodeError ["ResultResponse body must be exactly 16 bytes, got ", data.length])
  let lastInsertId ← decodeUint64 data
  let rowsAffected ← decodeUint64 (data.drop 8)
  raiseIf (maxRowsAffected < rowsAffected) (.decodeError (capText rowsAffected))
  new lastInsertId rowsAffected

end ResultResponse

structure RowsResponse where
  columnNames : List Str
  columnTypes : List ValueType
  rowTypes : List (List ValueType)
  rows : List (List WireInput)
  hasMore : Bool
  deriving DecidableEq, Repr

namespace RowsResponse

/-- `None` values override the declared type to NULL. -/
def nullOverride : List ValueType → List WireInput → List ValueType
  | t :: types, v :: values =>
    (if v = .value .none then .null else t) :: nullOverride types values
  | types, _ => types

def getRowTypes (m : RowsResponse) (rowIdx : Nat) (row : List WireInput) : List ValueType :=
  let types :=
    if m.rowTypes ≠ [] ∧ rowIdx < m.rowTypes.length then m.rowTypes.getD rowIdx []
    else if m.columnTypes ≠ [] then m.columnTypes
    else row.map inferValueType
  nullOverride types row

def checkRows (m : RowsResponse) (colCount : Nat) : Nat → List (List WireInput) → Except Exn Unit
  | _, [] => .ok ()
  | i, row :: rest => do
    raiseIf (row.length ≠ colCount)
      (.encodeError ["Row ", i, " has ", row.length, " values, expected ", colCount])
    raiseIf (m.rowTypes ≠ [] ∧ i < m.rowTypes.length ∧ (m.rowTypes.getD i []).length ≠ colCount)
      (.encodeError ["row_types[", i, "] has ", (m.rowTypes.getD i []).length,
        " types, expected ", colCount])
    checkRows m colCount (i + 1) rest

def encodeNames : List Str → Except Exn Bytes
  | [] => .ok []
  | name :: names => do
    let encoded ← encodeText name (some maxColumnNameSize) "column name"
    let rest ← encodeNames names
    return encoded ++ rest

section Encode

variable (isoError : Str → Option String)

def encodeRows (m : RowsResponse) : Nat → List (List WireInput) → Except Exn Bytes
  | _, [] => .ok []
  | i, row :: rest => do
    let types := m.getRowTypes i row
    let header ← encodeRowHeader types
    let values ← encodeRowValues isoError row types
    let others ← encodeRows m (i + 1) rest
    return header ++ values ++ others

def encodeBody (m : RowsResponse) : Except Exn Bytes := do
  let colCount := m.columnNames.length
  raiseIf (maxColumnCount < colCount)
    (.encodeError ["RowsResponse column count ", colCount, " exceeds maximum (", maxColumnCount,
      ")"])
  raiseIf (m.columnTypes ≠ [] ∧ m.columnTypes.length ≠ colCount)
    (.encodeError ["column_types length (", m.columnTypes.length, ") != column_names length (",
      colCount, ")"])
  raiseIf (m.rowTypes ≠ [] ∧ m.rowTypes.length ≠ m.rows.length)
    (.encodeError ["row_types length (", m.rowTypes.length, ") != rows length (", m.rows.length,
      "); pass an empty row_types to infer per-row types from the values"])
  raiseIf (colCount = 0 ∧ m.rows ≠ [])
    (.encodeError ["RowsResponse with zero columns cannot carry rows (got ", m.rows.length,
      " empty row(s))"])
  checkRows m colCount 0 m.rows
  let count ← encodeUint64 colCount
  let names ← encodeNames m.columnNames
  let rows ← encodeRows isoError m 0 m.rows
  let marker ← encodeUint64 (fromLE (if m.hasMore then rowPartMarker else rowDoneMarker))
  return count ++ names ++ rows ++ marker

end Encode

def decodeNames (view : Bytes) : Nat → Nat → Except Exn (List Str × Nat)
  | 0, offset => .ok ([], offset)
  | remaining + 1, offset => do
    let (name, consumed) ← decodeText .view (view.drop offset) maxColumnNameSize "column name"
    let (names, last) ← decodeNames view remaining (offset + consumed)
    return (name :: names, last)

def decodeZeroColumnMarker (markerView : Bytes) : Except Exn Bool :=
  if markerView = rowDoneMarker then .ok false
  else if markerView = rowPartMarker then .ok true
  else .error (.decodeError ["Expected DONE or PART marker for zero-column result, got 0x",
    .bytesHex markerView])

def decodeZeroColumns (view : Bytes) (columnNames : List Str) (offset : Nat) :
    Except Exn RowsResponse := do
  raiseIf (view.length < offset + wordSize)
    (.decodeError ["RowsResponse body exhausted without end marker (zero-column result)"])
  let hasMore ← decodeZeroColumnMarker ((view.drop offset).take wordSize)
  let last := offset + wordSize
  raiseIf (last ≠ view.length)
    (.decodeError ["RowsResponse zero-column body has ", .int (view.length - last),
      " trailing bytes after DONE/PART marker"])
  return ⟨columnNames, [], [], [], hasMore⟩

/-- The row loop: `rows` and `types` are what it has collected so far. -/
def decodeRows (view : Bytes) (columnNames : List Str) (maxRows : Nat) (textErrors : Handler) :
    Nat → Nat → List (List WireInput) → List (List ValueType) → Except Exn RowsResponse
  | 0, _, _, _ => .error .outOfFuel
  | fuel + 1, offset, rows, types =>
    if offset < view.length then do
      let (result, consumed) ← decodeRowHeader (view.drop offset) columnNames.length
      let offset := offset + consumed
      match result with
      | .inr marker => do
        raiseIf (offset ≠ view.length)
          (.decodeError ["RowsResponse body has ", .int (view.length - offset),
            " trailing bytes after ", if marker = .done then "DONE" else "PART",
            " marker (decoded ", rows.length, " rows)"])
        return ⟨columnNames, types.headD [], types, rows, marker = .part⟩
      | .inl rowTypes => do
        let (values, consumed) ← decodeRowValues .view (view.drop offset) rowTypes textErrors
        let rows := rows ++ [values.map .value]
        let offset := offset + consumed
        raiseIf (maxRows ≤ rows.length)
          (.decodeError ["Row count ", rows.length, " reached limit ", maxRows,
            " (cap is exclusive — raise max_rows if larger result sets are expected)"])
        decodeRows view columnNames maxRows textErrors fuel offset rows (types ++ [rowTypes])
    else .error (.decodeError ["RowsResponse body exhausted without end marker (decoded ",
      rows.length, " rows, consumed ", offset, " of ", view.length, " bytes)"])

def decodeBody (data : Bytes) (schema : Nat := 0) (maxRows : Nat := defaultMaxRows)
    (textErrors : Handler := .strict) : Except Exn RowsResponse := do
  raiseIf (schema ≠ 0) (.decodeError ["RowsResponse unsupported schema version ", schema])
  let columnCount ← decodeUint64 data
  let offset := 8
  raiseIf (maxColumnCount < columnCount)
    (.decodeError ["Column count ", columnCount, " exceeds maximum ", maxColumnCount])
  let remaining := data.length - offset
  let maxColumns := (remaining - wordSize) / 8
  raiseIf (maxColumns < columnCount)
    (.decodeError ["Column count ", columnCount, " exceeds maximum possible in ", remaining,
      " bytes of remaining data (reserving ", wordSize, " bytes for the row end marker)"])
  let (columnNames, offset) ← decodeNames data columnCount offset
  if columnCount = 0 then decodeZeroColumns data columnNames offset
  -- each turn of the loop consumes at least a word
  else decodeRows data columnNames maxRows textErrors (data.length + 1) offset [] []

end RowsResponse

structure EmptyResponse where
  deriving DecidableEq, Repr

namespace EmptyResponse

def encodeBody (_ : EmptyResponse) : Except Exn Bytes := encodeUint64 0

def decodeBody (data : Bytes) (schema : Nat := 0) : Except Exn EmptyResponse := do
  raiseIf (schema ≠ 0) (.decodeError ["EmptyResponse unsupported schema version ", schema])
  raiseIf (data.length ≠ 8)
    (.decodeError ["EmptyResponse body must be exactly 8 bytes, got ", data.length])
  let _ ← decodeUint64 data
  return ⟨⟩

end EmptyResponse

/-- A dict from names to contents, in insertion order. -/
structure FilesResponse where
  files : List (Str × Bytes)
  distinct : (files.map Prod.fst).Nodup
  deriving DecidableEq, Repr

namespace FilesResponse

/-- `files[name] = content` for a name that is not in the dict. -/
def insert (m : FilesResponse) (name : Str) (content : Bytes) (fresh : name ∉ m.files.map Prod.fst) :
    FilesResponse where
  files := m.files ++ [(name, content)]
  distinct := by
    rw [List.map_append, List.nodup_append]
    refine ⟨m.distinct, by simp, ?_⟩
    rintro other member _ inserted rfl
    simp only [List.map_cons, List.map_nil, List.mem_singleton] at inserted
    exact fresh (inserted ▸ member)

def encodeFiles : List (Str × Bytes) → Except Exn Bytes
  | [] => .ok []
  | (name, content) :: rest => do
    raiseIf (content.length % 8 ≠ 0)
      (.encodeError ["FilesResponse content for ", .repr name, " must be 8-byte aligned (got ",
        content.length, " bytes); dqlite file entries carry no per-file padding"])
    raiseIf (maxFileContentSize < content.length)
      (.encodeError ["FilesResponse content for ", .repr name, " length ", content.length,
        " exceeds maximum (", maxFileContentSize, ")"])
    let encodedName ← encodeText name (some maxFilenameSize) "filename"
    let size ← encodeUint64 content.length
    let others ← encodeFiles rest
    return encodedName ++ size ++ content ++ others

def encodeBody (m : FilesResponse) : Except Exn Bytes := do
  raiseIf (maxFileCount < m.files.length)
    (.encodeError ["FilesResponse count ", m.files.length, " exceeds maximum (", maxFileCount, ")"])
  let count ← encodeUint64 m.files.length
  let files ← encodeFiles m.files
  return count ++ files

def decodeFiles (view : Bytes) : Nat → Nat → FilesResponse → Except Exn (FilesResponse × Nat)
  | 0, offset, files => .ok (files, offset)
  | remaining + 1, offset, files => do
    let (name, consumed) ← decodeText .view (view.drop offset) maxFilenameSize "filename"
    let offset := offset + consumed
    let size ← decodeUint64 (view.drop offset)
    let offset := offset + 8
    raiseIf (size % 8 ≠ 0)
      (.decodeError ["FilesResponse content for ", .repr name, " must be 8-byte aligned (got ",
        size, " bytes)"])
    raiseIf (maxFileContentSize < size)
      (.decodeError ["FilesResponse content for ", .repr name, " length ", size,
        " exceeds maximum (", maxFileContentSize, ")"])
    raiseIf (view.length < offset + size)
      (.decodeError ["FilesResponse file content truncated: expected ", size,
        " bytes at offset ", offset, ", but only ", .int (view.length - offset),
        " bytes available"])
    let content := (view.drop offset).take size
    let offset := offset + size
    if known : name ∈ files.files.map Prod.fst then
      .error (.decodeError ["FilesResponse: duplicate filename ", .repr name])
    else decodeFiles view remaining offset (files.insert name content known)

def decodeBody (data : Bytes) (schema : Nat := 0) : Except Exn FilesResponse := do
  raiseIf (schema ≠ 0) (.decodeError ["FilesResponse unsupported schema version ", schema])
  let count ← decodeUint64 data
  let offset := 8
  raiseIf (maxFileCount < count)
    (.decodeError ["File count ", count, " exceeds maximum ", maxFileCount])
  let remaining := data.length - offset
  raiseIf (remaining / 16 < count)
    (.decodeError ["File count ", count, " exceeds maximum possible in ", remaining,
      " bytes of remaining data"])
  let (files, offset) ← decodeFiles data count offset ⟨[], by simp⟩
  raiseIf (offset ≠ data.length)
    (.decodeError ["FilesResponse has ", .int (data.length - offset),
      " trailing bytes after last file"])
  return files

end FilesResponse

structure NodeInfo where
  nodeId : Int
  address : Str
  role : NodeRole
  deriving DecidableEq, Repr

def NodeInfo.new (nodeId : Int) (address : Str) (role : RoleInput) : Except Exn NodeInfo := do
  validateUint64 "node_id" nodeId
  raiseIf (nodeId = 0)
    (.encodeError ["NodeInfo: node_id must be >= 1 (raft-configuration invariant); got node_id=",
      nodeId])
  raiseIf (address = [])
    (.encodeError ["NodeInfo: address must be non-empty for node_id=", nodeId,
      " (raft-configuration invariant)"])
  match role with
  | .role r => return ⟨nodeId, address, r⟩
  | .int n => do
    validateUint64 "role" n
    match NodeRole.ofCode n with
    | some r => return ⟨nodeId, address, r⟩
    | none => .error (.encodeError ["NodeInfo: unknown role ", n,
        "; valid roles are 0 (VOTER), 1 (STANDBY), 2 (SPARE)"])

inductive UnknownRolePolicy
  | reject | warn | accept
  deriving DecidableEq, Repr

structure ServersResponse where
  nodes : List NodeInfo
  deriving DecidableEq, Repr

namespace ServersResponse

def encodeNodes : List NodeInfo → Except Exn Bytes
  | [] => .ok []
  | node :: rest => do
    let nodeId ← encodeUint64 node.nodeId
    let address ← encodeText node.address (some maxAddressSize) "server address"
    let role ← encodeUint64 node.role.code
    let others ← encodeNodes rest
    return nodeId ++ address ++ role ++ others

def encodeBody (m : ServersResponse) : Except Exn Bytes := do
  raiseIf (maxNodeCount < m.nodes.length)
    (.encodeError ["ServersResponse node count ", m.nodes.length, " exceeds maximum (",
      maxNodeCount, ")"])
  let count ← encodeUint64 m.nodes.length
  let nodes ← encodeNodes m.nodes
  return count ++ nodes

def decodeRole (rawRole offset : Nat) (policy : UnknownRolePolicy) : Except Exn NodeRole :=
  match NodeRole.ofCode rawRole with
  | some role => .ok role
  | none =>
    if policy = .reject then
      .error (.decodeError ["Invalid node role ", rawRole, " at offset ", .int (offset - 8),
        "; expected one of [0, 1, 2]"])
    else .ok .spare

def decodeNodes (view : Bytes) (policy : UnknownRolePolicy) :
    Nat → Nat → List NodeInfo → Except Exn (List NodeInfo × Nat)
  | 0, offset, nodes => .ok (nodes, offset)
  | remaining + 1, offset, nodes => do
    let nodeId ← decodeUint64 (view.drop offset)
    let offset := offset + 8
    let (address, consumed) ← decodeText .view (view.drop offset) maxAddressSize "server address"
    let offset := offset + consumed
    raiseIf (nodeId = 0 ∨ address = [])
      (.decodeError ["ServersResponse: malformed (node_id, address) entry — got id=", nodeId,
        " addr=", .repr (displayAddress address), "; expected node_id>=1 with non-empty address ",
        "(raft configuration invariant)"])
    raiseIf ((nodeId : Int) ∈ nodes.map NodeInfo.nodeId)
      (.decodeError ["Duplicate node_id ", nodeId, " in ServersResponse"])
    let rawRole ← decodeUint64 (view.drop offset)
    let offset := offset + 8
    let role ← decodeRole rawRole offset policy
    let node ← NodeInfo.new nodeId address (.role role)
    decodeNodes view policy remaining offset (nodes ++ [node])

def decodeBody (data : Bytes) (schema : Nat := 0) (policy : UnknownRolePolicy := .reject) :
    Except Exn ServersResponse := do
  raiseIf (schema ≠ 0) (.decodeError ["ServersResponse unsupported schema version ", schema])
  let count ← decodeUint64 data
  let offset := 8
  raiseIf (maxNodeCount < count)
    (.decodeError ["Node count ", count, " exceeds maximum ", maxNodeCount])
  let remaining := data.length - offset
  raiseIf (remaining / 24 < count)
    (.decodeError ["Node count ", count, " exceeds maximum possible in ", remaining,
      " bytes of remaining data"])
  let (nodes, offset) ← decodeNodes data policy count offset []
  raiseIf (offset ≠ data.length)
    (.decodeError ["ServersResponse has ", .int (data.length - offset),
      " trailing bytes after ", count, " nodes"])
  return ⟨nodes⟩

end ServersResponse

structure MetadataResponse where
  failureDomain : Int
  weight : Int
  deriving DecidableEq, Repr

namespace MetadataResponse

def new (failureDomain weight : Int) : Except Exn MetadataResponse := do
  validateUint64 "failure_domain" failureDomain
  validateUint64 "weight" weight
  return ⟨failureDomain, weight⟩

def encodeBody (m : MetadataResponse) : Except Exn Bytes := do
  let failureDomain ← encodeUint64 m.failureDomain
  let weight ← encodeUint64 m.weight
  return failureDomain ++ weight

def decodeBody (data : Bytes) (schema : Nat := 0) : Except Exn MetadataResponse := do
  raiseIf (schema ≠ 0) (.decodeError ["MetadataResponse unsupported schema version ", schema])
  raiseIf (data.length ≠ 16)
    (.decodeError ["MetadataResponse body must be exactly 16 bytes, got ", data.length])
  let failureDomain ← decodeUint64 data
  let weight ← decodeUint64 (data.drop 8)
  new failureDomain weight

end MetadataResponse

end DqliteWire
