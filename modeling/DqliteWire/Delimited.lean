import DqliteWire.Counted
import DqliteWire.Exchange
import DqliteWire.Framing

/-! Encoded messages delimit themselves. Every encoder writes whole words, so a message is a header
that counts the words of its body, and a reader of concatenated messages finds their boundaries. -/

namespace DqliteWire

open WireLib WireLib.Utf8

def WholeWords (x : Except Exn Bytes) : Prop := ∀ bytes, x = .ok bytes → bytes.length % 8 = 0

section Rules

variable {α : Type} {x : Except Exn Bytes} {f : Bytes → Except Exn Bytes}

theorem wholeWords_error (e : Exn) : WholeWords (.error e) := by
  intro bytes returned
  cases returned

theorem wholeWords_ok {bytes : Bytes} (aligned : bytes.length % 8 = 0) : WholeWords (.ok bytes) := by
  intro bytes' returned
  cases returned
  exact aligned

theorem wholeWords_then {x : Except Exn α} {f : α → Except Exn Bytes}
    (next : ∀ a, x = .ok a → WholeWords (f a)) : WholeWords (x >>= f) := by
  intro bytes returned
  obtain ⟨a, first, rest⟩ := bind_eq_ok.mp returned
  exact next a first bytes rest

theorem wholeWords_guard {condition : Prop} [Decidable condition] {e : Exn}
    {f : Unit → Except Exn Bytes} (next : ¬ condition → WholeWords (f ())) :
    WholeWords (raiseIf condition e >>= f) :=
  wholeWords_then fun _ passed => next (raiseIf_eq_ok.mp passed)

theorem wholeWords_piece (first : WholeWords x)
    (next : ∀ piece, piece.length % 8 = 0 → WholeWords (f piece)) : WholeWords (x >>= f) :=
  wholeWords_then fun piece returned => next piece (first piece returned)

end Rules

theorem mod_append {first second : Bytes} (aligned : first.length % 8 = 0)
    (aligned' : second.length % 8 = 0) : (first ++ second).length % 8 = 0 := by
  rw [List.length_append]
  omega

section Fields

variable {isoError : Str → Option String}

theorem encodeUint64_words (value : Int) : WholeWords (encodeUint64 value) := by
  intro bytes encoded
  rw [(encodeUint64_ok encoded).2.2, toLE_length]

theorem encodeText_words (s : Str) (cap : Nat) (label : String) :
    WholeWords (encodeText s (some cap) label) :=
  fun _ encoded => (decodeText_encode encoded .view [] label .strict).2.1

theorem encodeValue_words {value : WireInput} {t t' : ValueType} {bytes : Bytes}
    (encoded : encodeValue isoError value (some t) = .ok (bytes, t')) : bytes.length % 8 = 0 :=
  (decodeValue_encode .view encoded [] .strict).2.1

theorem encodeUint32_pair (first second : Int) :
    WholeWords (do return (← encodeUint32 first) ++ (← encodeUint32 second)) := by
  intro bytes encoded
  obtain ⟨_, before, tail⟩ := bind_eq_ok.mp encoded
  obtain ⟨_, after, last⟩ := bind_eq_ok.mp tail
  cases last
  obtain ⟨n, _, _, rfl⟩ := encodeUint32_ok before
  obtain ⟨k, _, _, rfl⟩ := encodeUint32_ok after
  rw [List.length_append, toLE_length, toLE_length]

theorem encodeSqlPrefix_words (dbId : Int) (sql : Str) : WholeWords (encodeSqlPrefix dbId sql) :=
  fun _ encoded => (decodeSqlPrefix_encode encoded []).2

theorem encodeNodeAddress_words (label : String) (nodeId : Int) (address : Str) :
    WholeWords (encodeNodeAddress label nodeId address) := by
  refine wholeWords_piece (encodeUint64_words _) fun id idWords => ?_
  refine wholeWords_piece (encodeText_words _ _ _) fun text textWords => ?_
  exact wholeWords_ok (mod_append idWords textWords)

theorem encodeParamsTuple_words (params : List WireInput) (schema : Int) {offset : Nat}
    (aligned : offset % 8 = 0) (emit : Bool) :
    WholeWords (encodeParamsTuple isoError params schema offset emit) := by
  intro bytes encoded
  obtain ⟨_, known, _⟩ := bind_eq_ok.mp encoded
  have version := raiseIf_eq_ok.mp known
  obtain ⟨schema, rfl⟩ : ∃ n : Nat, schema = n := ⟨schema.toNat, by omega⟩
  have version : schema = 0 ∨ schema = 1 := by omega
  by_cases empty : params = []
  · rw [empty, encodeParamsTuple_none version] at encoded
    cases encoded
    cases emit <;> rfl
  · obtain ⟨_, _, types, pieces, written, rfl⟩ := encodeParamsTuple_ok version empty encoded
    have length := (encodeParams_types written).1
    have values := (encodeParams_length written).1
    have padded := mod_padToWord (offset + (countWidth schema + params.length))
    simp only [List.length_append, toLE_length, List.length_map, zeros_length, length]
    omega

theorem ParamsFields.encodeBody_words (f : ParamsFields) {encodePrefix : Except Exn Bytes}
    (first : WholeWords encodePrefix) : WholeWords (f.encodeBody isoError encodePrefix) := by
  refine wholeWords_piece first fun start startWords => ?_
  refine wholeWords_piece (encodeParamsTuple_words _ _ startWords _) fun tuple tupleWords => ?_
  exact wholeWords_ok (mod_append startWords tupleWords)

end Fields

section Lists

variable {isoError : Str → Option String}

theorem encodeRowHeader_words (types : List ValueType) : WholeWords (encodeRowHeader types) := by
  unfold encodeRowHeader
  split
  · exact wholeWords_ok rfl
  · refine wholeWords_then fun _ _ => wholeWords_ok ?_
    rw [List.length_append, zeros_length]
    exact mod_padToWord _

theorem encodeCells_words (cells : List (WireInput × ValueType)) :
    WholeWords (encodeCells isoError cells) := by
  induction cells with
  | nil => exact wholeWords_ok rfl
  | cons cell cells ih =>
      obtain ⟨value, t⟩ := cell
      refine wholeWords_then ?_
      rintro ⟨encoded, t'⟩ written
      refine wholeWords_piece ih fun others otherWords => ?_
      exact wholeWords_ok (mod_append (encodeValue_words written) otherWords)

namespace RowsResponse

theorem encodeNames_words (names : List Str) : WholeWords (encodeNames names) := by
  induction names with
  | nil => exact wholeWords_ok rfl
  | cons name names ih =>
      refine wholeWords_piece (encodeText_words _ _ _) fun encoded words => ?_
      refine wholeWords_piece ih fun others otherWords => ?_
      exact wholeWords_ok (mod_append words otherWords)

theorem encodeRows_words (m : RowsResponse) (i : Nat) (rows : List (List WireInput)) :
    WholeWords (m.encodeRows isoError i rows) := by
  induction rows generalizing i with
  | nil => exact wholeWords_ok rfl
  | cons row rows ih =>
      refine wholeWords_piece (encodeRowHeader_words _) fun header headerWords => ?_
      refine wholeWords_piece ?_ fun values valueWords => ?_
      · exact wholeWords_guard fun _ => encodeCells_words _
      · refine wholeWords_piece (ih (i + 1)) fun others otherWords => ?_
        exact wholeWords_ok (mod_append (mod_append headerWords valueWords) otherWords)

theorem encodeBody_words (m : RowsResponse) : WholeWords (m.encodeBody isoError) := by
  refine wholeWords_guard fun _ => ?_
  refine wholeWords_guard fun _ => ?_
  refine wholeWords_guard fun _ => ?_
  refine wholeWords_guard fun _ => ?_
  refine wholeWords_then fun _ _ => ?_
  refine wholeWords_piece (encodeUint64_words _) fun count countWords => ?_
  refine wholeWords_piece (encodeNames_words _) fun names nameWords => ?_
  refine wholeWords_piece (encodeRows_words m 0 _) fun rows rowWords => ?_
  refine wholeWords_piece (encodeUint64_words _) fun marker markerWords => ?_
  exact wholeWords_ok (mod_append (mod_append (mod_append countWords nameWords) rowWords) markerWords)

end RowsResponse

/-- The contents are written as they are; the guard in front of them asks for whole words. -/
theorem FilesResponse.encodeFiles_words (files : List (Str × Bytes)) :
    WholeWords (encodeFiles files) := by
  induction files with
  | nil => exact wholeWords_ok rfl
  | cons file files ih =>
      obtain ⟨name, content⟩ := file
      refine wholeWords_guard fun aligned => ?_
      refine wholeWords_guard fun _ => ?_
      refine wholeWords_piece (encodeText_words _ _ _) fun encoded nameWords => ?_
      refine wholeWords_piece (encodeUint64_words _) fun size sizeWords => ?_
      refine wholeWords_piece ih fun others otherWords => ?_
      exact wholeWords_ok
        (mod_append (mod_append (mod_append nameWords sizeWords) (not_not.mp aligned)) otherWords)

theorem ServersResponse.encodeNodes_words (nodes : List NodeInfo) : WholeWords (encodeNodes nodes) := by
  induction nodes with
  | nil => exact wholeWords_ok rfl
  | cons node nodes ih =>
      refine wholeWords_piece (encodeUint64_words _) fun id idWords => ?_
      refine wholeWords_piece (encodeText_words _ _ _) fun address addressWords => ?_
      refine wholeWords_piece (encodeUint64_words _) fun role roleWords => ?_
      refine wholeWords_piece ih fun others otherWords => ?_
      exact wholeWords_ok
        (mod_append (mod_append (mod_append idWords addressWords) roleWords) otherWords)

end Lists

theorem Request.encodeBody_words (isoError : Str → Option String) (m : Request) :
    WholeWords (m.encodeBody isoError) := by
  cases m with
  | leader m | client m | heartbeat m | interrupt m | remove m | transfer m | weight m | cluster m
  | describe m => exact encodeUint64_words _
  | «open» m =>
      refine wholeWords_piece (encodeText_words _ _ _) fun name nameWords => ?_
      refine wholeWords_piece (encodeUint64_words _) fun flags flagWords => ?_
      refine wholeWords_piece (encodeText_words _ _ _) fun vfs vfsWords => ?_
      exact wholeWords_ok (mod_append (mod_append nameWords flagWords) vfsWords)
  | prepare m => exact encodeSqlPrefix_words _ _
  | exec m | query m => exact ParamsFields.encodeBody_words _ (encodeUint32_pair _ _)
  | execSql m | querySql m => exact ParamsFields.encodeBody_words _ (encodeSqlPrefix_words _ _)
  | finalize m => exact encodeUint32_pair _ _
  | connect m | add m => exact encodeNodeAddress_words _ _ _
  | assign m =>
      obtain ⟨nodeId, role, legacyIntent⟩ := m
      cases role with
      | none => exact wholeWords_error _
      | some role =>
          refine wholeWords_piece (encodeUint64_words _) fun id idWords => ?_
          refine wholeWords_piece (encodeUint64_words _) fun code codeWords => ?_
          exact wholeWords_ok (mod_append idWords codeWords)
  | dump m => exact encodeText_words _ _ _

theorem StmtResponse.encodeBody_words (m : StmtResponse) : WholeWords m.encodeBody := by
  refine wholeWords_guard fun _ => ?_
  refine wholeWords_then fun dbId first => ?_
  refine wholeWords_then fun stmtId second => ?_
  have ids : (dbId ++ stmtId).length % 8 = 0 :=
    encodeUint32_pair m.dbId m.stmtId _ (bind_eq_ok.mpr ⟨_, first, bind_eq_ok.mpr ⟨_, second, rfl⟩⟩)
  refine wholeWords_piece (encodeUint64_words _) fun count countWords => ?_
  simp only
  split
  · refine wholeWords_guard fun _ => ?_
    refine wholeWords_piece (encodeUint64_words _) fun tail tailWords => ?_
    exact wholeWords_ok (mod_append (mod_append ids countWords) tailWords)
  · exact wholeWords_ok (mod_append ids countWords)

theorem Response.encodeBody_words (isoError : Str → Option String) (m : Response) :
    WholeWords (m.encodeBody isoError) := by
  cases m with
  | failure m =>
      refine wholeWords_piece (encodeUint64_words _) fun code codeWords => ?_
      refine wholeWords_piece (encodeText_words _ _ _) fun message messageWords => ?_
      exact wholeWords_ok (mod_append codeWords messageWords)
  | leader m =>
      refine wholeWords_guard fun _ => ?_
      refine wholeWords_piece (encodeUint64_words _) fun id idWords => ?_
      refine wholeWords_piece (encodeText_words _ _ _) fun address addressWords => ?_
      exact wholeWords_ok (mod_append idWords addressWords)
  | welcome m | empty m => exact encodeUint64_words _
  | servers m =>
      refine wholeWords_guard fun _ => ?_
      refine wholeWords_piece (encodeUint64_words _) fun count countWords => ?_
      refine wholeWords_piece (ServersResponse.encodeNodes_words _) fun nodes nodeWords => ?_
      exact wholeWords_ok (mod_append countWords nodeWords)
  | db m => exact encodeUint32_pair _ _
  | stmt m => exact m.encodeBody_words
  | result m | metadata m =>
      refine wholeWords_piece (encodeUint64_words _) fun first firstWords => ?_
      refine wholeWords_piece (encodeUint64_words _) fun second secondWords => ?_
      exact wholeWords_ok (mod_append firstWords secondWords)
  | rows m => exact m.encodeBody_words
  | files m =>
      refine wholeWords_guard fun _ => ?_
      refine wholeWords_piece (encodeUint64_words _) fun count countWords => ?_
      refine wholeWords_piece (FilesResponse.encodeFiles_words _) fun files fileWords => ?_
      exact wholeWords_ok (mod_append countWords fileWords)

namespace Message

theorem encodeBody_words (isoError : Str → Option String) (m : Message) :
    WholeWords (m.encodeBody isoError) := by
  cases m with
  | request m => exact m.encodeBody_words isoError
  | response m => exact m.encodeBody_words isoError

def isRequest : Message → Bool
  | .request _ => true
  | .response _ => false

/-- Where a class has a schema field, it holds an int that the constructor takes; the dataclass lets
it be assigned to later on. -/
def SchemaAccepted : Message → Prop
  | .request (.prepare m) => m.schema = 0 ∨ m.schema = 1
  | .response (.stmt m) => ∀ version ∈ m.schema, version = 0 ∨ version = 1
  | _ => True

variable {isoError : Str → Option String} {m : Message} {body f : Bytes}

theorem typeCode_lt (m : Message) : m.typeCode < 256 := by
  cases m with
  | request m =>
      show m.type.code < 256
      cases m.type <;> decide
  | response m =>
      show m.type.code < 256
      cases m.type <;> decide

/-- The params requests take their schema to the tuple encoder, which checks it. -/
theorem params_supported {fields : ParamsFields} {encodePrefix : Except Exn Bytes}
    (encoded : fields.encodeBody isoError encodePrefix = .ok body) :
    ∃ schema : Nat, fields.getSchema = schema ∧ schema ≤ 1 := by
  obtain ⟨start, _, tail⟩ := bind_eq_ok.mp encoded
  obtain ⟨tuple, written, _⟩ := bind_eq_ok.mp tail
  obtain ⟨_, known, _⟩ := bind_eq_ok.mp written
  have version := raiseIf_eq_ok.mp known
  exact ⟨fields.getSchema.toNat, by omega, by omega⟩

theorem schema_supported (accepted : m.SchemaAccepted) (encoded : m.encodeBody isoError = .ok body) :
    ∃ schema : Nat, m.getSchema = schema ∧ schema < 256 ∧
      schema ≤ MessageDecoder.maxSchema m.isRequest m.typeCode := by
  cases m with
  | request m =>
      cases m with
      | prepare m =>
          have version : m.schema = 0 ∨ m.schema = 1 := accepted
          have ceiling : MessageDecoder.maxSchema true RequestType.prepare.code = 1 := by decide
          refine ⟨m.schema.toNat, ?_, by omega, ?_⟩
          · show m.schema = _
            omega
          · show m.schema.toNat ≤ MessageDecoder.maxSchema true RequestType.prepare.code
            omega
      | exec m | query m | execSql m | querySql m =>
          obtain ⟨schema, same, small⟩ := params_supported encoded
          exact ⟨schema, same, by omega, small⟩
      | leader | client | heartbeat | «open» | finalize | interrupt | connect | add | assign | remove
      | dump | cluster | transfer | describe | weight => exact ⟨0, rfl, by decide, Nat.zero_le _⟩
  | response m =>
      cases m with
      | stmt m =>
          have ceiling : MessageDecoder.maxSchema false ResponseType.stmt.code = 1 := by decide
          have version : m.getSchema = 0 ∨ m.getSchema = 1 := by
            unfold StmtResponse.getSchema
            cases chosen : m.schema with
            | some version => exact accepted version chosen
            | none =>
                simp only
                split
                · exact Or.inl rfl
                · exact Or.inr rfl
          refine ⟨m.getSchema.toNat, ?_, by omega, ?_⟩
          · show m.getSchema = _
            omega
          · show m.getSchema.toNat ≤ MessageDecoder.maxSchema false ResponseType.stmt.code
            omega
      | failure | leader | welcome | servers | db | result | rows | empty | files | metadata =>
          exact ⟨0, rfl, by decide, Nat.zero_le _⟩

/-- The frame says where it ends, and carries a schema the decoder of its direction takes. -/
structure SelfDelimiting (m : Message) (body f : Bytes) : Prop where
  size : 8 * fromLE (f.take 4) + 8 = f.length
  type : (f.getD 4 0).toNat = m.typeCode
  schema : (f.getD 5 0).toNat ≤ MessageDecoder.maxSchema m.isRequest m.typeCode
  body : f.drop 8 = body

end Message

section Frame

variable {className : String} {msgType schema : Nat} {body f : Bytes}

def sizeOverflow (words : Nat) : Exn :=
  .encodeError ["Header ", "size_words", " ", words, " out of range for uint", (32 : Nat)]

/-- Once the body is whole words, only the width of the size field can stop a frame. -/
theorem encodeFrame_eq (aligned : body.length % 8 = 0) (type : msgType < 256)
    (version : schema < 256) : encodeFrame className msgType schema (.ok body) =
      if body.length / 8 < 2 ^ 32 then
        .ok (Header.encode ⟨body.length / 8, msgType, schema, 0⟩ ++ body)
      else .error (sizeOverflow (body.length / 8)) := by
  have power : (2 : Nat) ^ 32 = 4294967296 := by norm_num
  have word : body.length % wordSize = 0 := aligned
  have range (field : String) (n bits : Nat) (small : n < 2 ^ bits) :
      Header.checkRange field n bits = .ok () :=
    raiseIf_neg (not_not.mpr ⟨Int.natCast_nonneg n, by exact_mod_cast small⟩)
  have spare : Header.checkRange "reserved field" 0 16 = .ok () := range _ 0 16 (by decide)
  rw [encodeFrame, ok_bind, raiseIf_neg (not_not.mpr word), ok_bind, Header.new, spare, ok_bind]
  by_cases small : body.length / 8 < 2 ^ 32
  · rw [if_pos small, wordSize, range _ _ 32 small, ok_bind, range _ msgType 8 type, ok_bind,
      range _ schema 8 version, ok_bind]
    simp only [Int.toNat_natCast]
    rfl
  · have large : ¬ ((0 : Int) ≤ ((body.length / 8 : Nat) : Int) ∧
        ((body.length / 8 : Nat) : Int) < 2 ^ 32) := by
      rintro ⟨_, bound⟩
      exact small (by exact_mod_cast bound)
    rw [if_neg small, wordSize, Header.checkRange, raiseIf, if_pos large]
    rfl

theorem encodeFrame_schema {schema : Int}
    (encoded : encodeFrame className msgType schema (.ok body) = .ok f) :
    ∃ n : Nat, schema = n := by
  obtain ⟨_, same, tail⟩ := bind_eq_ok.mp encoded
  cases same
  obtain ⟨_, _, tail⟩ := bind_eq_ok.mp tail
  obtain ⟨_, built, _⟩ := bind_eq_ok.mp tail
  obtain ⟨_, _, tail⟩ := bind_eq_ok.mp built
  obtain ⟨_, _, tail⟩ := bind_eq_ok.mp tail
  obtain ⟨_, _, tail⟩ := bind_eq_ok.mp tail
  obtain ⟨_, version, _⟩ := bind_eq_ok.mp tail
  exact ⟨schema.toNat, (Int.toNat_of_nonneg (Header.checkRange_ok version).1).symm⟩

end Frame

namespace Message

variable {isoError : Str → Option String} {m : Message} {body f : Bytes}

theorem encode_iff (accepted : m.SchemaAccepted) (encoded : m.encodeBody isoError = .ok body) :
    ((∃ f, m.encode isoError = .ok f) ↔ body.length / 8 < 2 ^ 32) ∧
      ∀ f, m.encode isoError = .ok f → SelfDelimiting m body f := by
  have aligned := encodeBody_words isoError m body encoded
  obtain ⟨schema, versioned, version, supported⟩ := schema_supported accepted encoded
  have framed : m.encode isoError = if body.length / 8 < 2 ^ 32 then
      .ok (Header.encode ⟨body.length / 8, m.typeCode, schema, 0⟩ ++ body)
      else .error (sizeOverflow (body.length / 8)) := by
    rw [encode, encoded, versioned]
    exact encodeFrame_eq aligned m.typeCode_lt version
  rw [framed]
  by_cases small : body.length / 8 < 2 ^ 32
  · rw [if_pos small]
    refine ⟨iff_of_true ⟨_, rfl⟩ small, ?_⟩
    rintro f ⟨⟩
    have words : body.length / 8 < 256 ^ 4 := lt_of_lt_of_eq small (by norm_num)
    have header := frameHeader_encode words m.typeCode_lt version body
    have size := congrArg Header.sizeWords header
    have type := congrArg Header.msgType header
    have schema_ := congrArg Header.schema header
    simp only [frameHeader] at size type schema_
    refine ⟨?_, type, schema_.trans_le supported, frameBody_encode _ body⟩
    rw [size, List.length_append, Header.encode_length, headerSize]
    omega
  · rw [if_neg small]
    refine ⟨iff_of_false ?_ small, ?_⟩
    · rintro ⟨f, returned⟩
      cases returned
    · intro f returned
      cases returned

theorem isFrame_of_encode {cap : Nat} (encoded : m.encode isoError = .ok f) (small : f.length ≤ cap) :
    wire.IsFrame cap f := by
  obtain ⟨body, written, _⟩ := bind_eq_ok.mp encoded
  have framed : encodeFrame m.className m.typeCode m.getSchema (.ok body) = .ok f := by
    rw [← written]
    exact encoded
  obtain ⟨schema, versioned⟩ := encodeFrame_schema framed
  rw [versioned] at framed
  obtain ⟨aligned, size, type, version, rfl⟩ := encodeFrame_ok framed
  refine ⟨?_, small⟩
  rw [size_frameHeader, frameHeader_encode size type version, List.length_append,
    Header.encode_length, Header.bodySize, wordSize, Nat.mul_comm, aligned]

end Message

def frameByFrame (frames : List Bytes) : List BufferOp :=
  frames.flatMap fun f => [.feed f, .readMessage]

namespace ByteQueue

variable {cap : Nat} {q : ByteQueue}

theorem frameByFrame_returns (frames : List Bytes) (legal : ∀ f ∈ frames, wire.IsFrame cap f)
    (live : q.Live cap) (empty : q.unread = []) :
    NoFeedRaises (replies (history step q (frameByFrame frames))) ∧
      returnedMessages (replies (history step q (frameByFrame frames))) = frames := by
  induction frames generalizing q with
  | nil => exact ⟨by simp [NoFeedRaises, frameByFrame, replies], rfl⟩
  | cons f frames ih =>
      have shape := legal f (by simp)
      have fed : q.feed f = (.ok (), { q with unread := f }) := by
        rcases live.feed_cases f with ⟨fed, _⟩ | ⟨_, _, large, _⟩
        · rw [fed, empty, List.nil_append]
        · rw [empty, List.length_nil, Nat.zero_add] at large
          exact absurd shape.within (not_le.mpr large)
      have found : wire.head cap f = .frame f [] := by
        have whole := wire.head_append_frame cap shape []
        rwa [List.append_nil] at whole
      have read := (live.with_unread f).readMessage_eq
      simp only [found] at read
      obtain ⟨accepted, returned⟩ := ih (fun g member => legal g (by simp [member]))
        ((live.with_unread f).with_unread []) rfl
      have unfolded : frameByFrame (f :: frames) = .feed f :: .readMessage :: frameByFrame frames := rfl
      rw [unfolded, history_cons, history_cons]
      simp only [event, step, fed, read, Except.map, replies, List.map_cons] at accepted returned ⊢
      refine ⟨?_, ?_⟩
      · intro e member
        simp only [List.mem_cons] at member
        rcases member with rfl | rfl | later
        · rfl
        · rfl
        · exact accepted e later
      · simpa [returnedMessages] using returned

end ByteQueue

namespace ReadBuffer

variable {cap : Nat} {frames : List Bytes}

theorem returns_frames (legal : ∀ f ∈ frames, wire.IsFrame cap f) (ops : List BufferOp)
    (calls : ∀ op ∈ ops, op = .readMessage ∨ ∃ data, op = .feed data)
    (fed : fedBytes ops = frames.flatten)
    (accepted : NoFeedRaises (replies (history step (fresh cap) ops))) (count : Nat)
    (enough : frames.length ≤ count) :
    returnedMessages (replies (history step (fresh cap) (ops ++ List.replicate count .readMessage))) =
      frames := by
  rw [(buffer_simulates_queue cap ops).1] at accepted
  rw [(buffer_simulates_queue cap _).1]
  have all : acceptedBytes (replies (history ByteQueue.step (ByteQueue.fresh cap) ops)) =
      frames.flatten := by
    rw [acceptedBytes_eq_fed _ accepted, ← fed]
    simp only [replies, List.map_map]
    exact congrArg fedBytes (history_ops _ _ ops)
  have held := ByteQueue.takesFrames_run legal ops calls accepted (by rw [all])
  have joined := held.joined
  rw [all] at joined
  obtain ⟨later, split, _⟩ := wire.taken_split cap held.taken legal _ (by rw [joined])
  have rest : (final ByteQueue.step (ByteQueue.fresh cap) ops).unread = later.flatten := by
    rw [split, List.flatten_append] at joined
    exact List.append_cancel_left joined
  have short : later.length ≤ count := by
    have width := congrArg List.length split
    rw [List.length_append] at width
    omega
  have following := ByteQueue.read_rest later (fun f member => legal f (by simp [split, member])) count
    held.live rest
  rw [List.take_of_length_le short] at following
  rw [history_append, replies, List.map_append, ← replies, ← replies, returnedMessages_append,
    following]
  exact split.symm

theorem frameByFrame_returns (legal : ∀ f ∈ frames, wire.IsFrame cap f) :
    NoFeedRaises (replies (history step (fresh cap) (frameByFrame frames))) ∧
      returnedMessages (replies (history step (fresh cap) (frameByFrame frames))) = frames := by
  rw [(buffer_simulates_queue cap _).1]
  exact ByteQueue.frameByFrame_returns frames legal (ByteQueue.live_fresh cap) rfl

end ReadBuffer

open Message in
/-- Bodies are whole words, whatever the fields hold; a message whose body can be counted is sent as
a frame that delimits itself; and a reader with room for each frame cuts a concatenation of sent
messages into exactly these frames. -/
theorem encoded_self_delimiting (isoError : Str → Option String) :
    (∀ (m : Message) (body : Bytes), m.encodeBody isoError = .ok body →
      body.length % 8 = 0 ∧ (m.SchemaAccepted →
        ((∃ f, m.encode isoError = .ok f) ↔ body.length / 8 < 2 ^ 32) ∧
          ∀ f, m.encode isoError = .ok f → SelfDelimiting m body f)) ∧
    ∀ (cap : Nat) (messages : List Message) (frames : List Bytes),
      List.Forall₂ (fun m f => m.encode isoError = .ok f ∧ f.length ≤ cap) messages frames →
        (∀ ops, (∀ op ∈ ops, op = .readMessage ∨ ∃ data, op = .feed data) →
          fedBytes ops = frames.flatten →
          NoFeedRaises (replies (history ReadBuffer.step (ReadBuffer.fresh cap) ops)) →
          ∀ count, frames.length ≤ count →
            returnedMessages (replies (history ReadBuffer.step (ReadBuffer.fresh cap)
              (ops ++ List.replicate count .readMessage))) = frames) ∧
        let past := replies (history ReadBuffer.step (ReadBuffer.fresh cap) (frameByFrame frames))
        NoFeedRaises past ∧ returnedMessages past = frames := by
  constructor
  · intro m body encoded
    exact ⟨encodeBody_words isoError m body encoded, fun accepted => encode_iff accepted encoded⟩
  · intro cap messages frames sent
    have legal : ∀ f ∈ frames, wire.IsFrame cap f := by
      induction sent with
      | nil => simp
      | cons first _ ih =>
          intro f member
          rcases List.mem_cons.mp member with rfl | later
          · exact isFrame_of_encode first.1 first.2
          · exact ih f later
    exact ⟨fun ops calls fed accepted count enough =>
      ReadBuffer.returns_frames legal ops calls fed accepted count enough,
      ReadBuffer.frameByFrame_returns legal⟩

theorem encoded_self_delimiting_heartbeat_empty :
    let heartbeat : Bytes := [1, 0, 0, 0, 2, 0, 0, 0, 7, 0, 0, 0, 0, 0, 0, 0]
    let empty : Bytes := [1, 0, 0, 0, 8, 0, 0, 0, 0, 0, 0, 0, 0, 0, 0, 0]
    returnedMessages (replies (history ReadBuffer.step (ReadBuffer.fresh 16)
      (frameByFrame [heartbeat, empty]))) = [heartbeat, empty] :=
  ((encoded_self_delimiting fun _ => none).2 16 [.request (.heartbeat ⟨7⟩), .response (.empty ⟨⟩)] _
    (.cons (by decide +kernel) (.cons (by decide +kernel) .nil))).2.2

section Oversized

variable (isoError : Str → Option String)

def blobRows (content : Bytes) (count : Nat) : RowsResponse :=
  ⟨[[]], [], [], List.replicate count [.value (.bytes content)], false⟩

theorem blobRows_types (content : Bytes) (count i : Nat) :
    (blobRows content count).getRowTypes i [.value (.bytes content)] = [.blob] := by
  simp [RowsResponse.getRowTypes, blobRows, RowsResponse.nullOverride, inferValueType]

theorem blobRows_checked (content : Bytes) (count i k : Nat) :
    (blobRows content count).checkRows 1 i (List.replicate k [.value (.bytes content)]) = .ok () := by
  induction k generalizing i with
  | zero => rfl
  | succ k ih =>
      rw [List.replicate_succ, RowsResponse.checkRows, raiseIf_neg (by simp), ok_bind,
        raiseIf_neg (by simp [blobRows]), ok_bind]
      exact ih (i + 1)

theorem blobCell_encoded {content : Bytes} (small : content.length ≤ maxBlobSize) :
    ∃ bytes, encodeRowValues isoError [.value (.bytes content)] [.blob] = .ok bytes ∧
      content.length ≤ bytes.length := by
  have bound : content.length < 256 ^ 8 :=
    lt_of_le_of_lt small (by norm_num [maxBlobSize, framePayload])
  have written : encodeBlob ⟨content.length, content⟩ =
      .ok (toLE 8 content.length ++ content ++ zeros (padToWord content.length)) :=
    encodeBlob_written small bound
  have cell : encodeValue isoError (.value (.bytes content)) (some .blob) =
      .ok (toLE 8 content.length ++ content ++ zeros (padToWord content.length), .blob) := by
    have bytesLike : isBytesLike (.value (.bytes content)) ≠ false := by simp [isBytesLike]
    simp only [encodeValue, Option.getD_some, ok_bind, encodeBlobValue, raiseIf_neg bytesLike,
      blobContent, raiseIf_neg (not_lt.mpr small), written]
    rfl
  refine ⟨toLE 8 content.length ++ content ++ zeros (padToWord content.length) ++ [], ?_, ?_⟩
  · rw [encodeRowValues, raiseIf_neg (by simp), ok_bind, List.zip_cons_cons, encodeCells, cell, ok_bind]
    rfl
  · simp only [List.length_append]
    omega

theorem blobRows_encoded {content : Bytes} (small : content.length ≤ maxBlobSize) (count i k : Nat) :
    ∃ bytes, (blobRows content count).encodeRows isoError i
        (List.replicate k [.value (.bytes content)]) = .ok bytes ∧
      k * content.length ≤ bytes.length := by
  induction k generalizing i with
  | zero => exact ⟨[], rfl, by simp⟩
  | succ k ih =>
      obtain ⟨cell, written, wide⟩ := blobCell_encoded isoError small
      obtain ⟨others, following, room⟩ := ih (i + 1)
      have header : encodeRowHeader [.blob] = .ok [4, 0, 0, 0, 0, 0, 0, 0] := by decide
      refine ⟨[4, 0, 0, 0, 0, 0, 0, 0] ++ cell ++ others, ?_, ?_⟩
      · rw [List.replicate_succ, RowsResponse.encodeRows, blobRows_types, header, ok_bind, written,
          ok_bind, following]
        rfl
      · rw [List.length_append, List.length_append, Nat.succ_mul]
        omega

theorem blobRows_encodeBody {content : Bytes} (small : content.length ≤ maxBlobSize) (count : Nat) :
    ∃ body, (blobRows content count).encodeBody isoError = .ok body ∧
      count * content.length ≤ body.length := by
  obtain ⟨rows, written, room⟩ := blobRows_encoded isoError small count 0 count
  have names : RowsResponse.encodeNames [[]] = .ok (zeros 8) := by decide +kernel
  have columns : (blobRows content count).columnNames.length = 1 := rfl
  have one : encodeUint64 ((1 : Nat) : Int) = .ok (toLE 8 1) := encodeUint64_nat (by norm_num)
  have marker : encodeUint64 (fromLE (if (blobRows content count).hasMore then rowPartMarker
      else rowDoneMarker)) = .ok (toLE 8 (fromLE rowDoneMarker)) :=
    encodeUint64_nat (show fromLE rowDoneMarker < 256 ^ 8 by decide +kernel)
  refine ⟨toLE 8 1 ++ zeros 8 ++ rows ++ toLE 8 (fromLE rowDoneMarker), ?_, ?_⟩
  · have checked := blobRows_checked content count 0 count
    rw [RowsResponse.encodeBody]
    simp only [columns]
    rw [raiseIf_neg (by decide), ok_bind, raiseIf_neg (by simp [blobRows]), ok_bind,
      raiseIf_neg (by simp [blobRows]), ok_bind, raiseIf_neg (by simp), ok_bind]
    change ((blobRows content count).checkRows 1 0
      (List.replicate count [.value (.bytes content)]) >>= _) = _
    rw [checked, ok_bind, one, ok_bind]
    change (RowsResponse.encodeNames [[]] >>= _) = _
    rw [names, ok_bind]
    change ((blobRows content count).encodeRows isoError 0
      (List.replicate count [.value (.bytes content)]) >>= _) = _
    rw [written, ok_bind, marker, ok_bind]
    rfl
  · simp only [List.length_append]
    omega

theorem blobRows_unsendable {content : Bytes} (small : content.length ≤ maxBlobSize) {count : Nat}
    (large : 8 * 2 ^ 32 ≤ count * content.length) :
    ∃ body, (Message.response (.rows (blobRows content count))).encodeBody isoError = .ok body ∧
      ¬ ∃ f, (Message.response (.rows (blobRows content count))).encode isoError = .ok f := by
  obtain ⟨body, written, room⟩ := blobRows_encodeBody isoError small count
  have accepted : (Message.response (.rows (blobRows content count))).SchemaAccepted := trivial
  refine ⟨body, written, ?_⟩
  rw [(Message.encode_iff accepted written).1]
  have power : (2 : Nat) ^ 32 = 4294967296 := by norm_num
  omega

end Oversized

/-- One full-size blob in 513 rows: a body, but no frame. And a schema assigned after construction
travels as it is. -/
theorem encoded_unsendable :
    (∃ body, (Message.response (.rows (blobRows (zeros maxBlobSize) 513))).encodeBody
        (fun _ => none) = .ok body ∧
      ¬ ∃ f, (Message.response (.rows (blobRows (zeros maxBlobSize) 513))).encode
        (fun _ => none) = .ok f) ∧
    ∃ f, (Message.request (.prepare ⟨0, [], 2⟩)).encode (fun _ => none) = .ok f ∧
      MessageDecoder.maxSchema true RequestType.prepare.code < (f.getD 5 0).toNat := by
  constructor
  · refine blobRows_unsendable _ (zeros_length _).le ?_
    rw [zeros_length]
    norm_num [maxBlobSize, framePayload]
  · exact ⟨[2, 0, 0, 0, 4, 2, 0, 0] ++ zeros 16, by decide +kernel, by decide +kernel⟩

end DqliteWire
