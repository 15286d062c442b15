import DqliteWire.Counted
import DqliteWire.Exchange

/-! Decoding is total: every byte string is a message or a `DecodeError`. -/

namespace DqliteWire

open WireLib WireLib.Utf8

section Shared

variable {α : Type} {errors : Handler} {className : String} {data : Bytes} {schema : Nat}

theorem requireSchema_errors (allowed : List Nat) :
    ParseErrors errors (requireSchema className schema allowed) := raises_raiseIf trivial

theorem requireLength_errors (size : Nat) :
    ParseErrors errors (requireLength className data size) := raises_raiseIf trivial

theorem requireConsumed_errors (offset : Nat) :
    ParseErrors errors (requireConsumed className data offset) := raises_raiseIf trivial

theorem decodeUint32_lt {n : Nat} (read : decodeUint32 data = .ok n) : n < 256 ^ 4 :=
  (decodeUint32_ok read).2.1

theorem decodeWordRequest_errors {new : Int → Except Exn α}
    (built : ∀ n : Nat, n < 256 ^ 8 → ParseErrors errors (new n)) :
    ParseErrors errors (decodeWordRequest className new data schema) := by
  refine raises_bind (requireSchema_errors _) fun _ => ?_
  refine raises_bind (requireLength_errors _) fun _ => ?_
  exact raises_next (decodeUint64_errors _ _) fun n read => built n (decodeUint64_lt read)

theorem decodeNodeAddress_errors {label : String} {new : Int → Str → Except Exn α}
    (built : ∀ n : Nat, n < 256 ^ 8 → ∀ address, ParseErrors errors (new n address)) :
    ParseErrors errors (decodeNodeAddress className label new data schema) := by
  refine raises_bind (requireSchema_errors _) fun _ => ?_
  refine raises_next (decodeUint64_errors _ _) fun n read => ?_
  refine raises_bind (decodeText_strict_errors _ _ _ _) fun ⟨address, consumed⟩ => ?_
  exact raises_bind (requireConsumed_errors _) fun _ => built n (decodeUint64_lt read) address

end Shared

section Tuples

variable {errors : Handler} {source : Source} {data : Bytes} {schema : Nat}

/-- Every tag lies in the header, whose length has been checked. -/
theorem decodeParamTypes_errors {countSize count i : Nat} (room : countSize + i + count ≤ data.length) :
    ParseErrors errors (decodeParamTypes data countSize i count) := by
  induction count generalizing i with
  | zero => exact raises_ok _
  | succ count ih =>
      refine raises_bind (byteAt_errors (by omega)) fun tag => ?_
      split
      · exact raises_error trivial
      · exact raises_error trivial
      · exact raises_bind (ih (by omega)) fun _ => raises_ok _

theorem decodeParamsBody_errors (countSize count offset : Nat) :
    ParseErrors errors (decodeParamsBody source data countSize count offset) := by
  refine raises_guard trivial fun _ => ?_
  refine raises_guard trivial fun room => ?_
  refine raises_bind (decodeParamTypes_errors (by omega)) fun types => ?_
  exact (decodeValues_errors source data types _).mono fun _ => Exn.OfParsing.of_strict

theorem decodeParamsTuple_errors (offset : Nat) :
    ParseErrors errors (decodeParamsTuple source data none schema offset) := by
  refine raises_guard trivial fun _ => ?_
  split
  · exact raises_ok _
  · split
    · exact raises_error trivial
    · rename_i long
      have rest (countSize count : Nat) : ParseErrors errors (if count = 0 then
          pure ([], countSize + padToWord (offset + countSize))
          else decodeParamsBody source data countSize count offset) := by
        split
        · exact raises_ok _
        · exact decodeParamsBody_errors _ _ _
      simp only
      split
      · exact raises_bind (unpack_errors (by rw [List.length_take]; omega)) fun _ => rest _ _
      · exact raises_bind (raises_map _ (byteAt_errors (by omega))) fun _ => rest _ _

theorem decodeParamsTuple_counts {offset consumed : Nat} {params : List WireValue}
    (decoded : decodeParamsTuple source data none schema offset = .ok (params, consumed)) :
    (schema = 0 ∨ schema = 1) ∧ params.length ≤ maxParamCount ∧
      (schema = 0 → params.length ≤ 255) := by
  obtain ⟨version, cases_⟩ := decodeParamsTuple_cases decoded
  refine ⟨version, ?_⟩
  rcases cases_ with ⟨_, none, _⟩ | ⟨_, _, none, _⟩ | ⟨_, _, body⟩
  · simp [none]
  · simp [none]
  · obtain ⟨small, _, types, length, _, _, values⟩ := decodeParamsBody_ok body
    rw [decodeValues_length values, length]
    refine ⟨small, ?_⟩
    rintro rfl
    have bound := paramCount_lt 0 data
    rw [countWidth, if_neg (by decide)] at bound
    omega

end Tuples

namespace ParamsFields

variable {α β : Type} {errors : Handler} {className : String} {data : Bytes} {schema : Nat}

/-- The constructor accepts the fields a decoder fills in. -/
theorem decodeBody_errors {decodePrefix : Bytes → Except Exn (α × Nat)}
    {new : α → ParamsFields → Except Exn β} (first : ParseErrors errors (decodePrefix data))
    (built : ∀ args offset, decodePrefix data = .ok (args, offset) →
      ∀ fields : ParamsFields, fields.validate = .ok () → ParseErrors errors (new args fields)) :
    ParseErrors errors (decodeBody className decodePrefix new data schema) := by
  refine raises_bind (requireSchema_errors _) fun _ => ?_
  refine raises_next first fun ⟨args, offset⟩ start => ?_
  refine raises_next (decodeParamsTuple_errors _) fun ⟨params, consumed⟩ tuple => ?_
  refine raises_bind (requireConsumed_errors _) fun _ => ?_
  obtain ⟨version, small, few⟩ := decodeParamsTuple_counts tuple
  apply built args offset start
  apply validate_ok version
  · rwa [List.length_map]
  · rwa [List.length_map]
  · intro flag
    rw [(of_decide_eq_true flag).1]
    rfl

end ParamsFields

section Requests

variable {errors : Handler} (data : Bytes) (schema : Nat)

theorem LeaderRequest.decodeBody_errors : ParseErrors errors (LeaderRequest.decodeBody data schema) := by
  refine raises_bind (requireSchema_errors _) fun _ => ?_
  refine raises_bind (requireLength_errors _) fun _ => ?_
  refine raises_bind (decodeUint64_errors _ _) fun _ => ?_
  exact raises_bind (raises_raiseIf trivial) fun _ => raises_ok _

theorem OpenRequest.decodeBody_errors : ParseErrors errors (OpenRequest.decodeBody data schema) := by
  refine raises_bind (requireSchema_errors _) fun _ => ?_
  refine raises_bind (decodeText_strict_errors _ _ _ _) fun ⟨name, offset⟩ => ?_
  refine raises_next (decodeUint64_errors _ _) fun flags read => ?_
  refine raises_bind (decodeText_strict_errors _ _ _ _) fun ⟨vfs, consumed⟩ => ?_
  refine raises_bind (requireConsumed_errors _) fun _ => ?_
  exact raises_validated (decodeUint64_lt read) _ (raises_ok _)

theorem PrepareRequest.decodeBody_errors :
    ParseErrors errors (PrepareRequest.decodeBody data schema) := by
  refine raises_guard trivial fun supported => ?_
  refine raises_next (decodeUint64_errors _ _) fun dbId read => ?_
  refine raises_bind (decodeText_strict_errors _ _ _ _) fun ⟨sql, consumed⟩ => ?_
  refine raises_bind (requireConsumed_errors _) fun _ => ?_
  refine raises_validated (decodeUint64_lt read) _ ?_
  have version : ¬ ((schema : Int) ≠ 0 ∧ (schema : Int) ≠ 1) := by
    simp at supported
    omega
  rw [raiseIf_neg version]
  exact raises_ok _

theorem FinalizeRequest.decodeBody_errors :
    ParseErrors errors (FinalizeRequest.decodeBody data schema) := by
  refine raises_bind (requireSchema_errors _) fun _ => ?_
  refine raises_bind (requireLength_errors _) fun _ => ?_
  refine raises_next (decodeUint32_errors _) fun dbId read => ?_
  refine raises_next (decodeUint32_errors _) fun stmtId read' => ?_
  refine raises_validated32 (decodeUint32_lt read) _ ?_
  exact raises_validated32 (decodeUint32_lt read') _ (raises_ok _)

theorem DumpRequest.decodeBody_errors : ParseErrors errors (DumpRequest.decodeBody data schema) := by
  refine raises_bind (requireSchema_errors _) fun _ => ?_
  refine raises_bind (decodeText_strict_errors _ _ _ _) fun ⟨name, consumed⟩ => ?_
  exact raises_bind (requireConsumed_errors _) fun _ => raises_ok _

theorem AssignRequest.decodeBody_errors :
    ParseErrors errors (AssignRequest.decodeBody data schema) := by
  refine raises_bind (requireSchema_errors _) fun _ => ?_
  split
  · refine raises_next (decodeUint64_errors _ _) fun nodeId read => ?_
    exact raises_validated (decodeUint64_lt read) _ (raises_ok _)
  · split
    · refine raises_bind (decodeUint64_errors _ _) fun raw => ?_
      split
      · exact raises_error trivial
      · refine raises_next (decodeUint64_errors _ _) fun nodeId read => ?_
        exact raises_validated (decodeUint64_lt read) _ (raises_ok _)
    · exact raises_error trivial

theorem ClusterRequest.decodeBody_errors :
    ParseErrors errors (ClusterRequest.decodeBody data schema) := by
  refine raises_bind (requireSchema_errors _) fun _ => ?_
  refine raises_bind (requireLength_errors _) fun _ => ?_
  refine raises_next (decodeUint64_errors _ _) fun format read => ?_
  refine raises_guard trivial fun known => ?_
  refine raises_validated (decodeUint64_lt read) _ ?_
  have known' : ¬ ((format : Int) ≠ 0 ∧ (format : Int) ≠ 1) := by omega
  rw [raiseIf_neg (by simp), ok_bind, raiseIf_neg known']
  exact raises_ok _

theorem DescribeRequest.decodeBody_errors :
    ParseErrors errors (DescribeRequest.decodeBody data schema) := by
  refine raises_bind (requireSchema_errors _) fun _ => ?_
  refine raises_bind (requireLength_errors _) fun _ => ?_
  refine raises_next (decodeUint64_errors _ _) fun format read => ?_
  split
  · exact raises_error trivial
  · rename_i zero
    refine raises_validated (decodeUint64_lt read) _ ?_
    rw [raiseIf_neg (fun both => zero (by exact_mod_cast both.1))]
    exact raises_ok _

theorem decodeStatementPrefix_errors : ParseErrors errors (decodeStatementPrefix data) :=
  raises_bind (decodeUint32_errors _) fun _ => raises_bind (decodeUint32_errors _) fun _ => raises_ok _

theorem decodeSqlPrefix_errors : ParseErrors errors (decodeSqlPrefix data) :=
  raises_bind (decodeUint64_errors _ _) fun _ =>
    raises_bind (decodeText_strict_errors _ _ _ _) fun _ => raises_ok _

theorem decodeStatementPrefix_lt {ids : Int × Int} {offset : Nat}
    (decoded : decodeStatementPrefix data = .ok (ids, offset)) :
    ∃ dbId stmtId : Nat, ids = ((dbId : Int), (stmtId : Int)) ∧ dbId < 256 ^ 4 ∧ stmtId < 256 ^ 4 := by
  obtain ⟨dbId, first, tail⟩ := bind_eq_ok.mp decoded
  obtain ⟨stmtId, second, last⟩ := bind_eq_ok.mp tail
  cases last
  exact ⟨dbId, stmtId, rfl, decodeUint32_lt first, decodeUint32_lt second⟩

theorem decodeSqlPrefix_lt {args : Int × Str} {offset : Nat}
    (decoded : decodeSqlPrefix data = .ok (args, offset)) :
    ∃ dbId : Nat, args.1 = (dbId : Int) ∧ dbId < 256 ^ 8 := by
  obtain ⟨dbId, first, tail⟩ := bind_eq_ok.mp decoded
  obtain ⟨_, _, last⟩ := bind_eq_ok.mp tail
  cases last
  exact ⟨dbId, rfl, decodeUint64_lt first⟩

theorem statement_errors {β : Type} {className : String}
    {new : Int × Int → ParamsFields → Except Exn β}
    (built : ∀ dbId stmtId : Nat, dbId < 256 ^ 4 → stmtId < 256 ^ 4 → ∀ fields : ParamsFields,
      fields.validate = .ok () → ParseErrors errors (new (dbId, stmtId) fields)) :
    ParseErrors errors
      (ParamsFields.decodeBody className decodeStatementPrefix new data schema) := by
  apply ParamsFields.decodeBody_errors (decodeStatementPrefix_errors data)
  intro ids offset decoded fields valid
  obtain ⟨dbId, stmtId, rfl, bound, bound'⟩ := decodeStatementPrefix_lt data decoded
  exact built dbId stmtId bound bound' fields valid

theorem sql_errors {β : Type} {className : String} {new : Int × Str → ParamsFields → Except Exn β}
    (built : ∀ dbId : Nat, dbId < 256 ^ 8 → ∀ (sql : Str) (fields : ParamsFields),
      fields.validate = .ok () → ParseErrors errors (new (dbId, sql) fields)) :
    ParseErrors errors (ParamsFields.decodeBody className decodeSqlPrefix new data schema) := by
  apply ParamsFields.decodeBody_errors (decodeSqlPrefix_errors data)
  rintro ⟨_, sql⟩ offset decoded fields valid
  obtain ⟨dbId, rfl, bound⟩ := decodeSqlPrefix_lt data decoded
  exact built dbId bound sql fields valid

theorem raises_validate {β : Type} {fields : ParamsFields} (valid : fields.validate = .ok ()) (m : β) :
    ParseErrors errors (do
      fields.validate
      return m) := by
  rw [valid, ok_bind]
  exact raises_ok _

theorem decodeRequestBody_errors (t : RequestType) :
    ParseErrors errors (MessageDecoder.decodeRequestBody t data schema) := by
  have word (n : Nat) (bound : n < 256 ^ 8) {β : Type} (name : String) (m : β) :
      ParseErrors errors (do
        validateUint64 name n
        return m) := raises_validated bound name (raises_ok _)
  cases t with
  | leader => exact raises_map _ (LeaderRequest.decodeBody_errors data schema)
  | client => exact raises_map _ (decodeWordRequest_errors fun n bound => word n bound _ _)
  | heartbeat => exact raises_map _ (decodeWordRequest_errors fun n bound => word n bound _ _)
  | interrupt => exact raises_map _ (decodeWordRequest_errors fun n bound => word n bound _ _)
  | remove => exact raises_map _ (decodeWordRequest_errors fun n bound => word n bound _ _)
  | transfer => exact raises_map _ (decodeWordRequest_errors fun n bound => word n bound _ _)
  | weight => exact raises_map _ (decodeWordRequest_errors fun n bound => word n bound _ _)
  | add => exact raises_map _ (decodeNodeAddress_errors fun n bound _ => word n bound _ _)
  | connect => exact raises_map _ (decodeNodeAddress_errors fun n bound _ => word n bound _ _)
  | «open» => exact raises_map _ (OpenRequest.decodeBody_errors data schema)
  | prepare => exact raises_map _ (PrepareRequest.decodeBody_errors data schema)
  | finalize => exact raises_map _ (FinalizeRequest.decodeBody_errors data schema)
  | dump => exact raises_map _ (DumpRequest.decodeBody_errors data schema)
  | assign => exact raises_map _ (AssignRequest.decodeBody_errors data schema)
  | cluster => exact raises_map _ (ClusterRequest.decodeBody_errors data schema)
  | describe => exact raises_map _ (DescribeRequest.decodeBody_errors data schema)
  | exec | query =>
      refine raises_map _ (statement_errors data schema ?_)
      intro dbId stmtId bound bound' fields valid
      refine raises_validated32 bound _ ?_
      refine raises_validated32 bound' _ ?_
      exact raises_validate valid _
  | execSql | querySql =>
      refine raises_map _ (sql_errors data schema ?_)
      intro dbId bound sql fields valid
      refine raises_validated bound _ ?_
      exact raises_validate valid _

end Requests

section Responses

variable {errors : Handler} (data : Bytes) (schema : Nat)

theorem LeaderResponse.decodeBody_errors :
    ParseErrors errors (LeaderResponse.decodeBody data schema) := by
  refine raises_guard trivial fun _ => ?_
  refine raises_guard trivial fun _ => ?_
  refine raises_next (decodeUint64_errors _ _) fun nodeId read => ?_
  refine raises_bind (decodeText_strict_errors _ _ _ _) fun ⟨address, consumed⟩ => ?_
  refine raises_guard trivial fun _ => ?_
  refine raises_guard trivial fun _ => ?_
  exact raises_validated (decodeUint64_lt read) _ (raises_ok _)

theorem LeaderResponse.decodeBodyLegacy_errors :
    ParseErrors errors (LeaderResponse.decodeBodyLegacy data) := by
  refine raises_guard trivial fun _ => ?_
  refine raises_bind (decodeText_strict_errors _ _ _ _) fun ⟨address, consumed⟩ => ?_
  refine raises_guard trivial fun _ => ?_
  exact raises_validated (n := 0) (by norm_num) _ (raises_ok _)

theorem WelcomeResponse.decodeBody_errors :
    ParseErrors errors (WelcomeResponse.decodeBody data schema) := by
  refine raises_guard trivial fun _ => ?_
  refine raises_guard trivial fun _ => ?_
  refine raises_next (decodeUint64_errors _ _) fun heartbeatTimeout read => ?_
  exact raises_validated (decodeUint64_lt read) _ (raises_ok _)

theorem DbResponse.decodeBody_errors : ParseErrors errors (DbResponse.decodeBody data schema) := by
  refine raises_guard trivial fun _ => ?_
  refine raises_guard trivial fun _ => ?_
  refine raises_next (decodeUint32_errors _) fun dbId read => ?_
  exact raises_validated32 (decodeUint32_lt read) _ (raises_ok _)

/-- The constructor checks the caps again, and the decoder has checked them. -/
theorem StmtResponse.decodeBody_errors : ParseErrors errors (StmtResponse.decodeBody data schema) := by
  refine raises_guard trivial fun supported => ?_
  refine raises_guard trivial fun _ => ?_
  refine raises_next (decodeUint32_errors _) fun dbId first => ?_
  refine raises_next (decodeUint32_errors _) fun stmtId second => ?_
  refine raises_next (decodeUint64_errors _ _) fun numParams third => ?_
  refine raises_guard trivial fun small => ?_
  have valid : Fields dbId stmtId numParams :=
    ⟨validateUint_ok (lt_of_lt_of_eq (decodeUint32_lt first) (by norm_num)) _,
      validateUint_ok (lt_of_lt_of_eq (decodeUint32_lt second) (by norm_num)) _,
      validateUint64_ok (decodeUint64_lt third) _, by exact_mod_cast small⟩
  split
  · rename_i one
    refine raises_next (decodeUint64_errors _ _) fun tailOffset read => ?_
    refine raises_guard trivial fun within => ?_
    subst one
    have built := new_schema1 valid (validateUint64_ok (decodeUint64_lt read) _)
      (by exact_mod_cast within)
    rw [Nat.cast_one, built]
    exact raises_ok _
  · rename_i other
    obtain rfl : schema = 0 := by omega
    rw [Nat.cast_zero, new_schema0 valid]
    exact raises_ok _

theorem ResultResponse.decodeBody_errors :
    ParseErrors errors (ResultResponse.decodeBody data schema) := by
  refine raises_guard trivial fun _ => ?_
  refine raises_guard trivial fun _ => ?_
  refine raises_next (decodeUint64_errors _ _) fun lastInsertId first => ?_
  refine raises_next (decodeUint64_errors _ _) fun rowsAffected second => ?_
  refine raises_guard trivial fun small => ?_
  refine raises_validated (decodeUint64_lt first) _ ?_
  refine raises_validated (decodeUint64_lt second) _ ?_
  rw [raiseIf_neg (by exact_mod_cast small)]
  exact raises_ok _

theorem MetadataResponse.decodeBody_errors :
    ParseErrors errors (MetadataResponse.decodeBody data schema) := by
  refine raises_guard trivial fun _ => ?_
  refine raises_guard trivial fun _ => ?_
  refine raises_next (decodeUint64_errors _ _) fun failureDomain first => ?_
  refine raises_next (decodeUint64_errors _ _) fun weight second => ?_
  refine raises_validated (decodeUint64_lt first) _ ?_
  exact raises_validated (decodeUint64_lt second) _ (raises_ok _)

theorem FilesResponse.decodeFiles_errors (count offset : Nat) (files : FilesResponse) :
    ParseErrors errors (FilesResponse.decodeFiles data count offset files) := by
  induction count generalizing offset files with
  | zero => exact raises_ok _
  | succ count ih =>
      refine raises_bind (decodeText_strict_errors _ _ _ _) fun ⟨name, consumed⟩ => ?_
      refine raises_bind (decodeUint64_errors _ _) fun size => ?_
      refine raises_guard trivial fun _ => ?_
      refine raises_guard trivial fun _ => ?_
      refine raises_guard trivial fun _ => ?_
      simp only
      split
      · exact raises_error trivial
      · exact ih _ _

theorem FilesResponse.decodeBody_errors :
    ParseErrors errors (FilesResponse.decodeBody data schema) := by
  refine raises_guard trivial fun _ => ?_
  refine raises_bind (decodeUint64_errors _ _) fun count => ?_
  refine raises_guard trivial fun _ => ?_
  refine raises_guard trivial fun _ => ?_
  refine raises_bind (FilesResponse.decodeFiles_errors _ _ _ _) fun ⟨files, offset⟩ => ?_
  exact raises_bind (raises_raiseIf trivial) fun _ => raises_ok _

theorem ServersResponse.decodeRole_errors (rawRole offset : Nat) (policy : UnknownRolePolicy) :
    ParseErrors errors (ServersResponse.decodeRole rawRole offset policy) := by
  unfold decodeRole
  split
  · exact raises_ok _
  · split
    · exact raises_error trivial
    · exact raises_ok _

/-- An entry is only built once its id and its address are known to be there. -/
theorem ServersResponse.decodeNodes_errors (policy : UnknownRolePolicy) (count offset : Nat)
    (nodes : List NodeInfo) :
    ParseErrors errors (ServersResponse.decodeNodes data policy count offset nodes) := by
  induction count generalizing offset nodes with
  | zero => exact raises_ok _
  | succ count ih =>
      refine raises_next (decodeUint64_errors _ _) fun nodeId first => ?_
      refine raises_bind (decodeText_strict_errors _ _ _ _) fun ⟨address, consumed⟩ => ?_
      refine raises_guard trivial fun usable => ?_
      refine raises_guard trivial fun _ => ?_
      refine raises_bind (decodeUint64_errors _ _) fun rawRole => ?_
      refine raises_bind (ServersResponse.decodeRole_errors _ _ _) fun role => ?_
      obtain ⟨positive, addressed⟩ := not_or.mp usable
      rw [NodeInfo.new_role (decodeUint64_lt first) positive addressed role, ok_bind]
      exact ih _ _

theorem ServersResponse.decodeBody_errors (policy : UnknownRolePolicy) :
    ParseErrors errors (ServersResponse.decodeBody data schema policy) := by
  refine raises_guard trivial fun _ => ?_
  refine raises_bind (decodeUint64_errors _ _) fun count => ?_
  refine raises_guard trivial fun _ => ?_
  refine raises_guard trivial fun _ => ?_
  refine raises_bind (ServersResponse.decodeNodes_errors _ _ _ _ _) fun ⟨nodes, offset⟩ => ?_
  exact raises_bind (raises_raiseIf trivial) fun _ => raises_ok _

theorem decodeResponseBody_errors (config : Config) (version : Option Nat) (t : ResponseType) :
    ParseErrors config.textErrors (MessageDecoder.decodeResponseBody config version t data schema) := by
  cases t with
  | failure => exact raises_map _ (FailureResponse.decodeBody_errors data schema)
  | leader =>
      simp only [MessageDecoder.decodeResponseBody]
      split
      · exact raises_map _ (LeaderResponse.decodeBodyLegacy_errors data)
      · exact raises_map _ (LeaderResponse.decodeBody_errors data schema)
  | welcome => exact raises_map _ (WelcomeResponse.decodeBody_errors data schema)
  | servers => exact raises_map _ (ServersResponse.decodeBody_errors data schema _)
  | db => exact raises_map _ (DbResponse.decodeBody_errors data schema)
  | stmt => exact raises_map _ (StmtResponse.decodeBody_errors data schema)
  | result => exact raises_map _ (ResultResponse.decodeBody_errors data schema)
  | rows => exact raises_map _ (RowsResponse.decodeBody_errors data schema _)
  | empty => exact raises_map _ (EmptyResponse.decodeBody_errors data schema)
  | files => exact raises_map _ (FilesResponse.decodeBody_errors data schema)
  | metadata => exact raises_map _ (MetadataResponse.decodeBody_errors data schema)

end Responses

section Frame

variable (config : Config)

theorem decodeBody_errors (version : Option Nat) (header : Header) (body : Bytes) :
    ParseErrors config.textErrors (MessageDecoder.decodeBody config version header body) := by
  unfold MessageDecoder.decodeBody
  simp only
  split
  · split
    · exact raises_error trivial
    · apply raises_bind (checkSchema_errors true header)
      exact fun _ => raises_map _ (decodeRequestBody_errors body header.schema _)
  · split
    · exact raises_error trivial
    · apply raises_bind (checkSchema_errors false header)
      exact fun _ => raises_map _ (decodeResponseBody_errors body header.schema config version _)

theorem decodeFrame_errors (version : Option Nat) (data : Bytes) :
    ParseErrors config.textErrors (MessageDecoder.decodeFrame config version data) := by
  refine raises_guard trivial fun _ => ?_
  refine raises_bind (Header.decode_errors _) fun header => ?_
  refine raises_guard trivial fun _ => ?_
  refine raises_guard trivial fun _ => ?_
  refine raises_guard trivial fun _ => ?_
  exact decodeBody_errors config version header _

theorem decodeMessage_errors (data : Bytes) :
    ParseErrors config.textErrors (decodeMessage config data) := by
  rw [decodeMessage_eq]
  exact decodeFrame_errors config _ data

/-- Under strict text handling, every byte string is a message or a `DecodeError`. -/
theorem decodeMessage_total (strict : config.textErrors = .strict) (data : Bytes) :
    (∃ m, decodeMessage config data = .ok m) ∨
      ∃ text, decodeMessage config data = .error (.decodeError text) := by
  cases decoded : decodeMessage config data with
  | ok m => exact Or.inl ⟨m, rfl⟩
  | error e =>
      right
      have held := decodeMessage_errors config data e decoded
      rw [strict] at held
      obtain ⟨text, rfl⟩ := held.decodes strict_decodes
      exact ⟨text, rfl⟩

theorem decodeMessage_total_column_count :
    let frame : Bytes := [1, 0, 0, 0, 7, 0, 0, 0, 0, 0, 0, 0, 0, 0, 0, 0x80]
    (∃ m, decodeMessage (.default false) frame = .ok m) ∨
      ∃ text, decodeMessage (.default false) frame = .error (.decodeError text) :=
  decodeMessage_total (.default false) rfl _

end Frame

end DqliteWire
