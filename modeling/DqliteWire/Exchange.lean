import DqliteWire.Failures
import DqliteWire.Params

/-! Requests and scalar responses: what either side encodes, the other decodes. -/

namespace DqliteWire

open WireLib WireLib.Utf8

def asValue : WireInput → WireValue
  | .value v => v
  | v => .bytes ((blobContent v).getD [])

theorem normaliseCell_inferred (value : WireInput) :
    normaliseCell (inferValueType value) value = asValue value := by
  cases value with
  | value v => cases v <;> rfl
  | bytearray | memoryview | mmap => rfl

theorem decodeUint32_toLE {n : Nat} (bound : n < 256 ^ 4) (rest : Bytes) :
    decodeUint32 (toLE 4 n ++ rest) = .ok n := by
  have long : ¬ (toLE 4 n ++ rest).length < 4 := by
    rw [List.length_append, toLE_length]
    omega
  rw [decodeUint32, raiseIf_neg long, ok_bind, List.take_left' (toLE_length 4 n), unpack_toLE 4 bound]

theorem encodeUint32_ok {value : Int} {bytes : Bytes} (encoded : encodeUint32 value = .ok bytes) :
    ∃ n : Nat, value = n ∧ n < 256 ^ 4 ∧ bytes = toLE 4 n := by
  obtain ⟨_, checked, last⟩ := bind_eq_ok.mp encoded
  have range := not_not.mp (raiseIf_eq_ok.mp checked)
  cases last
  have bound : value < 4294967296 := range.2
  obtain ⟨n, rfl⟩ := Int.eq_ofNat_of_zero_le range.1
  exact ⟨n, rfl, by omega, rfl⟩

theorem encodeUint64_word {value : Int} {bytes : Bytes} (encoded : encodeUint64 value = .ok bytes) :
    ∃ n : Nat, value = n ∧ n < 256 ^ 8 ∧ bytes = toLE 8 n := by
  obtain ⟨signed, bound, rfl⟩ := encodeUint64_ok encoded
  obtain ⟨n, rfl⟩ := Int.eq_ofNat_of_zero_le signed
  exact ⟨n, rfl, bound, rfl⟩

theorem requireLength_ok {className : String} {data : Bytes} {size : Nat}
    (length : data.length = size) : requireLength className data size = .ok () :=
  raiseIf_neg (not_not.mpr length)

theorem requireConsumed_ok {className : String} {data : Bytes} {offset : Nat}
    (length : offset = data.length) : requireConsumed className data offset = .ok () :=
  raiseIf_neg (not_not.mpr length)

theorem requireSchema_ok {className : String} {schema : Nat} {allowed : List Nat}
    (known : schema ∈ allowed) : requireSchema className schema allowed = .ok () :=
  raiseIf_neg (not_not.mpr known)

section Tuple

variable {isoError : Str → Option String} {source : Source} {schema offset : Nat}
  {params : List WireInput} {types : List ValueType} {pieces : List Bytes}

theorem encodeParams_cells {i : Nat} (encoded : encodeParams isoError i params = .ok (types, pieces)) :
    types = params.map inferValueType ∧
      encodeCells isoError (params.zip types) = .ok pieces.flatten := by
  induction params generalizing i types pieces with
  | nil =>
      cases encoded
      exact ⟨rfl, rfl⟩
  | cons param params ih =>
      obtain ⟨⟨bytes, t⟩, written, tail⟩ := bind_eq_ok.mp encoded
      obtain ⟨_, _, tail⟩ := bind_eq_ok.mp tail
      obtain ⟨⟨others, more⟩, later, last⟩ := bind_eq_ok.mp tail
      cases last
      obtain ⟨rfl, cells⟩ := ih later
      rw [encodeValue_inferred] at written
      obtain rfl := encodeValue_type written
      refine ⟨rfl, ?_⟩
      rw [List.zip_cons_cons, encodeCells, written, ok_bind, cells]
      rfl

theorem decodeParamTypes_encode (untimed : ValueType.unixtime ∉ types) (before rest : Bytes)
    {countSize i : Nat} (start : before.length = countSize + i) :
    decodeParamTypes (before ++ types.map tagByte ++ rest) countSize i types.length = .ok types := by
  induction types generalizing before i with
  | nil => rfl
  | cons t types ih =>
      rw [List.mem_cons, not_or] at untimed
      have following := ih untimed.2 (before ++ [tagByte t]) (i := i + 1)
        (by rw [List.length_append, start]; rfl)
      have byte : byteAt (before ++ (t :: types).map tagByte ++ rest) (countSize + i) =
          .ok (tagByte t) := by
        rw [← start]
        simp [byteAt]
      have known := tagByte_known t
      simp only [List.append_assoc, List.map_cons, List.cons_append, List.nil_append]
        at following byte ⊢
      rw [List.length_cons, decodeParamTypes, byte, ok_bind, known]
      cases t with
      | unixtime => exact absurd rfl untimed.1
      | integer | float | text | blob | null | iso8601 | boolean =>
          simp only [following, ok_bind]
          rfl

variable (source offset) in
theorem decodeParamsBody_encode (count : Bytes) (small : params.length ≤ maxParamCount)
    (encoded : encodeParams isoError 0 params = .ok (types, pieces)) :
    let data := count ++ types.map tagByte ++
      zeros (padToWord (offset + (count.length + params.length))) ++ pieces.flatten
    decodeParamsBody source data count.length params.length offset =
      .ok (params.map asValue, data.length) := by
  obtain ⟨typed, cells⟩ := encodeParams_cells encoded
  obtain ⟨length, _, untimed⟩ := encodeParams_types encoded
  have tags := decodeParamTypes_encode untimed count
    (zeros (padToWord (offset + (count.length + params.length))) ++ pieces.flatten) (i := 0) rfl
  have start : (count ++ types.map tagByte ++
      zeros (padToWord (offset + (count.length + params.length)))).length =
        count.length + params.length + padToWord (offset + (count.length + params.length)) := by
    simp only [List.length_append, List.length_map, length, zeros_length]
  have values := decodeValues_encode source length.symm cells (count ++ types.map tagByte ++
    zeros (padToWord (offset + (count.length + params.length)))) [] .strict
  have enough : ¬ (count ++ types.map tagByte ++
      zeros (padToWord (offset + (count.length + params.length))) ++ pieces.flatten).length <
        count.length + params.length + padToWord (offset + (count.length + params.length)) := by
    rw [List.length_append, start]
    omega
  have same : List.zipWith normaliseCell types params = params.map asValue := by
    rw [typed, List.zipWith_map_left, List.zipWith_self]
    exact List.map_congr_left fun value _ => normaliseCell_inferred value
  rw [length, ← List.append_assoc] at tags
  rw [List.append_nil, start, same] at values
  simp only [decodeParamsBody, raiseIf_neg (not_lt.mpr small), ok_bind]
  rw [raiseIf_neg enough, ok_bind, tags, ok_bind, values, List.length_append, start]

theorem encodeParams_length {i : Nat} (encoded : encodeParams isoError i params = .ok (types, pieces)) :
    pieces.flatten.length % 8 = 0 ∧ 8 * params.length ≤ pieces.flatten.length := by
  induction params generalizing i types pieces with
  | nil =>
      cases encoded
      exact ⟨rfl, le_rfl⟩
  | cons param params ih =>
      obtain ⟨⟨bytes, t⟩, written, tail⟩ := bind_eq_ok.mp encoded
      obtain ⟨_, _, tail⟩ := bind_eq_ok.mp tail
      obtain ⟨⟨others, more⟩, later, last⟩ := bind_eq_ok.mp tail
      cases last
      rw [encodeValue_inferred] at written
      obtain rfl := encodeValue_type written
      obtain ⟨_, whole, long⟩ := decodeValue_encode .view written [] .strict
      obtain ⟨aligned, rest⟩ := ih later
      rw [List.flatten_cons, List.length_append, List.length_cons]
      omega

theorem decodeParamsTuple_some (source : Source) {emit : Bool} {bytes : Bytes}
    (version : schema = 0 ∨ schema = 1) (some_ : params ≠ [])
    (encoded : encodeParamsTuple isoError params schema offset emit = .ok bytes) :
    decodeParamsTuple source bytes none schema offset =
      .ok (params.map asValue, bytes.length) := by
  obtain ⟨small, counted, types, pieces, written, rfl⟩ := encodeParamsTuple_ok version some_ encoded
  have length := (encodeParams_types written).1
  have positive := List.length_pos_iff.mpr some_
  have body := decodeParamsBody_encode source offset (toLE (countWidth schema) params.length) small
    written
  simp only [toLE_length] at body
  generalize shape : toLE (countWidth schema) params.length ++ types.map tagByte ++
    zeros (padToWord (offset + (countWidth schema + params.length))) ++ pieces.flatten = data at body ⊢
  have head : data.take (countWidth schema) = toLE (countWidth schema) params.length := by
    rw [← shape, List.append_assoc, List.append_assoc, List.take_left' (toLE_length _ _)]
  have long : 8 ≤ data.length := by
    have values := (encodeParams_length written).2
    rw [← shape, List.length_append]
    omega
  have count : paramCount schema data = params.length := by
    rw [paramCount, head, fromLE_toLE _ _ counted]
  rw [decodeParamsTuple_eq source version long, count, if_neg (by omega), body]

theorem encodeParamsTuple_none {emit : Bool} (version : schema = 0 ∨ schema = 1) :
    encodeParamsTuple isoError [] schema offset emit = .ok (if emit then zeros 8 else []) := by
  have known : ¬ ((schema : Int) ≠ 0 ∧ (schema : Int) ≠ 1) := by omega
  rw [encodeParamsTuple, raiseIf_neg known, ok_bind, raiseIf_neg (by decide), ok_bind, if_pos rfl]
  rfl

theorem decodeParamsTuple_nothing (source : Source) (version : schema = 0 ∨ schema = 1) :
    decodeParamsTuple source [] none schema offset = .ok ([], 0) := by
  have known : ¬ (schema ≠ 0 ∧ schema ≠ 1) := by omega
  rw [decodeParamsTuple, raiseIf_neg known]
  rfl

/-- The decoder pads the count of an empty tuple to the next word of the body. -/
theorem decodeParamsTuple_zeros (source : Source) (version : schema = 0 ∨ schema = 1) :
    decodeParamsTuple source (zeros 8) none schema offset =
      .ok ([], countWidth schema + padToWord (offset + countWidth schema)) := by
  have known : ¬ (schema ≠ 0 ∧ schema ≠ 1) := by omega
  rw [decodeParamsTuple, raiseIf_neg known, ok_bind]
  rcases version with rfl | rfl <;> rfl

theorem padded_count_eq (version : schema = 0 ∨ schema = 1) :
    countWidth schema + padToWord (offset + countWidth schema) = 8 ↔ offset % 8 = 0 := by
  have width : countWidth schema = 1 ∨ countWidth schema = 4 := by
    rcases version with rfl | rfl
    · exact Or.inl rfl
    · exact Or.inr rfl
  have completed := mod_padToWord (offset + countWidth schema)
  have short := padToWord_lt (offset + countWidth schema)
  omega

theorem decodeParamsTuple_encode {emit : Bool} {bytes : Bytes} (version : schema = 0 ∨ schema = 1)
    (aligned : offset % 8 = 0)
    (encoded : encodeParamsTuple isoError params schema offset emit = .ok bytes) :
    decodeParamsTuple .view bytes none schema offset = .ok (params.map asValue, bytes.length) := by
  by_cases empty : params = []
  · subst empty
    rw [encodeParamsTuple_none version] at encoded
    cases emit with
    | false =>
        cases encoded
        exact decodeParamsTuple_nothing .view version
    | true =>
        cases encoded
        rw [if_pos rfl, decodeParamsTuple_zeros .view version, (padded_count_eq version).mpr aligned]
        rfl
  · exact decodeParamsTuple_some .view version empty encoded

end Tuple

namespace ParamsFields

variable {isoError : Str → Option String} {f : ParamsFields}

theorem getSchema_supported (valid : f.validate = .ok ()) :
    ∃ schema : Nat, (schema = 0 ∨ schema = 1) ∧ f.getSchema = schema := by
  obtain ⟨_, checked, _⟩ := bind_eq_ok.mp valid
  rw [getSchema]
  cases hint : f.decodedSchema with
  | none =>
      by_cases many : 255 < f.params.length
      · exact ⟨1, .inr rfl, if_pos many⟩
      · exact ⟨0, .inl rfl, if_neg many⟩
  | some version =>
      rw [hint] at checked
      obtain ⟨_, known, _⟩ := bind_eq_ok.mp checked
      have supported := raiseIf_eq_ok.mp known
      by_cases zero : version = 0
      · exact ⟨0, .inl rfl, zero⟩
      · have one : version = 1 := by
          by_contra other
          exact supported ⟨zero, other⟩
        exact ⟨1, .inr rfl, one⟩

def received (f : ParamsFields) (schema : Nat) (empty : Bool) : ParamsFields :=
  ⟨(f.params.map asValue).map .value, some schema, some empty⟩

theorem received_valid {schema : Nat} (version : schema = 0 ∨ schema = 1)
    (small : f.params.length ≤ maxParamCount) (few : schema = 0 → f.params.length ≤ 255)
    {empty : Bool} (hint : empty = true → f.params = []) :
    (f.received schema empty).validate = .ok () := by
  have length : ((f.params.map asValue).map WireInput.value).length = f.params.length := by
    rw [List.length_map, List.length_map]
  apply validate_ok version
  · rwa [length]
  · rwa [length]
  · intro flag
    rw [hint flag]
    rfl

theorem decodeBody_encode {α β : Type} {decodePrefix : Bytes → Except Exn (α × Nat)} {args : α}
    {start body : Bytes} {schema : Nat} (valid : f.validate = .ok ()) (versioned : f.getSchema = schema)
    (aligned : start.length % 8 = 0)
    (read : ∀ rest, decodePrefix (start ++ rest) = .ok (args, start.length))
    {encodePrefix : Except Exn Bytes} (before : encodePrefix = .ok start)
    (encoded : f.encodeBody isoError encodePrefix = .ok body) (className : String)
    (new : α → ParamsFields → Except Exn β) :
    ∃ empty, (f.received schema empty).validate = .ok () ∧
      decodeBody className decodePrefix new body schema = new args (f.received schema empty) := by
  obtain ⟨known, version, found⟩ := getSchema_supported valid
  obtain rfl := Int.ofNat.inj (found.symm.trans versioned)
  rw [before] at encoded
  obtain ⟨_, same, tail⟩ := bind_eq_ok.mp encoded
  cases same
  obtain ⟨tuple, written, last⟩ := bind_eq_ok.mp tail
  cases last
  rw [versioned] at written
  have values := decodeParamsTuple_encode version aligned written
  have small : f.params.length ≤ maxParamCount := by
    obtain ⟨_, _, rest⟩ := bind_eq_ok.mp written
    obtain ⟨_, checked, _⟩ := bind_eq_ok.mp rest
    exact not_lt.mp (raiseIf_eq_ok.mp checked)
  have few : known = 0 → f.params.length ≤ 255 := by
    rintro rfl
    by_cases none : f.params = []
    · simp [none]
    · have counted := (encodeParamsTuple_ok (.inl rfl) none written).2.1
      exact Nat.le_of_lt_succ counted
  have member : known ∈ [0, 1] := by simpa using version
  refine ⟨decide (f.params.map asValue = [] ∧ 0 < tuple.length), received_valid version small few ?_, ?_⟩
  · intro flag
    simpa using (of_decide_eq_true flag).1
  · rw [decodeBody, requireSchema_ok member, ok_bind, read, ok_bind]
    simp only [List.drop_left, values, ok_bind]
    rw [requireConsumed_ok (by rw [List.length_append]), ok_bind]
    rfl

end ParamsFields

section Fields

variable {body : Bytes}

theorem decodeWordRequest_encode {α : Type} {value : Int} (encoded : encodeUint64 value = .ok body)
    (className : String) (new : Int → Except Exn α) :
    decodeWordRequest className new body 0 = new value := by
  obtain ⟨n, rfl, bound, rfl⟩ := encodeUint64_word encoded
  have word := decodeUint64_toLE bound [] "uint64"
  rw [List.append_nil] at word
  rw [decodeWordRequest, requireSchema_ok (by simp), ok_bind, requireLength_ok (toLE_length 8 n),
    ok_bind, word, ok_bind]

theorem decodeNodeAddress_encode {α : Type} {label : String} {nodeId : Int} {address : Str}
    (encoded : encodeNodeAddress label nodeId address = .ok body) (className : String)
    (new : Int → Str → Except Exn α) :
    decodeNodeAddress className label new body 0 = new nodeId address := by
  obtain ⟨_, word, tail⟩ := bind_eq_ok.mp encoded
  obtain ⟨text, written, last⟩ := bind_eq_ok.mp tail
  cases last
  obtain ⟨n, rfl, bound, rfl⟩ := encodeUint64_word word
  obtain ⟨read, _, _⟩ := decodeText_encode written .bytes [] label .strict
  rw [List.append_nil] at read
  rw [decodeNodeAddress, requireSchema_ok (by simp), ok_bind, decodeUint64_toLE bound, ok_bind,
    List.drop_left' (toLE_length 8 n), read, ok_bind]
  simp only
  rw [requireConsumed_ok (by rw [List.length_append, toLE_length]), ok_bind]

theorem decodeStatementPrefix_encode {dbId stmtId : Int}
    (encoded : encodeStatementPrefix dbId stmtId = .ok body) (rest : Bytes) :
    decodeStatementPrefix (body ++ rest) = .ok ((dbId, stmtId), body.length) ∧ body.length = 8 := by
  obtain ⟨_, first, tail⟩ := bind_eq_ok.mp encoded
  obtain ⟨_, second, last⟩ := bind_eq_ok.mp tail
  cases last
  obtain ⟨n, rfl, bound, rfl⟩ := encodeUint32_ok first
  obtain ⟨k, rfl, bound', rfl⟩ := encodeUint32_ok second
  have length : (toLE 4 n ++ toLE 4 k).length = 8 := by
    rw [List.length_append, toLE_length, toLE_length]
  refine ⟨?_, length⟩
  rw [length, List.append_assoc, decodeStatementPrefix, decodeUint32_toLE bound, ok_bind,
    List.drop_left' (toLE_length 4 n), decodeUint32_toLE bound', ok_bind]
  rfl

theorem decodeSqlPrefix_encode {dbId : Int} {sql : Str} (encoded : encodeSqlPrefix dbId sql = .ok body)
    (rest : Bytes) :
    decodeSqlPrefix (body ++ rest) = .ok ((dbId, sql), body.length) ∧ body.length % 8 = 0 := by
  obtain ⟨_, first, tail⟩ := bind_eq_ok.mp encoded
  obtain ⟨text, second, last⟩ := bind_eq_ok.mp tail
  cases last
  obtain ⟨n, rfl, bound, rfl⟩ := encodeUint64_word first
  obtain ⟨read, aligned, _⟩ := decodeText_encode second .view rest "SQL" .strict
  have length : (toLE 8 n ++ text).length = 8 + text.length := by
    rw [List.length_append, toLE_length]
  refine ⟨?_, by omega⟩
  rw [length, List.append_assoc, decodeSqlPrefix, decodeUint64_toLE bound, ok_bind,
    List.drop_left' (toLE_length 8 n), read, ok_bind]
  rfl

end Fields

/-- The fields that take part in a comparison: the hints do not, and bytes-like parameters count as
their bytes. -/
def ParamsFields.compared (f : ParamsFields) : ParamsFields :=
  ⟨(f.params.map asValue).map .value, none, none⟩

theorem ParamsFields.received_compared (f : ParamsFields) (schema : Nat) (empty : Bool) :
    (f.received schema empty).compared = f.compared := by
  have values : ((f.params.map asValue).map WireInput.value).map asValue = f.params.map asValue := by
    rw [List.map_map]
    exact List.map_id _
  simp only [compared, received, values]

namespace Request

/-- Built by the constructor of a public class, the private flags left at their defaults. -/
def Built : Request → Prop
  | .leader _ => True
  | .client m => ClientRequest.new m.clientId = .ok m
  | .open m => OpenRequest.new m.name m.flags m.vfs = .ok m
  | .prepare m => PrepareRequest.new m.dbId m.sql m.schema = .ok m
  | .exec m => ExecRequest.new (m.dbId, m.stmtId) m.toParamsFields = .ok m
  | .query m => QueryRequest.new (m.dbId, m.stmtId) m.toParamsFields = .ok m
  | .finalize m => FinalizeRequest.new m.dbId m.stmtId = .ok m
  | .execSql m => ExecSqlRequest.new (m.dbId, m.sql) m.toParamsFields = .ok m
  | .querySql m => QuerySqlRequest.new (m.dbId, m.sql) m.toParamsFields = .ok m
  | .interrupt m => InterruptRequest.new m.dbId = .ok m
  | .add m => AddRequest.new m.nodeId m.address = .ok m
  | .assign m => ∃ role, AssignRequest.new m.nodeId role = .ok m
  | .remove m => RemoveRequest.new m.nodeId = .ok m
  | .dump _ => True
  | .cluster m => ClusterRequest.new m.format = .ok m
  | .transfer m => TransferRequest.new m.targetNodeId = .ok m
  | .describe m => DescribeRequest.new m.format = .ok m
  | .weight m => WeightRequest.new m.weight = .ok m
  | .heartbeat _ | .connect _ => False

def compared : Request → Request
  | .exec m => .exec ⟨m.toParamsFields.compared, m.dbId, m.stmtId⟩
  | .query m => .query ⟨m.toParamsFields.compared, m.dbId, m.stmtId⟩
  | .execSql m => .execSql ⟨m.toParamsFields.compared, m.dbId, m.sql⟩
  | .querySql m => .querySql ⟨m.toParamsFields.compared, m.dbId, m.sql⟩
  | .assign m => .assign ⟨m.nodeId, m.role, false⟩
  | .cluster m => .cluster ⟨m.format, false⟩
  | .describe m => .describe ⟨m.format, false⟩
  | m => m

theorem Built.supported {m : Request} (built : m.Built) : ∃ schema : Nat, m.getSchema = schema ∧
    m.type ∈ requestTypes ∧ schema ≤ MessageDecoder.maxSchema true m.type.code := by
  have params {f : ParamsFields} (valid : f.validate = .ok ()) :
      ∃ schema : Nat, f.getSchema = schema ∧ schema ≤ 1 := by
    obtain ⟨schema, version, same⟩ := ParamsFields.getSchema_supported valid
    exact ⟨schema, same, by omega⟩
  cases m with
  | heartbeat | connect => exact built.elim
  | leader | client | «open» | finalize | interrupt | add | assign | remove | dump | cluster | transfer
  | describe | weight => exact ⟨0, rfl, by simp only [type]; decide, Nat.zero_le _⟩
  | prepare m =>
      obtain ⟨_, _, tail⟩ := bind_eq_ok.mp built
      obtain ⟨_, known, _⟩ := bind_eq_ok.mp tail
      have version := raiseIf_eq_ok.mp known
      obtain ⟨schema, same⟩ : ∃ schema : Nat, m.schema = schema := ⟨m.schema.toNat, by omega⟩
      refine ⟨schema, same, by simp only [type]; decide, ?_⟩
      have small : schema ≤ 1 := by omega
      exact small
  | exec m | query m =>
      obtain ⟨_, _, tail⟩ := bind_eq_ok.mp built
      obtain ⟨_, _, tail⟩ := bind_eq_ok.mp tail
      obtain ⟨_, valid, _⟩ := bind_eq_ok.mp tail
      obtain ⟨schema, same, small⟩ := params valid
      exact ⟨schema, same, by simp only [type]; decide, small⟩
  | execSql m | querySql m =>
      obtain ⟨_, _, tail⟩ := bind_eq_ok.mp built
      obtain ⟨_, valid, _⟩ := bind_eq_ok.mp tail
      obtain ⟨schema, same, small⟩ := params valid
      exact ⟨schema, same, by simp only [type]; decide, small⟩

end Request

section Bodies

variable {isoError : Str → Option String} {body : Bytes} {schema : Nat}

theorem OpenRequest.decodeBody_encode {m : OpenRequest} (built : new m.name m.flags m.vfs = .ok m)
    (encoded : m.encodeBody = .ok body) : decodeBody body = .ok m := by
  obtain ⟨name, named, tail⟩ := bind_eq_ok.mp encoded
  obtain ⟨_, word, tail⟩ := bind_eq_ok.mp tail
  obtain ⟨vfs, written, last⟩ := bind_eq_ok.mp tail
  obtain ⟨n, flags, bound, rfl⟩ := encodeUint64_word word
  cases last
  obtain ⟨first, _, _⟩ := decodeText_encode named .view (toLE 8 n ++ vfs) "database name" .strict
  obtain ⟨second, _, _⟩ := decodeText_encode written .view [] "vfs name" .strict
  rw [List.append_nil] at second
  have rest : (name ++ toLE 8 n ++ vfs).drop (name.length + 8) = vfs := by
    rw [← List.drop_drop, List.append_assoc, List.drop_left, List.drop_left' (toLE_length 8 n)]
  rw [decodeBody, requireSchema_ok (by simp), ok_bind, List.append_assoc, first, ok_bind]
  simp only [List.drop_left, decodeUint64_toLE bound, ok_bind]
  rw [← List.append_assoc, rest, second, ok_bind]
  simp only
  rw [requireConsumed_ok (by simp only [List.length_append, toLE_length]), ok_bind, ← flags]
  exact built

theorem PrepareRequest.decodeBody_encode {m : PrepareRequest}
    (built : new m.dbId m.sql m.schema = .ok m) (versioned : m.schema = schema)
    (encoded : m.encodeBody = .ok body) : decodeBody body schema = .ok m := by
  obtain ⟨_, word, tail⟩ := bind_eq_ok.mp encoded
  obtain ⟨text, written, last⟩ := bind_eq_ok.mp tail
  obtain ⟨n, dbId, bound, rfl⟩ := encodeUint64_word word
  cases last
  obtain ⟨sql, _, _⟩ := decodeText_encode written .view [] "SQL" .strict
  rw [List.append_nil] at sql
  have known : schema ∈ [0, 1] := by
    obtain ⟨_, _, tail⟩ := bind_eq_ok.mp built
    obtain ⟨_, known, _⟩ := bind_eq_ok.mp tail
    have version := raiseIf_eq_ok.mp known
    simp only [List.mem_cons, List.not_mem_nil, or_false]
    omega
  rw [decodeBody, requireSchema_ok known, ok_bind, decodeUint64_toLE bound, ok_bind,
    List.drop_left' (toLE_length 8 n), sql, ok_bind]
  simp only
  rw [requireConsumed_ok (by rw [List.length_append, toLE_length]), ok_bind, ← dbId, ← versioned]
  exact built

theorem FinalizeRequest.decodeBody_encode {m : FinalizeRequest} (built : new m.dbId m.stmtId = .ok m)
    (encoded : m.encodeBody = .ok body) : decodeBody body = .ok m := by
  obtain ⟨db, stmt⟩ := m
  obtain ⟨ids, length⟩ := decodeStatementPrefix_encode encoded []
  rw [List.append_nil, length] at ids
  obtain ⟨dbId, first, tail⟩ := bind_eq_ok.mp ids
  obtain ⟨stmtId, second, last⟩ := bind_eq_ok.mp tail
  cases last
  rw [decodeBody, requireSchema_ok (by simp), ok_bind, requireLength_ok length, ok_bind, first,
    ok_bind, second, ok_bind]
  exact built

theorem DumpRequest.decodeBody_encode {m : DumpRequest} (encoded : m.encodeBody = .ok body) :
    decodeBody body = .ok m := by
  obtain ⟨name, _, _⟩ := decodeText_encode encoded .bytes [] "database name" .strict
  rw [List.append_nil] at name
  rw [decodeBody, requireSchema_ok (by simp), ok_bind, name, ok_bind]
  simp only
  rw [requireConsumed_ok rfl]
  rfl

theorem AssignRequest.decodeBody_encode {m : AssignRequest} (encoded : m.encodeBody = .ok body) :
    decodeBody body = .ok { m with legacyIntent := false } := by
  obtain ⟨nodeId, role, legacy⟩ := m
  cases role with
  | none => cases encoded
  | some role =>
      obtain ⟨_, word, tail⟩ := bind_eq_ok.mp encoded
      obtain ⟨_, ranked, last⟩ := bind_eq_ok.mp tail
      obtain ⟨n, same, bound, rfl⟩ := encodeUint64_word word
      obtain ⟨k, code, bound', rfl⟩ := encodeUint64_word ranked
      obtain rfl := Int.ofNat.inj code
      simp only at same
      subst same
      cases last
      have length : (toLE 8 n ++ toLE 8 role.code).length = 16 := by
        rw [List.length_append, toLE_length, toLE_length]
      have raw := decodeUint64_toLE bound' [] "uint64"
      rw [List.append_nil] at raw
      have rebuilt : new n (some (.role role)) = .ok ⟨n, some role, false⟩ := by
        rw [new, validateUint64_ok bound, ok_bind]
        rfl
      rw [decodeBody, requireSchema_ok (by simp), ok_bind, length, if_neg (by decide), if_pos rfl,
        List.drop_left' (toLE_length 8 n), raw, ok_bind, NodeRole.ofCode_code]
      simp only
      rw [decodeUint64_toLE bound, ok_bind, rebuilt]

theorem ClusterRequest.decodeBody_encode {m : ClusterRequest} (built : new m.format = .ok m)
    (encoded : m.encodeBody = .ok body) : decodeBody body = .ok { m with decoded := true } := by
  obtain ⟨format, decoded⟩ := m
  obtain ⟨_, _, tail⟩ := bind_eq_ok.mp built
  obtain ⟨_, fresh, tail⟩ := bind_eq_ok.mp tail
  obtain ⟨_, known, _⟩ := bind_eq_ok.mp tail
  have nonzero : format ≠ 0 := fun zero => raiseIf_eq_ok.mp fresh ⟨zero, rfl⟩
  obtain rfl : format = 1 := by
    by_contra other
    exact raiseIf_eq_ok.mp known ⟨nonzero, other⟩
  obtain rfl : toLE 8 1 = body := Except.ok.inj encoded
  have read : decodeBody (toLE 8 1) = .ok ⟨1, true⟩ := by decide +kernel
  exact read

theorem DescribeRequest.decodeBody_encode {m : DescribeRequest} (built : new m.format = .ok m)
    (encoded : m.encodeBody = .ok body) : decodeBody body = .ok { m with decoded := false } := by
  obtain ⟨format, decoded⟩ := m
  obtain ⟨_, _, tail⟩ := bind_eq_ok.mp built
  obtain ⟨_, fresh, _⟩ := bind_eq_ok.mp tail
  obtain rfl : format = 0 := by
    by_contra other
    exact raiseIf_eq_ok.mp fresh ⟨other, rfl⟩
  obtain rfl : toLE 8 0 = body := Except.ok.inj encoded
  have read : decodeBody (toLE 8 0) = .ok ⟨0, false⟩ := by decide +kernel
  exact read

theorem ExecRequest.decodeBody_encode {m : ExecRequest}
    (built : new (m.dbId, m.stmtId) m.toParamsFields = .ok m)
    (versioned : m.toParamsFields.getSchema = schema) (encoded : m.encodeBody isoError = .ok body) :
    ∃ empty, decodeBody body schema =
      .ok ⟨m.toParamsFields.received schema empty, m.dbId, m.stmtId⟩ := by
  obtain ⟨_, first, tail⟩ := bind_eq_ok.mp built
  obtain ⟨_, second, tail⟩ := bind_eq_ok.mp tail
  obtain ⟨_, valid, _⟩ := bind_eq_ok.mp tail
  obtain ⟨start, before, _⟩ := bind_eq_ok.mp encoded
  obtain ⟨empty, received, read⟩ := ParamsFields.decodeBody_encode valid versioned
    (by rw [(decodeStatementPrefix_encode before []).2])
    (fun rest => (decodeStatementPrefix_encode before rest).1) before encoded "ExecRequest" new
  refine ⟨empty, read.trans ?_⟩
  rw [new, first, ok_bind, second, ok_bind, received, ok_bind]
  rfl

theorem QueryRequest.decodeBody_encode {m : QueryRequest}
    (built : new (m.dbId, m.stmtId) m.toParamsFields = .ok m)
    (versioned : m.toParamsFields.getSchema = schema) (encoded : m.encodeBody isoError = .ok body) :
    ∃ empty, decodeBody body schema =
      .ok ⟨m.toParamsFields.received schema empty, m.dbId, m.stmtId⟩ := by
  obtain ⟨_, first, tail⟩ := bind_eq_ok.mp built
  obtain ⟨_, second, tail⟩ := bind_eq_ok.mp tail
  obtain ⟨_, valid, _⟩ := bind_eq_ok.mp tail
  obtain ⟨start, before, _⟩ := bind_eq_ok.mp encoded
  obtain ⟨empty, received, read⟩ := ParamsFields.decodeBody_encode valid versioned
    (by rw [(decodeStatementPrefix_encode before []).2])
    (fun rest => (decodeStatementPrefix_encode before rest).1) before encoded "QueryRequest" new
  refine ⟨empty, read.trans ?_⟩
  rw [new, first, ok_bind, second, ok_bind, received, ok_bind]
  rfl

theorem ExecSqlRequest.decodeBody_encode {m : ExecSqlRequest}
    (built : new (m.dbId, m.sql) m.toParamsFields = .ok m)
    (versioned : m.toParamsFields.getSchema = schema) (encoded : m.encodeBody isoError = .ok body) :
    ∃ empty, decodeBody body schema = .ok ⟨m.toParamsFields.received schema empty, m.dbId, m.sql⟩ := by
  obtain ⟨_, first, tail⟩ := bind_eq_ok.mp built
  obtain ⟨_, valid, _⟩ := bind_eq_ok.mp tail
  obtain ⟨start, before, _⟩ := bind_eq_ok.mp encoded
  obtain ⟨empty, received, read⟩ := ParamsFields.decodeBody_encode valid versioned
    (decodeSqlPrefix_encode before []).2 (fun rest => (decodeSqlPrefix_encode before rest).1) before
    encoded "ExecSqlRequest" new
  refine ⟨empty, read.trans ?_⟩
  rw [new, first, ok_bind, received, ok_bind]
  rfl

theorem QuerySqlRequest.decodeBody_encode {m : QuerySqlRequest}
    (built : new (m.dbId, m.sql) m.toParamsFields = .ok m)
    (versioned : m.toParamsFields.getSchema = schema) (encoded : m.encodeBody isoError = .ok body) :
    ∃ empty, decodeBody body schema = .ok ⟨m.toParamsFields.received schema empty, m.dbId, m.sql⟩ := by
  obtain ⟨_, first, tail⟩ := bind_eq_ok.mp built
  obtain ⟨_, valid, _⟩ := bind_eq_ok.mp tail
  obtain ⟨start, before, _⟩ := bind_eq_ok.mp encoded
  obtain ⟨empty, received, read⟩ := ParamsFields.decodeBody_encode valid versioned
    (decodeSqlPrefix_encode before []).2 (fun rest => (decodeSqlPrefix_encode before rest).1) before
    encoded "QuerySqlRequest" new
  refine ⟨empty, read.trans ?_⟩
  rw [new, first, ok_bind, received, ok_bind]
  rfl

end Bodies

namespace Request

variable {isoError : Str → Option String} {body : Bytes}

theorem unversioned {schema : Nat} (versioned : (0 : Int) = schema) : 0 = schema := by omega

theorem decodeBody_encode {m : Request} (built : m.Built) {schema : Nat}
    (versioned : m.getSchema = schema) (encoded : m.encodeBody isoError = .ok body) :
    ∃ m', MessageDecoder.decodeRequestBody m.type body schema = .ok m' ∧ m'.compared = m.compared := by
  cases m with
  | heartbeat | connect => exact built.elim
  | leader m =>
      obtain rfl := unversioned versioned
      obtain rfl : toLE 8 0 = body := Except.ok.inj encoded
      exact ⟨.leader ⟨⟩, rfl, rfl⟩
  | client m | remove m | transfer m | weight m | interrupt m =>
      obtain rfl := unversioned versioned
      exact ⟨_, congrArg (Functor.map _) ((decodeWordRequest_encode encoded _ _).trans built), rfl⟩
  | add m =>
      obtain rfl := unversioned versioned
      exact ⟨_, congrArg (Functor.map _) ((decodeNodeAddress_encode encoded _ _).trans built), rfl⟩
  | «open» m =>
      obtain rfl := unversioned versioned
      exact ⟨_, congrArg (Functor.map _) (OpenRequest.decodeBody_encode built encoded), rfl⟩
  | prepare m =>
      exact ⟨_, congrArg (Functor.map _) (PrepareRequest.decodeBody_encode built versioned encoded), rfl⟩
  | finalize m =>
      obtain rfl := unversioned versioned
      exact ⟨_, congrArg (Functor.map _) (FinalizeRequest.decodeBody_encode built encoded), rfl⟩
  | exec m =>
      obtain ⟨empty, read⟩ := ExecRequest.decodeBody_encode built versioned encoded
      refine ⟨_, congrArg (Functor.map _) read, ?_⟩
      rw [compared, ParamsFields.received_compared]
      rfl
  | query m =>
      obtain ⟨empty, read⟩ := QueryRequest.decodeBody_encode built versioned encoded
      refine ⟨_, congrArg (Functor.map _) read, ?_⟩
      rw [compared, ParamsFields.received_compared]
      rfl
  | execSql m =>
      obtain ⟨empty, read⟩ := ExecSqlRequest.decodeBody_encode built versioned encoded
      refine ⟨_, congrArg (Functor.map _) read, ?_⟩
      rw [compared, ParamsFields.received_compared]
      rfl
  | querySql m =>
      obtain ⟨empty, read⟩ := QuerySqlRequest.decodeBody_encode built versioned encoded
      refine ⟨_, congrArg (Functor.map _) read, ?_⟩
      rw [compared, ParamsFields.received_compared]
      rfl
  | assign m =>
      obtain rfl := unversioned versioned
      exact ⟨_, congrArg (Functor.map _) (AssignRequest.decodeBody_encode encoded), rfl⟩
  | dump m =>
      obtain rfl := unversioned versioned
      exact ⟨_, congrArg (Functor.map _) (DumpRequest.decodeBody_encode encoded), rfl⟩
  | cluster m =>
      obtain rfl := unversioned versioned
      exact ⟨_, congrArg (Functor.map _) (ClusterRequest.decodeBody_encode built encoded), rfl⟩
  | describe m =>
      obtain rfl := unversioned versioned
      exact ⟨_, congrArg (Functor.map _) (DescribeRequest.decodeBody_encode built encoded), rfl⟩

end Request

section Responses

variable {body : Bytes}

theorem LeaderResponse.decodeBody_encode {m : LeaderResponse} (built : new m.nodeId m.address = .ok m)
    (encoded : m.encodeBody = .ok body) : decodeBody body = .ok m := by
  obtain ⟨_, paired, tail⟩ := bind_eq_ok.mp encoded
  obtain ⟨_, word, tail⟩ := bind_eq_ok.mp tail
  obtain ⟨text, written, last⟩ := bind_eq_ok.mp tail
  obtain ⟨n, nodeId, bound, rfl⟩ := encodeUint64_word word
  cases last
  obtain ⟨read, _, _⟩ := decodeText_encode written .bytes [] "leader address" .strict
  rw [List.append_nil] at read
  have length : (toLE 8 n ++ text).length = 8 + text.length := by
    rw [List.length_append, toLE_length]
  have atomic : ¬ (n = 0 ∧ m.address ≠ []) := by
    rintro ⟨rfl, some_⟩
    exact raiseIf_eq_ok.mp paired ⟨nodeId, some_⟩
  rw [decodeBody, raiseIf_neg (by simp), ok_bind, raiseIf_neg (by omega), ok_bind,
    decodeUint64_toLE bound, ok_bind, List.drop_left' (toLE_length 8 n), read, ok_bind]
  simp only
  rw [raiseIf_neg (by omega), ok_bind, raiseIf_neg atomic, ok_bind, ← nodeId]
  exact built

theorem WelcomeResponse.decodeBody_encode {m : WelcomeResponse} (built : new m.heartbeatTimeout = .ok m)
    (encoded : m.encodeBody = .ok body) : decodeBody body = .ok m := by
  obtain ⟨n, timeout, bound, rfl⟩ := encodeUint64_word encoded
  have word := decodeUint64_toLE bound [] "uint64"
  rw [List.append_nil] at word
  rw [decodeBody, raiseIf_neg (by simp), ok_bind, raiseIf_neg (by rw [toLE_length]; simp), ok_bind,
    word, ok_bind, ← timeout]
  exact built

theorem DbResponse.decodeBody_encode {m : DbResponse} (built : new m.dbId = .ok m)
    (encoded : m.encodeBody = .ok body) : decodeBody body = .ok m := by
  obtain ⟨_, word, tail⟩ := bind_eq_ok.mp encoded
  obtain ⟨_, reserved, last⟩ := bind_eq_ok.mp tail
  obtain ⟨n, dbId, bound, rfl⟩ := encodeUint32_ok word
  obtain ⟨k, _, _, rfl⟩ := encodeUint32_ok reserved
  cases last
  have length : (toLE 4 n ++ toLE 4 k).length = 8 := by
    rw [List.length_append, toLE_length, toLE_length]
  rw [decodeBody, raiseIf_neg (by simp), ok_bind, raiseIf_neg (by rw [length]; simp), ok_bind,
    decodeUint32_toLE bound, ok_bind, ← dbId]
  exact built

theorem two_words {first second : Int} (encoded : (do
      let first ← encodeUint64 first
      let second ← encodeUint64 second
      return first ++ second) = .ok body) :
    body.length = 16 ∧ ∃ n k : Nat, first = n ∧ second = k ∧ decodeUint64 body = .ok n ∧
      decodeUint64 (body.drop 8) = .ok k := by
  obtain ⟨_, word, tail⟩ := bind_eq_ok.mp encoded
  obtain ⟨_, word', last⟩ := bind_eq_ok.mp tail
  obtain ⟨n, rfl, bound, rfl⟩ := encodeUint64_word word
  obtain ⟨k, rfl, bound', rfl⟩ := encodeUint64_word word'
  cases last
  have read := decodeUint64_toLE bound' [] "uint64"
  rw [List.append_nil] at read
  refine ⟨by rw [List.length_append, toLE_length, toLE_length], n, k, rfl, rfl,
    decodeUint64_toLE bound _ _, ?_⟩
  rw [List.drop_left' (toLE_length 8 n), read]

theorem ResultResponse.decodeBody_encode {m : ResultResponse}
    (built : new m.lastInsertId m.rowsAffected = .ok m) (encoded : m.encodeBody = .ok body) :
    decodeBody body = .ok m := by
  obtain ⟨length, n, k, lastInsertId, rowsAffected, first, second⟩ := two_words encoded
  obtain ⟨_, _, tail⟩ := bind_eq_ok.mp built
  obtain ⟨_, _, tail⟩ := bind_eq_ok.mp tail
  obtain ⟨_, capped, _⟩ := bind_eq_ok.mp tail
  have small : ¬ maxRowsAffected < k := by
    have within := raiseIf_eq_ok.mp capped
    rw [rowsAffected] at within
    exact_mod_cast within
  rw [decodeBody, raiseIf_neg (by simp), ok_bind, raiseIf_neg (by rw [length]; simp), ok_bind, first,
    ok_bind, second, ok_bind, raiseIf_neg small, ok_bind, ← lastInsertId, ← rowsAffected]
  exact built

theorem MetadataResponse.decodeBody_encode {m : MetadataResponse}
    (built : new m.failureDomain m.weight = .ok m) (encoded : m.encodeBody = .ok body) :
    decodeBody body = .ok m := by
  obtain ⟨length, n, k, failureDomain, weight, first, second⟩ := two_words encoded
  rw [decodeBody, raiseIf_neg (by simp), ok_bind, raiseIf_neg (by rw [length]; simp), ok_bind, first,
    ok_bind, second, ok_bind, ← failureDomain, ← weight]
  exact built

section Stmt

variable {dbId stmtId numParams : Int}

structure StmtResponse.Fields (dbId stmtId numParams : Int) : Prop where
  db : validateUint32 "db_id" dbId = .ok ()
  stmt : validateUint32 "stmt_id" stmtId = .ok ()
  params : validateUint64 "num_params" numParams = .ok ()
  capped : ¬ (maxParamCount : Int) < numParams

theorem StmtResponse.new_schema0 (valid : Fields dbId stmtId numParams) :
    new dbId stmtId numParams none (some 0) = .ok ⟨dbId, stmtId, numParams, none, some 0⟩ := by
  rw [new, valid.db, ok_bind, valid.stmt, ok_bind, valid.params, ok_bind, raiseIf_neg valid.capped,
    ok_bind]
  rfl

theorem StmtResponse.new_schema1 (valid : Fields dbId stmtId numParams) {offset : Int}
    (range : validateUint64 "tail_offset" offset = .ok ()) (within : ¬ (maxTailOffset : Int) < offset) :
    new dbId stmtId numParams (some offset) (some 1) =
      .ok ⟨dbId, stmtId, numParams, some offset, some 1⟩ := by
  rw [new, valid.db, ok_bind, valid.stmt, ok_bind, valid.params, ok_bind, raiseIf_neg valid.capped,
    ok_bind]
  simp only [range, ok_bind, raiseIf_neg within]
  rfl

/-- What the constructor makes of an explicit schema: no offset under schema 0, one under
schema 1. -/
theorem StmtResponse.new_ok {tail : Option Int} {version : Int} {m : StmtResponse}
    (built : new dbId stmtId numParams tail (some version) = .ok m) :
    Fields dbId stmtId numParams ∧ (m = ⟨dbId, stmtId, numParams, none, some 0⟩ ∨
      ∃ offset, validateUint64 "tail_offset" offset = .ok () ∧ ¬ (maxTailOffset : Int) < offset ∧
        m = ⟨dbId, stmtId, numParams, some offset, some 1⟩) := by
  obtain ⟨_, first, rest⟩ := bind_eq_ok.mp built
  obtain ⟨_, second, rest⟩ := bind_eq_ok.mp rest
  obtain ⟨_, third, rest⟩ := bind_eq_ok.mp rest
  obtain ⟨_, capped, rest⟩ := bind_eq_ok.mp rest
  refine ⟨⟨first, second, third, raiseIf_eq_ok.mp capped⟩, ?_⟩
  cases tail with
  | none =>
      obtain ⟨_, _, rest⟩ := bind_eq_ok.mp rest
      obtain ⟨_, known, rest⟩ := bind_eq_ok.mp rest
      obtain ⟨_, _, last⟩ := bind_eq_ok.mp rest
      have supported := raiseIf_eq_ok.mp known
      by_cases zero : version = 0
      · subst zero
        cases last
        exact .inl rfl
      · obtain rfl : version = 1 := by
          by_contra other
          exact supported ⟨zero, other⟩
        cases last
        exact .inr ⟨0, by decide +kernel, by decide, rfl⟩
  | some offset =>
      obtain ⟨_, range, rest⟩ := bind_eq_ok.mp rest
      obtain ⟨_, within, rest⟩ := bind_eq_ok.mp rest
      obtain ⟨_, known, rest⟩ := bind_eq_ok.mp rest
      obtain ⟨_, versioned, last⟩ := bind_eq_ok.mp rest
      have nonzero : version ≠ 0 := by
        rintro rfl
        exact raiseIf_eq_ok.mp versioned ⟨rfl, by simp⟩
      obtain rfl : version = 1 := by
        by_contra other
        exact raiseIf_eq_ok.mp known ⟨nonzero, other⟩
      cases last
      exact .inr ⟨offset, range, raiseIf_eq_ok.mp within, rfl⟩

theorem StmtResponse.decodeBody_encode {m : StmtResponse} {tail : Option Int} {version : Int}
    (built : new m.dbId m.stmtId m.numParams tail (some version) = .ok m) {schema : Nat}
    (versioned : m.getSchema = schema) (encoded : m.encodeBody = .ok body) :
    schema ≤ 1 ∧ decodeBody body schema = .ok m := by
  obtain ⟨valid, shape⟩ := new_ok built
  obtain ⟨_, _, rest⟩ := bind_eq_ok.mp encoded
  obtain ⟨_, first, rest⟩ := bind_eq_ok.mp rest
  obtain ⟨_, second, rest⟩ := bind_eq_ok.mp rest
  obtain ⟨_, third, rest⟩ := bind_eq_ok.mp rest
  obtain ⟨db, dbId, bound, rfl⟩ := encodeUint32_ok first
  obtain ⟨stmt, stmtId, bound', rfl⟩ := encodeUint32_ok second
  obtain ⟨params, numParams, bound'', rfl⟩ := encodeUint64_word third
  rw [dbId, stmtId, numParams] at valid shape
  have small : ¬ maxParamCount < params := by exact_mod_cast valid.capped
  rcases shape with rfl | ⟨offset, range, within, rfl⟩
  · obtain rfl := Int.ofNat.inj versioned
    cases rest
    have length : (toLE 4 db ++ toLE 4 stmt ++ toLE 8 params).length = 16 := by
      simp only [List.length_append, toLE_length]
    have read : decodeUint64 ((toLE 4 db ++ toLE 4 stmt ++ toLE 8 params).drop 8) = .ok params := by
      have word := decodeUint64_toLE bound'' [] "uint64"
      rw [List.append_nil] at word
      rw [List.drop_left' (by rw [List.length_append, toLE_length, toLE_length]), word]
    refine ⟨Nat.zero_le _, ?_⟩
    rw [decodeBody, raiseIf_neg (by simp), ok_bind]
    simp only [length]
    rw [raiseIf_neg (by simp), ok_bind, List.append_assoc, decodeUint32_toLE bound, ok_bind,
      List.drop_left' (toLE_length 4 db), decodeUint32_toLE bound', ok_bind, ← List.append_assoc, read,
      ok_bind, raiseIf_neg small, ok_bind]
    exact new_schema0 valid
  · obtain rfl := Int.ofNat.inj versioned
    have one : getSchema ⟨db, stmt, params, some offset, some 1⟩ = 1 := rfl
    rw [if_pos one] at rest
    obtain ⟨_, _, rest⟩ := bind_eq_ok.mp rest
    obtain ⟨_, fourth, last⟩ := bind_eq_ok.mp rest
    obtain ⟨tail, tailOffset, tailBound, rfl⟩ := encodeUint64_word fourth
    cases last
    rw [Option.getD_some] at tailOffset
    subst tailOffset
    have length : (toLE 4 db ++ toLE 4 stmt ++ toLE 8 params ++ toLE 8 tail).length = 24 := by
      simp only [List.length_append, toLE_length]
    have read : (toLE 4 db ++ toLE 4 stmt ++ toLE 8 params ++ toLE 8 tail).drop 8 =
        toLE 8 params ++ toLE 8 tail := by
      rw [List.append_assoc, List.drop_left' (by rw [List.length_append, toLE_length, toLE_length])]
    have read' : decodeUint64 ((toLE 4 db ++ toLE 4 stmt ++ toLE 8 params ++ toLE 8 tail).drop 16) =
        .ok tail := by
      have word := decodeUint64_toLE tailBound [] "uint64"
      rw [List.append_nil] at word
      rw [List.drop_left' (by simp only [List.length_append, toLE_length]), word]
    have first_ : decodeUint32 (toLE 4 db ++ toLE 4 stmt ++ toLE 8 params ++ toLE 8 tail) = .ok db := by
      simp only [List.append_assoc]
      exact decodeUint32_toLE bound _
    have second_ : decodeUint32 ((toLE 4 db ++ toLE 4 stmt ++ toLE 8 params ++ toLE 8 tail).drop 4) =
        .ok stmt := by
      simp only [List.append_assoc]
      rw [List.drop_left' (toLE_length 4 db), decodeUint32_toLE bound']
    have within' : ¬ maxTailOffset < tail := by exact_mod_cast within
    refine ⟨le_rfl, ?_⟩
    rw [decodeBody, raiseIf_neg (by simp), ok_bind]
    simp only [length]
    rw [raiseIf_neg (by simp), ok_bind, first_, ok_bind, second_, ok_bind, read,
      decodeUint64_toLE bound'', ok_bind, raiseIf_neg small, ok_bind, if_pos trivial, read', ok_bind,
      raiseIf_neg within', ok_bind]
    exact new_schema1 valid range within

end Stmt

end Responses

namespace Response

/-- Built by the constructor of a class with a fixed number of fields, an explicit schema where there
is one. -/
def Built : Response → Prop
  | .failure m => FailureResponse.new m.code m.message = .ok m
  | .leader m => LeaderResponse.new m.nodeId m.address = .ok m
  | .welcome m => WelcomeResponse.new m.heartbeatTimeout = .ok m
  | .db m => DbResponse.new m.dbId = .ok m
  | .stmt m => ∃ tail version, StmtResponse.new m.dbId m.stmtId m.numParams tail (some version) = .ok m
  | .result m => ResultResponse.new m.lastInsertId m.rowsAffected = .ok m
  | .empty _ => True
  | .metadata m => MetadataResponse.new m.failureDomain m.weight = .ok m
  | .servers _ | .rows _ | .files _ => False

def received : Response → Response
  | .failure m => .failure ⟨m.code, sanitizeServerText m.message⟩
  | m => m

variable {isoError : Str → Option String} {body : Bytes}

theorem Built.supported {m : Response} (built : m.Built) : ∃ schema : Nat, m.getSchema = schema ∧
    schema ≤ MessageDecoder.maxSchema false m.type.code := by
  cases m with
  | servers | rows | files => exact built.elim
  | failure | leader | welcome | db | result | empty | metadata => exact ⟨0, rfl, Nat.zero_le _⟩
  | stmt m =>
      obtain ⟨tail, version, built⟩ := built
      obtain ⟨_, shape⟩ := StmtResponse.new_ok built
      rcases shape with same | ⟨offset, _, _, same⟩
      · exact ⟨0, by rw [same]; rfl, Nat.zero_le _⟩
      · exact ⟨1, by rw [same]; rfl, le_rfl⟩

theorem decodeBody_encode {m : Response} (built : m.Built) {schema : Nat}
    (versioned : m.getSchema = schema) (encoded : m.encodeBody isoError = .ok body) :
    MessageDecoder.decodeResponseBody (.default false) (some protocolVersion) m.type body schema =
      .ok m.received := by
  cases m with
  | servers | rows | files => exact built.elim
  | failure m =>
      obtain rfl := Request.unversioned versioned
      exact congrArg (Functor.map _) (FailureResponse.decodeBody_record encoded)
  | leader m =>
      obtain rfl := Request.unversioned versioned
      exact congrArg (Functor.map _) (LeaderResponse.decodeBody_encode built encoded)
  | welcome m =>
      obtain rfl := Request.unversioned versioned
      exact congrArg (Functor.map _) (WelcomeResponse.decodeBody_encode built encoded)
  | db m =>
      obtain rfl := Request.unversioned versioned
      exact congrArg (Functor.map _) (DbResponse.decodeBody_encode built encoded)
  | stmt m =>
      obtain ⟨tail, version, built⟩ := built
      exact congrArg (Functor.map _) (StmtResponse.decodeBody_encode built versioned encoded).2
  | result m =>
      obtain rfl := Request.unversioned versioned
      exact congrArg (Functor.map _) (ResultResponse.decodeBody_encode built encoded)
  | empty m =>
      obtain rfl := Request.unversioned versioned
      obtain rfl : toLE 8 0 = body := Except.ok.inj encoded
      rfl
  | metadata m =>
      obtain rfl := Request.unversioned versioned
      exact congrArg (Functor.map _) (MetadataResponse.decodeBody_encode built encoded)

end Response

/-- What one side encodes the other decodes, for every class with a fixed number of fields and every
statement request. -/
theorem exchange (isoError : Str → Option String) :
    (∀ (m : Request) (f : Bytes), m.Built → encodeMessage isoError (.request m) = .ok f →
        ∃ m', decodeMessage (.default true) f = .ok (.request m') ∧ m'.compared = m.compared) ∧
      ∀ (m : Response) (f : Bytes), m.Built → encodeMessage isoError (.response m) = .ok f →
        decodeMessage (.default false) f = .ok (.response m.received) := by
  refine ⟨fun m f built encoded => ?_, fun m f built encoded => ?_⟩
  · obtain ⟨schema, versioned, known, supported⟩ := built.supported
    obtain ⟨frame, small⟩ := encodeMessage_ok encoded
    obtain ⟨body, written, decoded⟩ := decodeFrame_encode_request frame versioned known supported
    obtain ⟨m', read, same⟩ := Request.decodeBody_encode built versioned written
    refine ⟨m', ?_, same⟩
    rw [decodeMessage_eq, decoded (.default true) _ rfl small, read]
    rfl
  · obtain ⟨schema, versioned, supported⟩ := built.supported
    obtain ⟨frame, small⟩ := encodeMessage_ok encoded
    obtain ⟨body, written, decoded⟩ := decodeFrame_encode_response frame versioned supported
    have read := Response.decodeBody_encode built versioned written
    rw [decodeMessage_eq, decoded (.default false) _ rfl small]
    exact congrArg (Functor.map _) read

theorem exchange_interrupt_stmt :
    (∃ m', decodeMessage (.default true) ([1, 0, 0, 0, 10, 0, 0, 0] ++ [1, 0, 0, 0, 0, 0, 0, 0]) =
        .ok (.request m') ∧ m'.compared = .interrupt ⟨1⟩) ∧
      decodeMessage (.default false) ([2, 0, 0, 0, 5, 0, 0, 0] ++ [1, 0, 0, 0, 2, 0, 0, 0] ++ zeros 8) =
        .ok (.response (.stmt ⟨1, 2, 0, none, some 0⟩)) :=
  ⟨(exchange fun _ => none).1 (.interrupt ⟨1⟩) _
      (show InterruptRequest.new 1 = .ok ⟨1⟩ by decide +kernel) (by decide +kernel),
    (exchange fun _ => none).2 (.stmt ⟨1, 2, 0, none, some 0⟩) _ ⟨none, 0, by decide +kernel⟩
      (by decide +kernel)⟩

end DqliteWire
