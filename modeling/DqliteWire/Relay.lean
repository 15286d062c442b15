import DqliteWire.Link
import DqliteWire.Reencode
import DqliteWire.ServerText

/-! A message that was decoded and is sent on: its class encodes it again, and the next reader reads the
message that was relayed. Last, that no two conversations look alike on the wire. -/

namespace DqliteWire

open WireLib WireLib.Utf8 MessageDecoder

section Fields

variable {className label : String} {data : Bytes} {schema : Nat}

theorem requireSchema_mem {allowed : List Nat} {u : Unit}
    (checked : requireSchema className schema allowed = .ok u) : schema ∈ allowed :=
  not_not.mp (raiseIf_eq_ok.mp checked)

theorem requireSchema_zero {u : Unit} (checked : requireSchema className schema = .ok u) : schema = 0 := by
  simpa using requireSchema_mem checked

theorem requireConsumed_offset {offset : Nat} {u : Unit}
    (checked : requireConsumed className data offset = .ok u) : offset = data.length :=
  not_not.mp (raiseIf_eq_ok.mp checked)

theorem encodeText_of_decode {source : Source} {maxSize n : Nat} {s : Str}
    (decoded : decodeText source data maxSize label = .ok (s, n)) (encodeLabel : String) :
    ∃ bytes, encodeText s (some maxSize) encodeLabel = .ok bytes ∧ bytes.length = n := by
  obtain ⟨bytes, written, rewrites⟩ := decodeText_rewrites decoded encodeLabel
  exact ⟨bytes, written, rewrites.length_eq⟩

theorem decodeWordRequest_ok {α : Type} {new : Int → Except Exn α} {m : α}
    (decoded : decodeWordRequest className new data schema = .ok m) :
    schema = 0 ∧ ∃ n : Nat, n < 256 ^ 8 ∧ new n = .ok m := by
  obtain ⟨_, versioned, tail⟩ := bind_eq_ok.mp decoded
  obtain ⟨_, _, tail⟩ := bind_eq_ok.mp tail
  obtain ⟨n, word, built⟩ := bind_eq_ok.mp tail
  exact ⟨requireSchema_zero versioned, n, (decodeWord_ok word).2.1, built⟩

theorem decodeNodeAddress_ok {α : Type} {new : Int → Str → Except Exn α} {m : α}
    (decoded : decodeNodeAddress className label new data schema = .ok m) :
    schema = 0 ∧ ∃ (n : Nat) (address : Str),
      (∃ bytes, encodeNodeAddress label n address = .ok bytes ∧ bytes.length = data.length) ∧
        new n address = .ok m := by
  obtain ⟨_, versioned, tail⟩ := bind_eq_ok.mp decoded
  obtain ⟨n, word, tail⟩ := bind_eq_ok.mp tail
  obtain ⟨⟨address, consumed⟩, text, tail⟩ := bind_eq_ok.mp tail
  obtain ⟨_, whole, built⟩ := bind_eq_ok.mp tail
  obtain ⟨bytes, written, length⟩ := encodeText_of_decode text label
  refine ⟨requireSchema_zero versioned, n, address, ⟨toLE 8 n ++ bytes, ?_, ?_⟩, built⟩
  · rw [encodeNodeAddress, encodeUint64_nat (decodeWord_ok word).2.1, ok_bind, written]
    rfl
  · rw [List.length_append, toLE_length, length, requireConsumed_offset whole]

end Fields

/-- What was decoded is a message of its class again: built by the constructor, sent with the schema it
came with and in no more bytes. A promotion is sent as the two words of an assignment. A CLUSTER request may
hold a format that its constructor takes from a decoder only, and is sent as it came. -/
structure Request.Resent (isoError : Str → Option String) (t : RequestType) (schema : Nat) (data : Bytes)
    (m : Request) : Prop where
  type : m.type = t
  versioned : m.getSchema = schema
  written : ∃ body, m.encodeBody isoError = .ok body ∧ body.length ≤ max data.length 16
  kept : m.Built ∨ m.encodeBody isoError = .ok data

section Tuple

variable {isoError : Str → Option String} {source : Source} {data : Bytes} {schema offset consumed : Nat}
  {params : List WireValue}

variable (isoError) in
/-- Parameters that were read are written in as many bytes, whatever their tags. -/
theorem encodeParamsTuple_of_decode
    (decoded : decodeParamsTuple source data none schema offset = .ok (params, consumed))
    (aligned : offset % 8 = 0) :
    ∃ bytes, encodeParamsTuple isoError (params.map .value) schema offset
        (decide (params = [] ∧ 0 < consumed)) = .ok bytes ∧ bytes.length = consumed := by
  obtain ⟨version, ⟨rfl, rfl, rfl⟩ | ⟨_, zero, rfl, rfl⟩ | ⟨_, some_, body⟩⟩ :=
    decodeParamsTuple_cases decoded
  · refine ⟨[], ?_, rfl⟩
    rcases version with rfl | rfl <;> rfl
  · -- the header of no parameters fills a word
    have whole : countWidth schema + padToWord (offset + countWidth schema) = 8 := by
      have completed := mod_padToWord (offset + countWidth schema)
      have short := padToWord_lt (offset + countWidth schema)
      have width : countWidth schema = 1 ∨ countWidth schema = 4 := by
        rcases version with rfl | rfl
        · exact .inl rfl
        · exact .inr rfl
      omega
    have emit : decide (([] : List WireValue) = [] ∧
        0 < countWidth schema + padToWord (offset + countWidth schema)) = true := by
      rw [whole]
      decide
    refine ⟨zeros 8, ?_, by rw [zeros_length, whole]⟩
    rw [emit]
    rcases version with rfl | rfl <;> rfl
  · obtain ⟨small, _, types, length, _, untimed, values⟩ := decodeParamsBody_ok body
    obtain ⟨pieces, written, _, last⟩ := encodeParams_decoded isoError values untimed 0
    have sized := decodeValues_length values
    have count : (params.map WireInput.value).length = paramCount schema data := by
      rw [List.length_map, sized, length]
    have nonempty : params.map WireInput.value ≠ [] := by
      intro none
      rw [none, List.length_nil] at count
      exact some_ count.symm
    refine ⟨_, encodeParamsTuple_some offset version nonempty (by rw [count]; exact small)
      (by rw [count]; exact paramCount_lt schema data) written _, ?_⟩
    simp only [List.length_append, List.length_map, toLE_length, zeros_length, count, length, last]

end Tuple

section Requests

variable {isoError : Str → Option String} {data : Bytes} {schema : Nat} {m : Request}

theorem Request.written_word {n : Nat} (bound : n < 256 ^ 8) (encoded : m.encodeBody isoError = encodeUint64 n)
    (size : Nat) : ∃ body, m.encodeBody isoError = .ok body ∧ body.length ≤ max size 16 := by
  refine ⟨toLE 8 n, encoded.trans (encodeUint64_nat bound), ?_⟩
  rw [toLE_length]
  omega

theorem Request.resent_word {α : Type} {new : Int → Except Exn α} {className : String} {w : α}
    (decoded : decodeWordRequest className new data schema = .ok w) {make : α → Request} {t : RequestType}
    (known : ∀ n : Nat, n < 256 ^ 8 → ∀ w, new n = .ok w → (make w).type = t ∧ (make w).getSchema = 0 ∧
      (make w).encodeBody isoError = encodeUint64 n ∧ (make w).Built) :
    (make w).Resent isoError t schema data := by
  obtain ⟨rfl, n, bound, built⟩ := decodeWordRequest_ok decoded
  obtain ⟨type, versioned, written, kept⟩ := known n bound w built
  exact ⟨type, versioned, Request.written_word bound written _, Or.inl kept⟩

theorem Request.resent_address {α : Type} {new : Int → Str → Except Exn α} {className label : String} {w : α}
    (decoded : decodeNodeAddress className label new data schema = .ok w) {make : α → Request}
    {t : RequestType}
    (known : ∀ (n : Nat) (address : Str) (w : α), new n address = .ok w → (make w).type = t ∧
      (make w).getSchema = 0 ∧ (make w).encodeBody isoError = encodeNodeAddress label n address ∧
      (make w).Built) :
    (make w).Resent isoError t schema data := by
  obtain ⟨rfl, n, address, ⟨bytes, encoded, length⟩, built⟩ := decodeNodeAddress_ok decoded
  obtain ⟨type, versioned, written, kept⟩ := known n address w built
  exact ⟨type, versioned, ⟨bytes, written.trans encoded, length.le.trans (le_max_left _ _)⟩, Or.inl kept⟩

theorem Request.resent_params {α β : Type} {className : String} (encodePrefix : α → Except Exn Bytes)
    {decodePrefix : Bytes → Except Exn (α × Nat)} {new : α → ParamsFields → Except Exn β} {w : β}
    (decoded : ParamsFields.decodeBody className decodePrefix new data schema = .ok w)
    (started : ∀ args offset, decodePrefix data = .ok (args, offset) →
      offset % 8 = 0 ∧ ∃ start, encodePrefix args = .ok start ∧ start.length = offset)
    {make : β → Request} {t : RequestType}
    (known : ∀ (args : α) (fields : ParamsFields) (w : β), new args fields = .ok w → (make w).type = t ∧
      (make w).getSchema = fields.getSchema ∧
      (make w).encodeBody isoError = fields.encodeBody isoError (encodePrefix args) ∧ (make w).Built) :
    (make w).Resent isoError t schema data := by
  obtain ⟨args, offset, params, consumed, first, tuple, whole, built⟩ := ParamsFields.decodeBody_ok decoded
  obtain ⟨type, versioned, written, kept⟩ := known args _ w built
  obtain ⟨aligned, start, begun, length⟩ := started args offset first
  obtain ⟨bytes, encoded, length'⟩ := encodeParamsTuple_of_decode isoError tuple aligned
  refine ⟨type, versioned, ⟨start ++ bytes, ?_, ?_⟩, Or.inl kept⟩
  · rw [written, ParamsFields.encodeBody, begun, ok_bind, length]
    exact (congrArg (· >>= _) encoded).trans rfl
  · rw [List.length_append, length, length', whole]
    exact le_max_left _ _

theorem encodeStatementPrefix_of_decode {dbId stmtId : Nat} {rest : Bytes}
    (first : decodeUint32 data = .ok dbId) (second : decodeUint32 rest = .ok stmtId) :
    ∃ bytes, encodeStatementPrefix dbId stmtId = .ok bytes ∧ bytes.length = 8 := by
  refine ⟨toLE 4 dbId ++ toLE 4 stmtId, ?_, by simp⟩
  rw [encodeStatementPrefix, encodeUint32_nat (decodeUint32_ok first).2.1, ok_bind,
    encodeUint32_nat (decodeUint32_ok second).2.1]
  rfl

theorem Request.resent_open {w : OpenRequest} (decoded : OpenRequest.decodeBody data schema = .ok w) :
    (Request.open w).Resent isoError .open schema data := by
  obtain ⟨_, versioned, tail⟩ := bind_eq_ok.mp decoded
  obtain ⟨⟨name, offset⟩, first, tail⟩ := bind_eq_ok.mp tail
  obtain ⟨flags, word, tail⟩ := bind_eq_ok.mp tail
  obtain ⟨⟨vfs, consumed⟩, second, tail⟩ := bind_eq_ok.mp tail
  obtain ⟨_, whole, built⟩ := bind_eq_ok.mp tail
  obtain ⟨name', written, length⟩ := encodeText_of_decode first "database name"
  obtain ⟨vfs', written', length'⟩ := encodeText_of_decode second "vfs name"
  have whole := requireConsumed_offset whole
  obtain rfl := requireSchema_zero versioned
  obtain ⟨_, _, last⟩ := bind_eq_ok.mp built
  cases last
  refine ⟨rfl, rfl, ⟨name' ++ toLE 8 flags ++ vfs', ?_, ?_⟩, Or.inl built⟩
  · change OpenRequest.encodeBody _ = _
    rw [OpenRequest.encodeBody, written, ok_bind, encodeUint64_nat (decodeWord_ok word).2.1, ok_bind,
      written']
    rfl
  · simp only [List.length_append, toLE_length]
    omega

theorem Request.resent_prepare {w : PrepareRequest}
    (decoded : PrepareRequest.decodeBody data schema = .ok w) :
    (Request.prepare w).Resent isoError .prepare schema data := by
  obtain ⟨_, _, tail⟩ := bind_eq_ok.mp decoded
  obtain ⟨dbId, word, tail⟩ := bind_eq_ok.mp tail
  obtain ⟨⟨sql, consumed⟩, text, tail⟩ := bind_eq_ok.mp tail
  obtain ⟨_, whole, built⟩ := bind_eq_ok.mp tail
  obtain ⟨bytes, written, length⟩ := encodeText_of_decode text "SQL"
  have whole := requireConsumed_offset whole
  obtain ⟨_, _, rest⟩ := bind_eq_ok.mp built
  obtain ⟨_, _, last⟩ := bind_eq_ok.mp rest
  cases last
  refine ⟨rfl, rfl, ⟨toLE 8 dbId ++ bytes, ?_, ?_⟩, Or.inl built⟩
  · change encodeSqlPrefix dbId sql = _
    rw [encodeSqlPrefix, encodeUint64_nat (decodeWord_ok word).2.1, ok_bind, written]
    rfl
  · rw [List.length_append, toLE_length]
    omega

theorem Request.resent_finalize {w : FinalizeRequest}
    (decoded : FinalizeRequest.decodeBody data schema = .ok w) :
    (Request.finalize w).Resent isoError .finalize schema data := by
  obtain ⟨_, versioned, tail⟩ := bind_eq_ok.mp decoded
  obtain ⟨_, _, tail⟩ := bind_eq_ok.mp tail
  obtain ⟨dbId, first, tail⟩ := bind_eq_ok.mp tail
  obtain ⟨stmtId, second, built⟩ := bind_eq_ok.mp tail
  obtain ⟨_, _, rest⟩ := bind_eq_ok.mp built
  obtain ⟨_, _, last⟩ := bind_eq_ok.mp rest
  cases last
  obtain rfl := requireSchema_zero versioned
  obtain ⟨bytes, written, length⟩ := encodeStatementPrefix_of_decode first second
  exact ⟨rfl, rfl, ⟨bytes, written, by omega⟩, Or.inl built⟩

theorem Request.resent_dump {w : DumpRequest} (decoded : DumpRequest.decodeBody data schema = .ok w) :
    (Request.dump w).Resent isoError .dump schema data := by
  obtain ⟨_, versioned, tail⟩ := bind_eq_ok.mp decoded
  obtain ⟨⟨name, consumed⟩, text, tail⟩ := bind_eq_ok.mp tail
  obtain ⟨_, whole, last⟩ := bind_eq_ok.mp tail
  obtain ⟨bytes, written, length⟩ := encodeText_of_decode text "database name"
  have whole := requireConsumed_offset whole
  cases last
  obtain rfl := requireSchema_zero versioned
  exact ⟨rfl, rfl, ⟨bytes, written, by omega⟩, Or.inl trivial⟩

/-- A body of one word is a promotion, and is written with its role. -/
theorem Request.resent_assign {w : AssignRequest} (decoded : AssignRequest.decodeBody data schema = .ok w) :
    (Request.assign w).Resent isoError .assign schema data := by
  obtain ⟨_, versioned, tail⟩ := bind_eq_ok.mp decoded
  obtain rfl := requireSchema_zero versioned
  obtain ⟨n, role, bound, built⟩ : ∃ (n : Nat) (role : NodeRole), n < 256 ^ 8 ∧
      AssignRequest.new n (some (.role role)) = .ok w := by
    split at tail
    · obtain ⟨n, word, built⟩ := bind_eq_ok.mp tail
      exact ⟨n, .voter, (decodeWord_ok word).2.1, built⟩
    · split at tail
      · obtain ⟨raw, _, tail⟩ := bind_eq_ok.mp tail
        split at tail
        · cases tail
        · rename_i role _
          obtain ⟨n, word, built⟩ := bind_eq_ok.mp tail
          exact ⟨n, role, (decodeWord_ok word).2.1, built⟩
      · cases tail
  obtain ⟨_, _, last⟩ := bind_eq_ok.mp built
  cases last
  have small : role.code < 256 ^ 8 := by cases role <;> decide
  have written : AssignRequest.encodeBody ⟨n, some role, false⟩ = .ok (toLE 8 n ++ toLE 8 role.code) := by
    simp only [AssignRequest.encodeBody]
    rw [encodeUint64_nat bound, ok_bind, encodeUint64_nat small]
    rfl
  refine ⟨rfl, rfl, ⟨_, written, ?_⟩, Or.inl ⟨_, built⟩⟩
  rw [List.length_append, toLE_length, toLE_length]
  exact le_max_right _ _

theorem Request.resent_cluster {w : ClusterRequest} (decoded : ClusterRequest.decodeBody data schema = .ok w) :
    (Request.cluster w).Resent isoError .cluster schema data := by
  obtain ⟨_, versioned, tail⟩ := bind_eq_ok.mp decoded
  obtain ⟨_, sized, tail⟩ := bind_eq_ok.mp tail
  obtain ⟨n, word, tail⟩ := bind_eq_ok.mp tail
  obtain ⟨_, _, built⟩ := bind_eq_ok.mp tail
  obtain ⟨_, _, rest⟩ := bind_eq_ok.mp built
  obtain ⟨_, _, rest⟩ := bind_eq_ok.mp rest
  obtain ⟨_, _, last⟩ := bind_eq_ok.mp rest
  cases last
  obtain rfl := requireSchema_zero versioned
  obtain ⟨_, bound, spelt⟩ := decodeWord_ok word
  have length : data.length = 8 := not_not.mp (raiseIf_eq_ok.mp sized)
  rw [List.take_of_length_le length.le] at spelt
  have encoded : (Request.cluster ⟨n, true⟩).encodeBody isoError = encodeUint64 n := by
    simp only [Request.encodeBody, ClusterRequest.encodeBody]
  refine ⟨rfl, rfl, Request.written_word bound encoded _, Or.inr ?_⟩
  rw [encoded, encodeUint64_nat bound, spelt]

theorem Request.resent_describe {w : DescribeRequest}
    (decoded : DescribeRequest.decodeBody data schema = .ok w) :
    (Request.describe w).Resent isoError .describe schema data := by
  obtain ⟨_, versioned, tail⟩ := bind_eq_ok.mp decoded
  obtain ⟨_, _, tail⟩ := bind_eq_ok.mp tail
  obtain ⟨n, word, tail⟩ := bind_eq_ok.mp tail
  obtain rfl := requireSchema_zero versioned
  split at tail
  · cases tail
  · have built := tail
    obtain ⟨_, _, rest⟩ := bind_eq_ok.mp built
    obtain ⟨_, _, last⟩ := bind_eq_ok.mp rest
    cases last
    have encoded : (Request.describe ⟨n, false⟩).encodeBody isoError = encodeUint64 n := by
      simp only [Request.encodeBody, DescribeRequest.encodeBody]
    exact ⟨rfl, rfl, Request.written_word (decodeWord_ok word).2.1 encoded _, Or.inl built⟩

theorem Request.resent {t : RequestType} (listed : t ∈ requestTypes)
    (decoded : decodeRequestBody t data schema = .ok m) : m.Resent isoError t schema data := by
  cases t with
  | heartbeat | connect => simp [requestTypes] at listed
  | leader =>
      obtain ⟨w, body, rfl⟩ := map_eq_ok.mp decoded
      obtain ⟨_, versioned, _⟩ := bind_eq_ok.mp body
      obtain rfl := requireSchema_zero versioned
      exact ⟨rfl, rfl, Request.written_word (n := 0) (by decide) rfl _, Or.inl trivial⟩
  | client | remove | transfer | weight | interrupt =>
      obtain ⟨w, body, rfl⟩ := map_eq_ok.mp decoded
      apply Request.resent_word body
      intro n bound w built
      obtain ⟨_, _, last⟩ := bind_eq_ok.mp built
      cases last
      exact ⟨rfl, rfl, rfl, built⟩
  | add =>
      obtain ⟨w, body, rfl⟩ := map_eq_ok.mp decoded
      apply Request.resent_address body
      intro n address w built
      obtain ⟨_, _, last⟩ := bind_eq_ok.mp built
      cases last
      exact ⟨rfl, rfl, rfl, built⟩
  | «open» =>
      obtain ⟨w, body, rfl⟩ := map_eq_ok.mp decoded
      exact Request.resent_open body
  | prepare =>
      obtain ⟨w, body, rfl⟩ := map_eq_ok.mp decoded
      exact Request.resent_prepare body
  | finalize =>
      obtain ⟨w, body, rfl⟩ := map_eq_ok.mp decoded
      exact Request.resent_finalize body
  | dump =>
      obtain ⟨w, body, rfl⟩ := map_eq_ok.mp decoded
      exact Request.resent_dump body
  | assign =>
      obtain ⟨w, body, rfl⟩ := map_eq_ok.mp decoded
      exact Request.resent_assign body
  | cluster =>
      obtain ⟨w, body, rfl⟩ := map_eq_ok.mp decoded
      exact Request.resent_cluster body
  | describe =>
      obtain ⟨w, body, rfl⟩ := map_eq_ok.mp decoded
      exact Request.resent_describe body
  | exec | query =>
      obtain ⟨w, body, rfl⟩ := map_eq_ok.mp decoded
      apply Request.resent_params (fun ids => encodeStatementPrefix ids.1 ids.2) body
      · intro ids offset first
        obtain ⟨aligned, start, written, rewrites⟩ := decodeStatementPrefix_rewrites first
        exact ⟨aligned, start, written, rewrites.length_eq⟩
      · intro ids fields w built
        obtain ⟨_, _, rest⟩ := bind_eq_ok.mp built
        obtain ⟨_, _, rest⟩ := bind_eq_ok.mp rest
        obtain ⟨_, _, last⟩ := bind_eq_ok.mp rest
        cases last
        exact ⟨rfl, rfl, rfl, built⟩
  | execSql | querySql =>
      obtain ⟨w, body, rfl⟩ := map_eq_ok.mp decoded
      apply Request.resent_params (fun args => encodeSqlPrefix args.1 args.2) body
      · intro args offset first
        obtain ⟨aligned, start, written, rewrites⟩ := decodeSqlPrefix_rewrites first
        exact ⟨aligned, start, written, rewrites.length_eq⟩
      · intro args fields w built
        obtain ⟨_, _, rest⟩ := bind_eq_ok.mp built
        obtain ⟨_, _, last⟩ := bind_eq_ok.mp rest
        cases last
        exact ⟨rfl, rfl, rfl, built⟩

end Requests

/-- A response that was decoded is one its class sends, in no more bytes, and is read as it is by every client
that takes as many rows. -/
structure Response.Resent (isoError : Str → Option String) (config : Config) (t : ResponseType)
    (schema size : Nat) (m : Response) : Prop where
  type : m.type = t
  versioned : m.getSchema = schema
  written : ∃ body, m.encodeBody isoError = .ok body ∧ body.length ≤ size
  conforms : ∀ other : Config, other.isRequest = false → config.maxRows ≤ other.maxRows →
    Conforms other protocolVersion (.response m)
  unchanged : m.read = m

namespace RowsResponse

variable {source : Source} {data view : Bytes} {errors : Handler} {t : ValueType}

theorem normaliseCell_decoded {value : WireValue} {n : Nat}
    (decoded : decodeValue source data t errors = .ok (value, n)) : normaliseCell t (.value value) = value := by
  cases t with
  | integer | float | text | blob | null | unixtime | iso8601 | boolean =>
      obtain ⟨_, _, last⟩ := bind_eq_ok.mp decoded
      cases last
      rfl

theorem normaliseRow_decoded {types : List ValueType} {values : List WireValue} {offset last : Nat}
    (decoded : decodeValues source errors data offset types = .ok (values, last)) :
    normaliseRow types (values.map .value) = values.map .value := by
  induction types generalizing offset values with
  | nil =>
      cases decoded
      rfl
  | cons t types ih =>
      obtain ⟨⟨value, consumed⟩, read, tail⟩ := bind_eq_ok.mp decoded
      obtain ⟨⟨others, after⟩, later, done⟩ := bind_eq_ok.mp tail
      cases done
      have first := normaliseCell_decoded read
      have rest := ih later
      simp only [normaliseRow, List.map_cons, List.zipWith_cons_cons, first] at rest ⊢
      rw [rest]

theorem RowsRead.normalised {count offset : Nat} {allTypes : List (List ValueType)}
    {rows : List (List WireValue)} {marker : RowMarker}
    (read : RowsRead view count errors offset allTypes rows marker) :
    List.zipWith normaliseRow allTypes (rows.map (·.map .value)) = rows.map (·.map .value) := by
  induction read with
  | marker => rfl
  | row header cells rest ih =>
      rw [List.map_cons, List.zipWith_cons_cons, ih, normaliseRow_decoded cells]

theorem normalised_decoded {schema maxRows : Nat} {r : RowsResponse}
    (decoded : decodeBody data schema maxRows errors = .ok r) : r.normalised = r := by
  obtain ⟨_, names, _, allTypes, values, marker, _, _, _, read, _, rfl⟩ := decodeBody_read decoded
  have typed : (RowsResponse.mk names (allTypes.headD []) allTypes (values.map (·.map .value))
      (marker = .part)).wireTypes ([] : List (List ValueType)).length (values.map (·.map .value)) = allTypes :=
    read.wireTypes rfl
  have same := read.normalised
  simp only [normalised, List.length_nil] at typed same ⊢
  rw [typed, same]

end RowsResponse

namespace ServersResponse

variable {data view : Bytes} {policy : UnknownRolePolicy}

/-- The nodes that were read are written again, whatever became of a role that is not known. -/
theorem decodeNodes_written {n offset last : Nat} {known nodes : List NodeInfo}
    (decoded : decodeNodes view policy n offset known = .ok (nodes, last))
    (distinct : (known.map NodeInfo.nodeId).Nodup) :
    (nodes.map NodeInfo.nodeId).Nodup ∧ ∃ entries bytes, nodes = known ++ entries ∧ entries.length = n ∧
      (∀ node ∈ entries, node.nodeId ≠ 0 ∧ node.address ≠ []) ∧ encodeNodes entries = .ok bytes ∧
      last = offset + bytes.length := by
  induction n generalizing offset known with
  | zero =>
      cases decoded
      exact ⟨distinct, [], [], by simp, rfl, by simp, rfl, rfl⟩
  | succ n ih =>
      obtain ⟨id, identified, tail⟩ := bind_eq_ok.mp decoded
      obtain ⟨⟨address, consumed⟩, read, tail⟩ := bind_eq_ok.mp tail
      obtain ⟨_, usable, tail⟩ := bind_eq_ok.mp tail
      obtain ⟨_, single, tail⟩ := bind_eq_ok.mp tail
      obtain ⟨_, _, tail⟩ := bind_eq_ok.mp tail
      obtain ⟨role, _, tail⟩ := bind_eq_ok.mp tail
      obtain ⟨node, built, tail⟩ := bind_eq_ok.mp tail
      obtain ⟨positive, addressed⟩ := not_or.mp (raiseIf_eq_ok.mp usable)
      have fresh := raiseIf_eq_ok.mp single
      have bound := (decodeWord_ok identified).2.1
      obtain ⟨text, named, length⟩ := encodeText_of_decode read "server address"
      rw [NodeInfo.new_role bound positive addressed] at built
      obtain rfl := Except.ok.inj built
      obtain ⟨distinct', entries, bytes, rfl, size, valid, written, rfl⟩ := ih tail (by
        rw [List.map_append, List.nodup_append]
        refine ⟨distinct, by simp, ?_⟩
        rintro other member _ inserted rfl
        simp only [List.map_cons, List.map_nil, List.mem_singleton] at inserted
        exact fresh (inserted ▸ member))
      have small : role.code < 256 ^ 8 := by cases role <;> decide
      refine ⟨distinct', ⟨id, address, role⟩ :: entries, toLE 8 id ++ text ++ toLE 8 role.code ++ bytes,
        by simp, by rw [List.length_cons, size], ?_, ?_, ?_⟩
      · intro node member
        rcases List.mem_cons.mp member with rfl | rest
        · have nonzero : (id : Int) ≠ 0 := by exact_mod_cast positive
          exact ⟨nonzero, addressed⟩
        · exact valid node rest
      · rw [encodeNodes, encodeUint64_nat bound, ok_bind, named, ok_bind, encodeUint64_nat small, ok_bind,
          written]
        rfl
      · simp only [List.length_append, toLE_length, length]
        omega

theorem decodeBody_written {schema : Nat} {m : ServersResponse}
    (decoded : decodeBody data schema policy = .ok m) :
    schema = 0 ∧ (m.nodes.map NodeInfo.nodeId).Nodup ∧ (∀ node ∈ m.nodes, node.nodeId ≠ 0 ∧ node.address ≠ []) ∧
      ∃ bytes, m.encodeBody = .ok bytes ∧ bytes.length = data.length := by
  obtain ⟨_, versioned, tail⟩ := bind_eq_ok.mp decoded
  obtain ⟨count, counted, tail⟩ := bind_eq_ok.mp tail
  obtain ⟨_, capped, tail⟩ := bind_eq_ok.mp tail
  obtain ⟨_, _, tail⟩ := bind_eq_ok.mp tail
  obtain ⟨⟨nodes, offset⟩, read, tail⟩ := bind_eq_ok.mp tail
  obtain ⟨_, finished, last⟩ := bind_eq_ok.mp tail
  cases last
  have few := raiseIf_eq_ok.mp capped
  have finish := not_not.mp (raiseIf_eq_ok.mp finished)
  obtain ⟨distinct, entries, bytes, same, length, valid, written, after⟩ := decodeNodes_written read (by simp)
  rw [List.nil_append] at same
  subst same
  refine ⟨not_not.mp (raiseIf_eq_ok.mp versioned), distinct, valid, toLE 8 count ++ bytes, ?_, ?_⟩
  · rw [encodeBody, length, raiseIf_neg few, ok_bind, encodeUint64_nat (decodeWord_ok counted).2.1, ok_bind,
      written]
    rfl
  · rw [List.length_append, toLE_length, ← finish, after]

end ServersResponse


section Responses

variable {isoError : Str → Option String} {config : Config} {data : Bytes} {schema : Nat}

theorem Response.resent_failure {w : FailureResponse} (decoded : FailureResponse.decodeBody data schema = .ok w) :
    (Response.failure w).Resent isoError config .failure schema data.length := by
  obtain ⟨rfl, n, s, bytes, bound, rfl, written, fits⟩ := FailureResponse.decodeBody_text decoded
  obtain ⟨_, shown, rewritten, shorter⟩ := encodeText_sanitizeServerText written
  have again := sanitizeServerText_eq (sanitizeServerText_displayable s)
  refine ⟨rfl, rfl, ⟨toLE 8 n ++ shown, ?_, ?_⟩, ?_, ?_⟩
  · change FailureResponse.encodeBody _ = _
    rw [FailureResponse.encodeBody, encodeUint64_nat bound, ok_bind, rewritten]
    rfl
  · rw [List.length_append, toLE_length]
    omega
  · exact fun other client _ => ⟨client, FailureResponse.new_ok bound _⟩
  · simp only [Response.read, received, again]

theorem Response.resent_leader {w : LeaderResponse} (decoded : LeaderResponse.decodeBody data schema = .ok w) :
    (Response.leader w).Resent isoError config .leader schema data.length := by
  obtain ⟨_, versioned, tail⟩ := bind_eq_ok.mp decoded
  obtain ⟨_, _, tail⟩ := bind_eq_ok.mp tail
  obtain ⟨n, word, tail⟩ := bind_eq_ok.mp tail
  obtain ⟨⟨address, consumed⟩, text, tail⟩ := bind_eq_ok.mp tail
  obtain ⟨_, finished, tail⟩ := bind_eq_ok.mp tail
  obtain ⟨_, paired, built⟩ := bind_eq_ok.mp tail
  obtain ⟨bytes, written, length⟩ := encodeText_of_decode text "leader address"
  have whole : 8 + consumed = data.length := not_not.mp (raiseIf_eq_ok.mp finished)
  obtain rfl : schema = 0 := not_not.mp (raiseIf_eq_ok.mp versioned)
  have atomic : ¬ ((n : Int) = 0 ∧ address ≠ []) := by
    have held := raiseIf_eq_ok.mp paired
    exact_mod_cast held
  obtain ⟨_, _, last⟩ := bind_eq_ok.mp built
  cases last
  refine ⟨rfl, rfl, ⟨toLE 8 n ++ bytes, ?_, ?_⟩, fun other client _ => ⟨client, rfl, built⟩, rfl⟩
  · change LeaderResponse.encodeBody _ = _
    rw [LeaderResponse.encodeBody, raiseIf_neg atomic, ok_bind, encodeUint64_nat (decodeWord_ok word).2.1,
      ok_bind, written]
    rfl
  · rw [List.length_append, toLE_length]
    omega

theorem Response.resent_welcome {w : WelcomeResponse} (decoded : WelcomeResponse.decodeBody data schema = .ok w) :
    (Response.welcome w).Resent isoError config .welcome schema data.length := by
  obtain ⟨_, versioned, tail⟩ := bind_eq_ok.mp decoded
  obtain ⟨_, sized, tail⟩ := bind_eq_ok.mp tail
  obtain ⟨n, word, built⟩ := bind_eq_ok.mp tail
  obtain rfl : schema = 0 := not_not.mp (raiseIf_eq_ok.mp versioned)
  have length : data.length = 8 := not_not.mp (raiseIf_eq_ok.mp sized)
  obtain ⟨_, _, last⟩ := bind_eq_ok.mp built
  cases last
  refine ⟨rfl, rfl, ⟨toLE 8 n, ?_, ?_⟩, fun other client _ => ⟨client, built⟩, rfl⟩
  · exact encodeUint64_nat (decodeWord_ok word).2.1
  · rw [toLE_length, length]

theorem Response.resent_db {w : DbResponse} (decoded : DbResponse.decodeBody data schema = .ok w) :
    (Response.db w).Resent isoError config .db schema data.length := by
  obtain ⟨_, versioned, tail⟩ := bind_eq_ok.mp decoded
  obtain ⟨_, sized, tail⟩ := bind_eq_ok.mp tail
  obtain ⟨n, word, built⟩ := bind_eq_ok.mp tail
  obtain rfl : schema = 0 := not_not.mp (raiseIf_eq_ok.mp versioned)
  have length : data.length = 8 := not_not.mp (raiseIf_eq_ok.mp sized)
  obtain ⟨_, _, last⟩ := bind_eq_ok.mp built
  cases last
  refine ⟨rfl, rfl, ⟨toLE 4 n ++ toLE 4 0, ?_, ?_⟩, fun other client _ => ⟨client, built⟩, rfl⟩
  · change DbResponse.encodeBody _ = _
    rw [DbResponse.encodeBody, encodeUint32_nat (decodeUint32_ok word).2.1, ok_bind]
    rfl
  · rw [List.length_append, toLE_length, toLE_length, length]

theorem written_words {first second : Nat} (bound : first < 256 ^ 8) (bound' : second < 256 ^ 8) :
    (do
      let a ← encodeUint64 first
      let b ← encodeUint64 second
      return a ++ b) = .ok (toLE 8 first ++ toLE 8 second) := by
  rw [encodeUint64_nat bound, ok_bind, encodeUint64_nat bound', ok_bind]
  rfl

theorem Response.resent_result {w : ResultResponse} (decoded : ResultResponse.decodeBody data schema = .ok w) :
    (Response.result w).Resent isoError config .result schema data.length := by
  obtain ⟨_, versioned, tail⟩ := bind_eq_ok.mp decoded
  obtain ⟨_, sized, tail⟩ := bind_eq_ok.mp tail
  obtain ⟨n, word, tail⟩ := bind_eq_ok.mp tail
  obtain ⟨k, word', tail⟩ := bind_eq_ok.mp tail
  obtain ⟨_, _, built⟩ := bind_eq_ok.mp tail
  obtain rfl : schema = 0 := not_not.mp (raiseIf_eq_ok.mp versioned)
  have length : data.length = 16 := not_not.mp (raiseIf_eq_ok.mp sized)
  obtain ⟨_, _, rest⟩ := bind_eq_ok.mp built
  obtain ⟨_, _, rest⟩ := bind_eq_ok.mp rest
  obtain ⟨_, _, last⟩ := bind_eq_ok.mp rest
  cases last
  refine ⟨rfl, rfl, ⟨toLE 8 n ++ toLE 8 k, ?_, ?_⟩, fun other client _ => ⟨client, built⟩, rfl⟩
  · exact written_words (decodeWord_ok word).2.1 (decodeWord_ok word').2.1
  · rw [List.length_append, toLE_length, toLE_length, length]

theorem Response.resent_metadata {w : MetadataResponse}
    (decoded : MetadataResponse.decodeBody data schema = .ok w) :
    (Response.metadata w).Resent isoError config .metadata schema data.length := by
  obtain ⟨_, versioned, tail⟩ := bind_eq_ok.mp decoded
  obtain ⟨_, sized, tail⟩ := bind_eq_ok.mp tail
  obtain ⟨n, word, tail⟩ := bind_eq_ok.mp tail
  obtain ⟨k, word', built⟩ := bind_eq_ok.mp tail
  obtain rfl : schema = 0 := not_not.mp (raiseIf_eq_ok.mp versioned)
  have length : data.length = 16 := not_not.mp (raiseIf_eq_ok.mp sized)
  obtain ⟨_, _, rest⟩ := bind_eq_ok.mp built
  obtain ⟨_, _, last⟩ := bind_eq_ok.mp rest
  cases last
  refine ⟨rfl, rfl, ⟨toLE 8 n ++ toLE 8 k, ?_, ?_⟩, fun other client _ => ⟨client, built⟩, rfl⟩
  · exact written_words (decodeWord_ok word).2.1 (decodeWord_ok word').2.1
  · rw [List.length_append, toLE_length, toLE_length, length]

theorem Response.resent_empty {w : EmptyResponse} (decoded : EmptyResponse.decodeBody data schema = .ok w) :
    (Response.empty w).Resent isoError config .empty schema data.length := by
  obtain ⟨_, versioned, tail⟩ := bind_eq_ok.mp decoded
  obtain ⟨_, sized, _⟩ := bind_eq_ok.mp tail
  obtain rfl : schema = 0 := not_not.mp (raiseIf_eq_ok.mp versioned)
  have length : data.length = 8 := not_not.mp (raiseIf_eq_ok.mp sized)
  refine ⟨rfl, rfl, ⟨toLE 8 0, rfl, ?_⟩, fun other client _ => ⟨client, trivial⟩, rfl⟩
  rw [toLE_length, length]

theorem Response.resent_stmt {w : StmtResponse} (decoded : StmtResponse.decodeBody data schema = .ok w) :
    (Response.stmt w).Resent isoError config .stmt schema data.length := by
  obtain ⟨_, versioned, tail⟩ := bind_eq_ok.mp decoded
  obtain ⟨_, sized, tail⟩ := bind_eq_ok.mp tail
  obtain ⟨db, first, tail⟩ := bind_eq_ok.mp tail
  obtain ⟨stmt, second, tail⟩ := bind_eq_ok.mp tail
  obtain ⟨params, third, tail⟩ := bind_eq_ok.mp tail
  obtain ⟨_, capped, tail⟩ := bind_eq_ok.mp tail
  have small : ¬ (maxParamCount : Int) < params := by exact_mod_cast raiseIf_eq_ok.mp capped
  have bound := (decodeUint32_ok first).2.1
  have bound' := (decodeUint32_ok second).2.1
  have bound'' := (decodeWord_ok third).2.1
  by_cases one : schema = 1
  · subst one
    have length : data.length = 24 := not_not.mp (raiseIf_eq_ok.mp sized)
    rw [if_pos rfl] at tail
    obtain ⟨offset, fourth, tail⟩ := bind_eq_ok.mp tail
    obtain ⟨_, limited, built⟩ := bind_eq_ok.mp tail
    have within : ¬ (maxTailOffset : Int) < offset := by exact_mod_cast raiseIf_eq_ok.mp limited
    have word := (decodeWord_ok fourth).2.1
    obtain ⟨valid, _⟩ := StmtResponse.new_ok built
    have same := StmtResponse.new_schema1 valid (validateUint64_ok word _) within
    obtain rfl := Except.ok.inj (same.symm.trans built)
    refine ⟨rfl, rfl, ⟨toLE 4 db ++ toLE 4 stmt ++ toLE 8 params ++ toLE 8 offset, ?_, ?_⟩,
      fun other client _ => ⟨client, _, _, same⟩, rfl⟩
    · change StmtResponse.encodeBody _ = _
      rw [StmtResponse.encodeBody, raiseIf_neg small, ok_bind, encodeUint32_nat bound, ok_bind,
        encodeUint32_nat bound', ok_bind, encodeUint64_nat bound'', ok_bind]
      simp only [StmtResponse.getSchema, if_true, Option.getD_some]
      rw [raiseIf_neg within, ok_bind, encodeUint64_nat word]
      rfl
    · simp only [List.length_append, toLE_length]
      omega
  · obtain rfl : schema = 0 := by
      have known := raiseIf_eq_ok.mp versioned
      omega
    have length : data.length = 16 := not_not.mp (raiseIf_eq_ok.mp sized)
    rw [if_neg one] at tail
    obtain ⟨valid, _⟩ := StmtResponse.new_ok tail
    have same := StmtResponse.new_schema0 valid
    obtain rfl := Except.ok.inj (same.symm.trans tail)
    refine ⟨rfl, rfl, ⟨toLE 4 db ++ toLE 4 stmt ++ toLE 8 params, ?_, ?_⟩,
      fun other client _ => ⟨client, _, _, same⟩, rfl⟩
    · change StmtResponse.encodeBody _ = _
      rw [StmtResponse.encodeBody, raiseIf_neg small, ok_bind, encodeUint32_nat bound, ok_bind,
        encodeUint32_nat bound', ok_bind, encodeUint64_nat bound'', ok_bind]
      rfl
    · simp only [List.length_append, toLE_length]
      omega

theorem Response.resent_files {w : FilesResponse} (decoded : FilesResponse.decodeBody data schema = .ok w) :
    (Response.files w).Resent isoError config .files schema data.length := by
  obtain ⟨_, versioned, _⟩ := bind_eq_ok.mp decoded
  obtain rfl : schema = 0 := not_not.mp (raiseIf_eq_ok.mp versioned)
  obtain ⟨_, bytes, written, rewrites⟩ := FilesResponse.decodeBody_rewrites decoded
  exact ⟨rfl, rfl, ⟨bytes, written, rewrites.length_eq.le⟩, fun other client _ => client, rfl⟩

theorem Response.resent_servers {policy : UnknownRolePolicy} {w : ServersResponse}
    (decoded : ServersResponse.decodeBody data schema policy = .ok w) :
    (Response.servers w).Resent isoError config .servers schema data.length := by
  obtain ⟨rfl, distinct, valid, bytes, written, length⟩ := ServersResponse.decodeBody_written decoded
  exact ⟨rfl, rfl, ⟨bytes, written, length.le⟩, fun other client _ => ⟨client, valid, distinct⟩, rfl⟩

theorem Response.resent_rows {w : RowsResponse}
    (decoded : RowsResponse.decodeBody data schema config.maxRows .strict = .ok w)
    (iso : w.IsoChecked isoError) : (Response.rows w).Resent isoError config .rows schema data.length := by
  obtain ⟨_, versioned, _⟩ := bind_eq_ok.mp decoded
  obtain rfl : schema = 0 := not_not.mp (raiseIf_eq_ok.mp versioned)
  obtain ⟨bytes, written, rewrites⟩ := RowsResponse.decodeBody_rewrites decoded iso
  have few := (RowsResponse.decodeBody_facts decoded config.rows_positive).1
  refine ⟨rfl, rfl, ⟨bytes, written, rewrites.length_eq.le⟩, ?_, ?_⟩
  · exact fun other client wide => ⟨client, lt_of_lt_of_le few wide⟩
  · exact congrArg Response.rows (RowsResponse.normalised_decoded decoded)

theorem Response.resent {t : ResponseType} {m : Response}
    (decoded : decodeResponseBody config (some protocolVersion) t data schema = .ok m)
    (strict : config.textErrors = .strict) (iso : ∀ r, m = .rows r → r.IsoChecked isoError) :
    m.Resent isoError config t schema data.length := by
  cases t with
  | failure =>
      obtain ⟨w, body, rfl⟩ := map_eq_ok.mp decoded
      exact Response.resent_failure body
  | leader =>
      obtain ⟨w, body, rfl⟩ := map_eq_ok.mp decoded
      exact Response.resent_leader body
  | welcome =>
      obtain ⟨w, body, rfl⟩ := map_eq_ok.mp decoded
      exact Response.resent_welcome body
  | servers =>
      obtain ⟨w, body, rfl⟩ := map_eq_ok.mp decoded
      exact Response.resent_servers body
  | db =>
      obtain ⟨w, body, rfl⟩ := map_eq_ok.mp decoded
      exact Response.resent_db body
  | stmt =>
      obtain ⟨w, body, rfl⟩ := map_eq_ok.mp decoded
      exact Response.resent_stmt body
  | result =>
      obtain ⟨w, body, rfl⟩ := map_eq_ok.mp decoded
      exact Response.resent_result body
  | rows =>
      obtain ⟨w, body, rfl⟩ := map_eq_ok.mp decoded
      rw [strict] at body
      exact Response.resent_rows body (iso w rfl)
  | empty =>
      obtain ⟨w, body, rfl⟩ := map_eq_ok.mp decoded
      exact Response.resent_empty body
  | files =>
      obtain ⟨w, body, rfl⟩ := map_eq_ok.mp decoded
      exact Response.resent_files body
  | metadata =>
      obtain ⟨w, body, rfl⟩ := map_eq_ok.mp decoded
      exact Response.resent_metadata body

end Responses

/-- What a comparison sees of a message: the private flags of a request are left out of it. -/
def Message.compared : Message → Message
  | .request m => .request m.compared
  | .response m => .response m

section Frames

variable {isoError : Str → Option String} {config : Config} {version : Option Nat}

theorem decodeBody_ok_request {header : Header} {body : Bytes} {m : Request}
    (decoded : MessageDecoder.decodeBody config version header body = .ok (.request m)) :
    config.isRequest = true ∧ ∃ t ∈ requestTypes, checkSchema true header = .ok () ∧
      header.msgType = t.code ∧ decodeRequestBody t body header.schema = .ok m := by
  unfold MessageDecoder.decodeBody at decoded
  simp only at decoded
  split at decoded
  · rename_i request
    split at decoded
    · cases decoded
    · rename_i t found
      obtain ⟨_, schema, rest⟩ := bind_eq_ok.mp decoded
      obtain ⟨_, body, same⟩ := map_eq_ok.mp rest
      cases same
      have code := List.find?_some found
      exact ⟨request, t, List.mem_of_find?_eq_some found, schema, (of_decide_eq_true code).symm, body⟩
  · split at decoded
    · cases decoded
    · obtain ⟨_, _, rest⟩ := bind_eq_ok.mp decoded
      obtain ⟨_, _, same⟩ := map_eq_ok.mp rest
      cases same

theorem encodeMessage_of_body {m : Message} {body : Bytes} {schema cap : Nat}
    (written : m.encodeBody isoError = .ok body) (versioned : m.getSchema = schema) (small : schema < 256)
    (countable : body.length / 8 < 2 ^ 32) (room : 8 + body.length ≤ cap) :
    ∃ f, encodeMessage isoError m cap = .ok f ∧ f.length = 8 + body.length := by
  have aligned := Message.encodeBody_words isoError m body written
  have framed : encodeFrame m.className m.typeCode schema (.ok body) =
      .ok (Header.encode ⟨body.length / 8, m.typeCode, schema, 0⟩ ++ body) := by
    rw [encodeFrame_eq aligned m.typeCode_lt small, if_pos countable]
  have encoded : m.encode isoError = .ok (Header.encode ⟨body.length / 8, m.typeCode, schema, 0⟩ ++ body) := by
    rw [Message.encode, written, versioned]
    exact framed
  have length : (Header.encode ⟨body.length / 8, m.typeCode, schema, 0⟩ ++ body).length = 8 + body.length := by
    rw [List.length_append, Header.encode_length, headerSize]
  refine ⟨_, ?_, length⟩
  rw [encodeMessage, MessageEncoder.encode, encoded, ok_bind, raiseIf_neg (by omega)]
  rfl

theorem countable_of_frame {cap : Nat} {f body : Bytes} (legal : wire.IsFrame cap f)
    (fits : body.length ≤ max (frameBody f).length 16) :
    body.length / 8 < 2 ^ 32 ∧ 8 + body.length ≤ max f.length 24 := by
  have size := bodySize_eq legal
  have long := legal.header_le
  have words : fromLE (f.take 4) < 256 ^ 4 := by
    have bound := fromLE_lt (f.take 4)
    have four : (f.take 4).length = 4 := by
      have header : 8 ≤ f.length := long
      rw [List.length_take]
      omega
    rw [four] at bound
    exact bound
  have body_ : (frameBody f).length = f.length - 8 := by rw [frameBody, List.length_drop, headerSize]
  have whole : 8 + fromLE (f.take 4) * 8 = f.length := size
  have power : (256 : Nat) ^ 4 = 4294967296 := by norm_num
  have power' : (2 : Nat) ^ 32 = 4294967296 := by norm_num
  omega

end Frames

/-- A relay decodes what it receives and encodes it again. Under strict text decoding it can, in a frame that
is not longer, or of three words; and the next reader of the modern version takes it for the message received. -/
theorem relay_faithful (isoError : Str → Option String) (config other : Config)
    (direction : other.isRequest = config.isRequest) (strict : config.textErrors = .strict)
    (wide : config.maxRows ≤ other.maxRows) (f : Bytes) (m : Message)
    (decoded : decodeFrame config (some protocolVersion) f = .ok m)
    (iso : ∀ r, m = .response (.rows r) → r.IsoChecked isoError)
    (cap : Nat) (room : max f.length 24 ≤ cap) (within : cap ≤ other.maxMessageSize) :
    ∃ f' m', encodeMessage isoError m cap = .ok f' ∧ f'.length ≤ max f.length 24 ∧
      decodeFrame other (some protocolVersion) f' = .ok m' ∧ m'.compared = m.compared := by
  have legal := decodeFrame_ok decoded
  have version : (frameHeader f).schema < 256 := (f.getD 5 0).toNat_lt
  rw [decodeFrame_eq legal] at decoded
  cases m with
  | request m =>
      obtain ⟨request, t, listed, checked, code, body⟩ := decodeBody_ok_request decoded
      have resent : m.Resent isoError t (frameHeader f).schema (frameBody f) := Request.resent listed body
      obtain ⟨type, versioned, ⟨bytes, written, fits⟩, kept⟩ := resent
      obtain ⟨countable, short⟩ := countable_of_frame legal fits
      obtain ⟨f', sent, length⟩ := encodeMessage_of_body (m := .request m) written versioned version countable
        (short.trans room)
      obtain ⟨frame, small⟩ := encodeMessage_ok sent
      have supported : (frameHeader f).schema ≤ maxSchema true m.type.code := by
        have held := not_lt.mp (raiseIf_eq_ok.mp checked)
        rw [code] at held
        rw [type]
        exact held
      obtain ⟨again, rewritten, read⟩ := decodeFrame_encode_request frame versioned (type ▸ listed) supported
      obtain rfl := Except.ok.inj (written.symm.trans rewritten)
      rcases kept with built | same
      · obtain ⟨m', back, equal⟩ := Request.decodeBody_encode built versioned written
        refine ⟨f', .request m', sent, by omega, ?_, congrArg Message.request equal⟩
        rw [read other _ (direction.trans request) (small.trans within), back]
        rfl
      · obtain rfl := Except.ok.inj (written.symm.trans same)
        refine ⟨f', .request m, sent, by omega, ?_, rfl⟩
        rw [read other _ (direction.trans request) (small.trans within), type, body]
        rfl
  | response m =>
      obtain ⟨response, _, _, body⟩ := decodeBody_ok_response decoded
      have resent : m.Resent isoError config m.type (frameHeader f).schema (frameBody f).length :=
        Response.resent body strict fun r same => iso r (congrArg Message.response same)
      obtain ⟨_, versioned, ⟨bytes, written, fits⟩, conforms, unchanged⟩ := resent
      obtain ⟨countable, short⟩ := countable_of_frame legal (fits.trans (le_max_left _ _))
      obtain ⟨f', sent, length⟩ := encodeMessage_of_body (m := .response m) written versioned version countable
        (short.trans room)
      obtain ⟨m', back, read, _⟩ := (conforms other (direction.trans response) wide).read_back sent within
      cases back with
      | response =>
          rw [unchanged] at read
          exact ⟨f', .response m, sent, by omega, read, rfl⟩

theorem relay_faithful_promotion :
    ∃ f' m', encodeMessage (fun _ => none) (.request (.assign ⟨7, some .voter, false⟩)) 64 = .ok f' ∧
      f'.length ≤ 24 ∧ decodeFrame (.default true) (some protocolVersion) f' = .ok m' ∧
      m'.compared = .request (.assign ⟨7, some .voter, false⟩) :=
  relay_faithful (fun _ => none) (.default true) (.default true) rfl rfl le_rfl
    [1, 0, 0, 0, 13, 0, 0, 0, 7, 0, 0, 0, 0, 0, 0, 0] (.request (.assign ⟨7, some .voter, false⟩))
    (by decide +kernel) (fun _ same => by cases same) 64 (by decide) (by decide)

def Message.heard : Message → Message
  | .request m => .request m.compared
  | .response m => .response m.read

section Streams

variable {config : Config} {version : Nat}

theorem heard_of_read {sent received : List Message} (read : List.Forall₂ ReadAs sent received) :
    sent.map Message.heard = received.map Message.compared := by
  induction read with
  | nil => rfl
  | cons one _ ih =>
      cases one with
      | request m m' same => simp only [List.map_cons, Message.heard, Message.compared, same, ih]
      | response m => simp only [List.map_cons, Message.heard, Message.compared, ih]

theorem held_in_order {frames frames' : List Bytes} {received received' : List Message}
    (hold : List.Forall₂ (Holds config version) frames received)
    (hold' : List.Forall₂ (Holds config version) frames' received') (before : frames <+: frames') :
    received <+: received' := by
  induction hold generalizing frames' received' with
  | nil => exact List.nil_prefix
  | @cons f m frames received one _ ih =>
      cases hold' with
      | nil => cases List.prefix_nil.mp before
      | @cons f' m' later received' one' others =>
          obtain ⟨rfl, rest⟩ := List.cons_prefix_cons.mp before
          obtain rfl : m = m' := Except.ok.inj (one.1.symm.trans one'.1)
          exact List.cons_prefix_cons.mpr ⟨rfl, ih others rest⟩

end Streams

/-- Two conversations that a receiver takes. Where the bytes of the one begin with the bytes of the other,
so do the messages the receiver hears: no boundary, no type and no field can be read in two ways. -/
theorem wire_unambiguous (isoError : Str → Option String) (config : Config) (version cap cap' : Nat)
    (within : cap ≤ config.maxMessageSize) (within' : cap' ≤ config.maxMessageSize)
    (sent sent' : List Message) (frames frames' : List Bytes)
    (conforming : ∀ m ∈ sent, Conforms config version m)
    (conforming' : ∀ m ∈ sent', Conforms config version m)
    (encoded : List.Forall₂ (fun m f => encodeMessage isoError m cap = .ok f) sent frames)
    (encoded' : List.Forall₂ (fun m f => encodeMessage isoError m cap' = .ok f) sent' frames')
    (before : frames.flatten <+: frames'.flatten) :
    sent.map Message.heard <+: sent'.map Message.heard := by
  obtain ⟨received, read, hold⟩ := sent_read_back within encoded conforming
  obtain ⟨received', read', hold'⟩ := sent_read_back within' encoded' conforming'
  have first : frames <+: frames' := by
    have whole : frames.flatten ++ [] <+: frames'.flatten := by rwa [List.append_nil]
    have taken := wire.frames_prefix_cut config.maxMessageSize (legal_of_hold hold) [] whole
    rwa [wire.cut_flatten _ frames' (legal_of_hold hold')] at taken
  rw [heard_of_read read, heard_of_read read']
  exact (held_in_order hold hold' first).map _

theorem wire_unambiguous_interrupt :
    [Message.request (.interrupt ⟨1⟩)].map Message.heard <+:
      [Message.request (.interrupt ⟨1⟩), Message.request (.leader ⟨⟩)].map Message.heard :=
  wire_unambiguous (fun _ => none) (.default true) protocolVersion 64 64 (by decide) (by decide) _ _
    [[1, 0, 0, 0, 10, 0, 0, 0] ++ [1, 0, 0, 0, 0, 0, 0, 0]]
    [[1, 0, 0, 0, 10, 0, 0, 0] ++ [1, 0, 0, 0, 0, 0, 0, 0], [1, 0, 0, 0, 0, 0, 0, 0] ++ zeros 8]
    (by simp [Conforms, Config.default, Request.Built]; decide)
    (by simp [Conforms, Config.default, Request.Built]; decide)
    (.cons (by decide +kernel) .nil) (.cons (by decide +kernel) (.cons (by decide +kernel) .nil))
    (by decide)

end DqliteWire
