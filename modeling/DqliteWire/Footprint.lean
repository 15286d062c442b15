import DqliteWire.Lib.Utf8Parts
import DqliteWire.Relay

/-! What a decoder builds. Every character, byte and list entry of a message is paid for by the bytes it was
read from, so a peer cannot make a decoder hold more than a fixed multiple of what it sends. -/

namespace DqliteWire

open WireLib WireLib.Utf8 MessageDecoder

def WireValue.footprint : WireValue → Nat
  | .str s => 1 + s.length
  | .bytes content => 1 + content.length
  | _ => 1

def WireInput.footprint : WireInput → Nat
  | .value v => v.footprint
  | .bytearray content => 1 + content.length
  | .memoryview view => 1 + view.raw.length
  | .mmap map => 1 + map.raw.length

def footprints (values : List WireInput) : Nat := (values.map WireInput.footprint).sum

def Request.footprint : Request → Nat
  | .open m => m.name.length + m.vfs.length
  | .prepare m => m.sql.length
  | .exec m => footprints m.params
  | .query m => footprints m.params
  | .execSql m => m.sql.length + footprints m.params
  | .querySql m => m.sql.length + footprints m.params
  | .connect m => m.address.length
  | .add m => m.address.length
  | .dump m => m.name.length
  | _ => 0

def Response.footprint : Response → Nat
  | .failure m => m.message.length
  | .leader m => m.address.length
  | .servers m => (m.nodes.map fun node => 1 + node.address.length).sum
  | .rows m => (m.columnNames.map fun name => 1 + name.length).sum +
      (m.rows.map fun row => 1 + footprints row).sum
  | .files m => (m.files.map fun file => 1 + file.1.length + file.2.length).sum
  | _ => 0

def Message.footprint : Message → Nat
  | .request m => m.footprint
  | .response m => m.footprint

section Fields

variable {source : Source} {data : Bytes} {errors : Handler} {n : Nat}

theorem decodeText_footprint {cap : Nat} {label : String} {s : Str}
    (decoded : decodeText source data cap label errors = .ok (s, n)) :
    1 + s.length ≤ errors.growth * n ∧ n ≤ data.length := by
  rcases decodeText_cases source data cap label with ⟨utf8, rest, _, _, _, read⟩ | ⟨_, failed⟩
  · rw [read] at decoded
    obtain ⟨text, utf8Decoded, finished⟩ := bind_eq_ok.mp decoded
    obtain ⟨_, room, last⟩ := bind_eq_ok.mp finished
    cases last
    have enough := not_lt.mp (raiseIf_eq_ok.mp room)
    refine ⟨?_, enough⟩
    have short : s.length ≤ errors.growth * utf8.length := by
      unfold decodeUtf8 bytesDecode at utf8Decoded
      cases result : Utf8.decode errors utf8 with
      | ok other =>
          rw [result] at utf8Decoded
          cases utf8Decoded
          exact decode_length result
      | error fault =>
          rw [result] at utf8Decoded
          cases fault <;> cases utf8Decoded
    have positive := errors.growth_pos
    rw [Nat.mul_add, Nat.mul_add, mul_one]
    omega
  · obtain ⟨_, raised⟩ := failed errors
    rw [raised] at decoded
    cases decoded

theorem decodeText_length {cap : Nat} {label : String} {s : Str}
    (decoded : decodeText source data cap label = .ok (s, n)) : 1 + s.length ≤ n ∧ n ≤ data.length := by
  have paid := decodeText_footprint decoded
  rwa [show Handler.strict.growth = 1 from rfl, one_mul] at paid

theorem decodeBlob_footprint {content : Bytes} (decoded : decodeBlob data = .ok (content, n)) :
    1 + content.length ≤ n ∧ n ≤ data.length := by
  obtain ⟨_, _, tail⟩ := bind_eq_ok.mp decoded
  obtain ⟨length, _, tail⟩ := bind_eq_ok.mp tail
  obtain ⟨_, _, tail⟩ := bind_eq_ok.mp tail
  obtain ⟨_, room, last⟩ := bind_eq_ok.mp tail
  cases last
  refine ⟨?_, not_lt.mp (raiseIf_eq_ok.mp room)⟩
  rw [List.length_take]
  omega

theorem decodeValue_footprint {t : ValueType} {v : WireValue}
    (decoded : decodeValue source data t errors = .ok (v, n)) :
    v.footprint ≤ errors.growth * n ∧ n ≤ data.length := by
  have positive := errors.growth_pos
  have word : 1 ≤ errors.growth * 8 := by omega
  cases t with
  | integer | unixtime | float =>
      obtain ⟨_, read, last⟩ := bind_eq_ok.mp decoded
      obtain ⟨_, read, _⟩ := bind_eq_ok.mp read
      cases last
      exact ⟨word, (decodeWord_ok read).1⟩
  | null | boolean =>
      obtain ⟨_, read, last⟩ := bind_eq_ok.mp decoded
      cases last
      exact ⟨word, (decodeWord_ok read).1⟩
  | text | iso8601 =>
      obtain ⟨⟨s, consumed⟩, read, last⟩ := bind_eq_ok.mp decoded
      cases last
      exact decodeText_footprint read
  | blob =>
      obtain ⟨⟨content, consumed⟩, read, last⟩ := bind_eq_ok.mp decoded
      cases last
      obtain ⟨small, room⟩ := decodeBlob_footprint read
      exact ⟨small.trans (Nat.le_mul_of_pos_left _ positive), room⟩

theorem decodeValues_footprint {types : List ValueType} {values : List WireValue} {offset last : Nat}
    (decoded : decodeValues source errors data offset types = .ok (values, last)) :
    footprints (values.map .value) + errors.growth * offset ≤ errors.growth * last ∧
      (offset ≤ data.length → last ≤ data.length) := by
  induction types generalizing offset values with
  | nil =>
      cases decoded
      exact ⟨by simp [footprints], id⟩
  | cons t types ih =>
      obtain ⟨⟨v, consumed⟩, one, tail⟩ := bind_eq_ok.mp decoded
      obtain ⟨⟨later, last⟩, others, same⟩ := bind_eq_ok.mp tail
      cases same
      obtain ⟨first, room⟩ := decodeValue_footprint one
      obtain ⟨paid, within⟩ := ih others
      rw [List.length_drop] at room
      refine ⟨?_, fun inside => within (by omega)⟩
      rw [Nat.mul_add] at paid
      simp only [footprints, List.map_cons, List.sum_cons, WireInput.footprint] at paid ⊢
      omega

theorem decodeParamsTuple_footprint {schema offset consumed : Nat} {params : List WireValue}
    (decoded : decodeParamsTuple source data none schema offset = .ok (params, consumed)) :
    footprints (params.map .value) ≤ consumed := by
  obtain ⟨_, ⟨_, rfl, _⟩ | ⟨_, _, rfl, _⟩ | ⟨_, _, body⟩⟩ := decodeParamsTuple_cases decoded
  · exact Nat.zero_le _
  · exact Nat.zero_le _
  · obtain ⟨_, _, types, _, _, _, values⟩ := decodeParamsBody_ok body
    have paid := (decodeValues_footprint values).1
    rw [show Handler.strict.growth = 1 from rfl, one_mul, one_mul] at paid
    omega

end Fields

section Requests

variable {data : Bytes} {schema : Nat}

theorem decodeSqlPrefix_footprint {args : Int × Str} {offset : Nat}
    (decoded : decodeSqlPrefix data = .ok (args, offset)) : args.2.length ≤ offset := by
  obtain ⟨_, _, tail⟩ := bind_eq_ok.mp decoded
  obtain ⟨⟨sql, consumed⟩, text, last⟩ := bind_eq_ok.mp tail
  cases last
  have short := (decodeText_length text).1
  simp only
  omega

theorem decodeNodeAddress_footprint {α : Type} {new : Int → Str → Except Exn α} {className label : String}
    {m : α} (decoded : decodeNodeAddress className label new data schema = .ok m) {address : α → Str}
    (held : ∀ (n : Nat) (s : Str), new n s = .ok m → address m = s) : (address m).length ≤ data.length := by
  obtain ⟨_, _, tail⟩ := bind_eq_ok.mp decoded
  obtain ⟨n, _, tail⟩ := bind_eq_ok.mp tail
  obtain ⟨⟨s, consumed⟩, text, tail⟩ := bind_eq_ok.mp tail
  obtain ⟨_, whole, built⟩ := bind_eq_ok.mp tail
  have short := (decodeText_length text).1
  have covered := requireConsumed_offset whole
  rw [held n s built]
  omega

theorem ParamsFields.decodeBody_footprint {α β : Type} {className : String}
    {decodePrefix : Bytes → Except Exn (α × Nat)} {new : α → ParamsFields → Except Exn β} {m : β}
    (decoded : ParamsFields.decodeBody className decodePrefix new data schema = .ok m) :
    ∃ args offset fields, decodePrefix data = .ok (args, offset) ∧ new args fields = .ok m ∧
      offset + footprints fields.params ≤ data.length := by
  obtain ⟨args, offset, params, consumed, first, tuple, whole, built⟩ := ParamsFields.decodeBody_ok decoded
  have paid := decodeParamsTuple_footprint tuple
  refine ⟨args, offset, _, first, built, ?_⟩
  simp only
  omega

theorem decodeRequestBody_footprint {t : RequestType} {m : Request}
    (decoded : decodeRequestBody t data schema = .ok m) : m.footprint ≤ data.length := by
  cases t with
  | leader | client | heartbeat | finalize | interrupt | assign | remove | cluster | transfer | describe
  | weight =>
      obtain ⟨_, _, rfl⟩ := map_eq_ok.mp decoded
      exact Nat.zero_le _
  | «open» =>
      obtain ⟨m, body, rfl⟩ := map_eq_ok.mp decoded
      obtain ⟨_, _, tail⟩ := bind_eq_ok.mp body
      obtain ⟨⟨name, offset⟩, first, tail⟩ := bind_eq_ok.mp tail
      obtain ⟨flags, _, tail⟩ := bind_eq_ok.mp tail
      obtain ⟨⟨vfs, consumed⟩, second, tail⟩ := bind_eq_ok.mp tail
      obtain ⟨_, whole, built⟩ := bind_eq_ok.mp tail
      obtain ⟨_, _, last⟩ := bind_eq_ok.mp built
      cases last
      have named := (decodeText_length first).1
      have placed := (decodeText_length second).1
      have covered := requireConsumed_offset whole
      simp only [Request.footprint]
      omega
  | prepare =>
      obtain ⟨m, body, rfl⟩ := map_eq_ok.mp decoded
      obtain ⟨_, _, tail⟩ := bind_eq_ok.mp body
      obtain ⟨dbId, _, tail⟩ := bind_eq_ok.mp tail
      obtain ⟨⟨sql, consumed⟩, text, tail⟩ := bind_eq_ok.mp tail
      obtain ⟨_, whole, built⟩ := bind_eq_ok.mp tail
      obtain ⟨_, _, rest⟩ := bind_eq_ok.mp built
      obtain ⟨_, _, last⟩ := bind_eq_ok.mp rest
      cases last
      have short := (decodeText_length text).1
      have covered := requireConsumed_offset whole
      simp only [Request.footprint]
      omega
  | dump =>
      obtain ⟨m, body, rfl⟩ := map_eq_ok.mp decoded
      obtain ⟨_, _, tail⟩ := bind_eq_ok.mp body
      obtain ⟨⟨name, consumed⟩, text, tail⟩ := bind_eq_ok.mp tail
      obtain ⟨_, _, last⟩ := bind_eq_ok.mp tail
      cases last
      obtain ⟨short, room⟩ := decodeText_length text
      simp only [Request.footprint]
      omega
  | connect | add =>
      obtain ⟨m, body, rfl⟩ := map_eq_ok.mp decoded
      apply decodeNodeAddress_footprint body
      intro n s built
      obtain ⟨_, _, last⟩ := bind_eq_ok.mp built
      cases last
      rfl
  | exec | query =>
      obtain ⟨m, body, rfl⟩ := map_eq_ok.mp decoded
      obtain ⟨_, offset, fields, _, built, paid⟩ := ParamsFields.decodeBody_footprint body
      obtain ⟨_, _, rest⟩ := bind_eq_ok.mp built
      obtain ⟨_, _, rest⟩ := bind_eq_ok.mp rest
      obtain ⟨_, _, last⟩ := bind_eq_ok.mp rest
      cases last
      exact (Nat.le_add_left _ offset).trans paid
  | execSql | querySql =>
      obtain ⟨m, body, rfl⟩ := map_eq_ok.mp decoded
      obtain ⟨args, offset, fields, first, built, paid⟩ := ParamsFields.decodeBody_footprint body
      obtain ⟨_, _, rest⟩ := bind_eq_ok.mp built
      obtain ⟨_, _, last⟩ := bind_eq_ok.mp rest
      cases last
      exact (Nat.add_le_add_right (decodeSqlPrefix_footprint first) _).trans paid

end Requests

section Responses

variable {data : Bytes} {schema : Nat}

theorem FailureResponse.decodeBody_footprint {m : FailureResponse}
    (decoded : FailureResponse.decodeBody data schema = .ok m) : m.message.length ≤ data.length := by
  obtain ⟨_, n, s, bytes, _, rfl, written, room⟩ := FailureResponse.decodeBody_text decoded
  obtain ⟨utf8, valid, _, _, length⟩ := encodeText_parts written
  have short := decode_length (Utf8.decode_encode .strict s utf8 valid)
  rw [show Handler.strict.growth = 1 from rfl, one_mul] at short
  have padded : utf8.length ≤ paddedLength utf8.length := by
    unfold paddedLength
    omega
  simp only [sanitizeServerText_length]
  omega

theorem LeaderResponse.decodeBody_footprint {m : LeaderResponse}
    (decoded : LeaderResponse.decodeBody data schema = .ok m ∨ LeaderResponse.decodeBodyLegacy data = .ok m) :
    m.address.length ≤ data.length := by
  rcases decoded with modern | legacy
  · obtain ⟨_, _, tail⟩ := bind_eq_ok.mp modern
    obtain ⟨_, _, tail⟩ := bind_eq_ok.mp tail
    obtain ⟨n, _, tail⟩ := bind_eq_ok.mp tail
    obtain ⟨⟨address, consumed⟩, text, tail⟩ := bind_eq_ok.mp tail
    obtain ⟨_, _, tail⟩ := bind_eq_ok.mp tail
    obtain ⟨_, _, built⟩ := bind_eq_ok.mp tail
    obtain ⟨_, _, last⟩ := bind_eq_ok.mp built
    cases last
    obtain ⟨short, room⟩ := decodeText_length text
    rw [List.length_drop] at room
    simp only
    omega
  · obtain ⟨_, _, tail⟩ := bind_eq_ok.mp legacy
    obtain ⟨⟨address, consumed⟩, text, tail⟩ := bind_eq_ok.mp tail
    obtain ⟨_, _, built⟩ := bind_eq_ok.mp tail
    cases built
    obtain ⟨short, room⟩ := decodeText_length text
    simp only
    omega

theorem ServersResponse.decodeNodes_footprint {policy : UnknownRolePolicy} {count offset last : Nat}
    {before nodes : List NodeInfo} (decoded : decodeNodes data policy count offset before = .ok (nodes, last)) :
    (nodes.map fun node => 1 + node.address.length).sum + offset ≤
      (before.map fun node => 1 + node.address.length).sum + last := by
  induction count generalizing offset before with
  | zero =>
      cases decoded
      exact le_rfl
  | succ count ih =>
      obtain ⟨nodeId, _, tail⟩ := bind_eq_ok.mp decoded
      obtain ⟨⟨address, consumed⟩, text, tail⟩ := bind_eq_ok.mp tail
      obtain ⟨_, _, tail⟩ := bind_eq_ok.mp tail
      obtain ⟨_, _, tail⟩ := bind_eq_ok.mp tail
      obtain ⟨rawRole, _, tail⟩ := bind_eq_ok.mp tail
      obtain ⟨role, _, tail⟩ := bind_eq_ok.mp tail
      obtain ⟨node, built, later⟩ := bind_eq_ok.mp tail
      obtain rfl : node.address = address := by
        obtain ⟨_, _, rest⟩ := bind_eq_ok.mp built
        obtain ⟨_, _, rest⟩ := bind_eq_ok.mp rest
        obtain ⟨_, _, rest⟩ := bind_eq_ok.mp rest
        cases rest
        rfl
      have short := (decodeText_length text).1
      have paid := ih later
      simp only [List.map_append, List.map_cons, List.map_nil, List.sum_append, List.sum_cons, List.sum_nil]
        at paid
      omega

theorem ServersResponse.decodeBody_footprint {policy : UnknownRolePolicy} {m : ServersResponse}
    (decoded : decodeBody data schema policy = .ok m) : (Response.servers m).footprint ≤ data.length := by
  obtain ⟨_, _, tail⟩ := bind_eq_ok.mp decoded
  obtain ⟨count, _, tail⟩ := bind_eq_ok.mp tail
  obtain ⟨_, _, tail⟩ := bind_eq_ok.mp tail
  obtain ⟨_, _, tail⟩ := bind_eq_ok.mp tail
  obtain ⟨⟨nodes, last⟩, read, tail⟩ := bind_eq_ok.mp tail
  obtain ⟨_, whole, built⟩ := bind_eq_ok.mp tail
  cases built
  have covered : last = data.length := not_not.mp (raiseIf_eq_ok.mp whole)
  have paid := decodeNodes_footprint read
  simp only [List.map_nil, List.sum_nil] at paid
  simp only [Response.footprint]
  omega

theorem FilesResponse.decodeFiles_footprint {count offset last : Nat} {before files : FilesResponse}
    (decoded : decodeFiles data count offset before = .ok (files, last)) :
    (files.files.map fun file => 1 + file.1.length + file.2.length).sum + offset ≤
      (before.files.map fun file => 1 + file.1.length + file.2.length).sum + last := by
  induction count generalizing offset before with
  | zero =>
      cases decoded
      exact le_rfl
  | succ count ih =>
      obtain ⟨⟨name, consumed⟩, text, tail⟩ := bind_eq_ok.mp decoded
      obtain ⟨size, _, tail⟩ := bind_eq_ok.mp tail
      obtain ⟨_, _, tail⟩ := bind_eq_ok.mp tail
      obtain ⟨_, _, tail⟩ := bind_eq_ok.mp tail
      obtain ⟨_, _, tail⟩ := bind_eq_ok.mp tail
      simp only at tail
      split at tail
      · cases tail
      · have short := (decodeText_length text).1
        have paid := ih tail
        simp only [insert, List.map_append, List.map_cons, List.map_nil, List.sum_append, List.sum_cons,
          List.sum_nil, List.length_take] at paid
        omega

theorem FilesResponse.decodeBody_footprint {m : FilesResponse}
    (decoded : decodeBody data schema = .ok m) : (Response.files m).footprint ≤ data.length := by
  obtain ⟨_, _, tail⟩ := bind_eq_ok.mp decoded
  obtain ⟨count, _, tail⟩ := bind_eq_ok.mp tail
  obtain ⟨_, _, tail⟩ := bind_eq_ok.mp tail
  obtain ⟨_, _, tail⟩ := bind_eq_ok.mp tail
  obtain ⟨⟨files, last⟩, read, tail⟩ := bind_eq_ok.mp tail
  obtain ⟨_, whole, built⟩ := bind_eq_ok.mp tail
  cases built
  have covered : last = data.length := not_not.mp (raiseIf_eq_ok.mp whole)
  have paid := decodeFiles_footprint read
  simp only [List.map_nil, List.sum_nil] at paid
  simp only [Response.footprint]
  omega

theorem RowsResponse.decodeNames_footprint {count offset last : Nat} {names : List Str}
    (decoded : decodeNames data count offset = .ok (names, last)) :
    (names.map fun name => 1 + name.length).sum + offset ≤ last := by
  induction count generalizing offset names with
  | zero =>
      cases decoded
      simp
  | succ count ih =>
      obtain ⟨⟨name, consumed⟩, text, tail⟩ := bind_eq_ok.mp decoded
      obtain ⟨⟨names, last⟩, others, same⟩ := bind_eq_ok.mp tail
      cases same
      have short := (decodeText_length text).1
      have paid := ih others
      simp only [List.map_cons, List.sum_cons]
      omega

/-- A row is paid for by its header, its cells by theirs. -/
theorem RowsResponse.RowsRead.footprint {count offset : Nat} {errors : Handler} {allTypes : List (List ValueType)}
    {rows : List (List WireValue)} {marker : RowMarker}
    (read : RowsResponse.RowsRead data count errors offset allTypes rows marker) (positive : 0 < count) :
    (rows.map fun row => 1 + footprints (row.map .value)).sum + errors.growth * offset ≤
      errors.growth * data.length := by
  induction read with
  | marker _ finish =>
      rw [List.map_nil, List.sum_nil, Nat.zero_add]
      exact Nat.mul_le_mul_left _ (by omega)
  | @row offset consumed width types values allTypes rows marker header cells rest ih =>
      have wide := decodeRowHeader_consumed positive header
      have paid := (decodeValues_footprint cells).1
      have start : 1 ≤ errors.growth * consumed := Nat.mul_pos errors.growth_pos wide
      rw [Nat.mul_add, Nat.mul_add] at ih
      rw [List.map_cons, List.sum_cons]
      omega

theorem RowsResponse.decodeBody_footprint {maxRows : Nat} {errors : Handler} {m : RowsResponse}
    (decoded : decodeBody data schema maxRows errors = .ok m) :
    (Response.rows m).footprint ≤ errors.growth * data.length := by
  obtain ⟨count, names, offset, allTypes, values, marker, _, _, named, read, empty, rfl⟩ :=
    decodeBody_read decoded
  have positive := errors.growth_pos
  have columns := decodeNames_footprint named
  have rows : (values.map fun row => 1 + footprints (row.map .value)).sum + errors.growth * offset ≤
      errors.growth * data.length := by
    by_cases zero : count = 0
    · rw [empty zero] at read ⊢
      cases read with
      | marker _ finish =>
          rw [List.map_nil, List.sum_nil, Nat.zero_add]
          exact Nat.mul_le_mul_left _ (by omega)
    · exact read.footprint (Nat.pos_of_ne_zero zero)
  have start : offset ≤ errors.growth * offset := Nat.le_mul_of_pos_left _ positive
  simp only [Response.footprint, List.map_map, Function.comp_def]
  omega

theorem decodeResponseBody_footprint {config : Config} {version : Option Nat} {t : ResponseType} {m : Response}
    (decoded : decodeResponseBody config version t data schema = .ok m) :
    m.footprint ≤ config.textErrors.growth * data.length := by
  have plain {n : Nat} (small : n ≤ data.length) : n ≤ config.textErrors.growth * data.length :=
    small.trans (Nat.le_mul_of_pos_left _ config.textErrors.growth_pos)
  cases t with
  | welcome | db | stmt | result | empty | metadata =>
      obtain ⟨_, _, rfl⟩ := map_eq_ok.mp decoded
      exact Nat.zero_le _
  | failure =>
      obtain ⟨m, body, rfl⟩ := map_eq_ok.mp decoded
      exact plain (FailureResponse.decodeBody_footprint body)
  | leader =>
      simp only [decodeResponseBody] at decoded
      split at decoded
      · obtain ⟨m, body, rfl⟩ := map_eq_ok.mp decoded
        exact plain (@LeaderResponse.decodeBody_footprint data schema m (Or.inr body))
      · obtain ⟨m, body, rfl⟩ := map_eq_ok.mp decoded
        exact plain (LeaderResponse.decodeBody_footprint (Or.inl body))
  | servers =>
      obtain ⟨m, body, rfl⟩ := map_eq_ok.mp decoded
      exact plain (ServersResponse.decodeBody_footprint body)
  | files =>
      obtain ⟨m, body, rfl⟩ := map_eq_ok.mp decoded
      exact plain (FilesResponse.decodeBody_footprint body)
  | rows =>
      obtain ⟨m, body, rfl⟩ := map_eq_ok.mp decoded
      exact RowsResponse.decodeBody_footprint body

end Responses

section Calls

variable {config : Config} {streams : List (List RowsResponse)} {d : MessageDecoder}

theorem decodeFrame_footprint {version : Option Nat} {f : Bytes} {m : Message}
    (decoded : decodeFrame config version f = .ok m) : m.footprint ≤ config.textErrors.growth * f.length := by
  rw [decodeFrame_eq (decodeFrame_ok decoded)] at decoded
  have positive := config.textErrors.growth_pos
  have inside : (frameBody f).length ≤ f.length := by
    rw [frameBody, List.length_drop]
    exact Nat.sub_le _ _
  cases m with
  | request m =>
      obtain ⟨_, _, _, _, _, body⟩ := decodeBody_ok_request decoded
      calc m.footprint
          ≤ (frameBody f).length := decodeRequestBody_footprint body
        _ ≤ f.length := inside
        _ ≤ config.textErrors.growth * f.length := Nat.le_mul_of_pos_left _ positive
  | response m =>
      obtain ⟨_, _, _, body⟩ := decodeBody_ok_response decoded
      exact (decodeResponseBody_footprint body).trans (Nat.mul_le_mul_left _ inside)

def Exn.footprint : Exn → Nat
  | .serverFailure _ message => message.length
  | _ => 0

/-- What a call hands out: a frame, a message, or the server's words in an exception. -/
def DecoderReply.footprint : DecoderReply → Nat
  | .ok (.message (some m)) => m.footprint
  | .ok (.frame (some f)) => f.length
  | .ok _ => 0
  | .error e => e.footprint

def DecoderOp.size : DecoderOp → Nat
  | .feed data | .decodeBytes data => data.length
  | _ => 0

theorem Exn.OfParsing.footprint {errors : Handler} {e : Exn} (parsing : e.OfParsing errors) : e.footprint = 0 := by
  cases e with
  | serverFailure => exact parsing.elim
  | _ => rfl

/-- Only `decode_continuation` raises the server's words. -/
theorem raised_footprint (held : Bookkeeping config streams d) {op : DecoderOp} {e : Exn}
    (raised : (d.step op).1 = .error e) (other : op ≠ .decodeContinuation) : e.footprint = 0 := by
  have contract := contract_step held raised
  cases e with
  | serverFailure code message => exact absurd contract.1 other
  | _ => rfl

def outcomeFootprint : Except Exn Message → Nat
  | .ok m => m.footprint
  | .error e => e.footprint

theorem continueRows_footprint (d : MessageDecoder) (result : RowsResponse) :
    outcomeFootprint (d.continueRows result).1 ≤ (Response.rows result).footprint ∧
      (d.continueRows result).2.buffer = d.buffer := by
  rcases continueRows_cases d result with
    ⟨text, d', stepped, same, _⟩ | ⟨_, _, stepped⟩ | ⟨_, _, stepped⟩
  · rw [stepped]
    refine ⟨Nat.zero_le _, ?_⟩
    have buffers := congrArg MessageDecoder.buffer same
    rwa [finalize_buffer, finalize_buffer] at buffers
  · rw [stepped]
    exact ⟨le_rfl, rfl⟩
  · rw [stepped]
    exact ⟨le_rfl, finalize_buffer d⟩

theorem continueStream_footprint (d : MessageDecoder) (f : Bytes) :
    outcomeFootprint (d.continueStream f).1 ≤ d.config.textErrors.growth * f.length ∧
      (d.continueStream f).2.buffer = d.buffer := by
  have nothing (e : Exn) (none : e.footprint = 0) :
      outcomeFootprint (.error e) ≤ d.config.textErrors.growth * f.length := by
    rw [outcomeFootprint, none]
    exact Nat.zero_le _
  unfold continueStream
  cases decoded : Header.decode (f.take headerSize) with
  | error e =>
      have parsing : e.OfParsing .strict := Header.decode_errors f _ decoded
      exact ⟨nothing e parsing.footprint, rfl⟩
  | ok header =>
      have inside : ((f.drop headerSize).take header.bodySize).length ≤ f.length := by
        rw [List.length_take, List.length_drop]
        omega
      have positive := d.config.textErrors.growth_pos
      simp only
      split
      · exact ⟨Nat.zero_le _, finalize_buffer d⟩
      · cases schema : checkSchema d.config.isRequest header with
        | error e =>
            have parsing : e.OfParsing .strict := checkSchema_errors _ _ _ schema
            exact ⟨nothing e parsing.footprint, rfl⟩
        | ok _ =>
            simp only
            split
            · split
              · rename_i e raised
                have parsing : e.OfParsing .strict := FailureResponse.decodeBody_errors _ _ _ raised
                exact ⟨nothing e parsing.footprint, rfl⟩
              · rename_i failure read
                refine ⟨?_, finalize_buffer d⟩
                calc outcomeFootprint (.error (.serverFailure failure.code failure.message))
                    ≤ ((f.drop headerSize).take header.bodySize).length :=
                      FailureResponse.decodeBody_footprint read
                  _ ≤ f.length := inside
                  _ ≤ d.config.textErrors.growth * f.length := Nat.le_mul_of_pos_left _ positive
            · split
              · split
                · rename_i e raised
                  have parsing : e.OfParsing .strict := EmptyResponse.decodeBody_errors _ _ _ raised
                  exact ⟨nothing e parsing.footprint, rfl⟩
                · exact ⟨Nat.zero_le _, finalize_buffer d⟩
              · split
                · rename_i e raised
                  exact ⟨nothing e (RowsResponse.decodeBody_errors _ _ _ _ raised).footprint, rfl⟩
                · rename_i result read
                  obtain ⟨small, same⟩ := continueRows_footprint d result
                  refine ⟨?_, same⟩
                  calc outcomeFootprint (d.continueRows result).1
                      ≤ (Response.rows result).footprint := small
                    _ ≤ d.config.textErrors.growth * ((f.drop headerSize).take header.bodySize).length :=
                      RowsResponse.decodeBody_footprint read
                    _ ≤ d.config.textErrors.growth * f.length := Nat.mul_le_mul_left _ inside

def frameFootprint : Except Exn (Option Bytes) → Nat
  | .ok (some f) => f.length
  | _ => 0

theorem readMessage_spends {b after : ReadBuffer} (bounded : b.Bounded) {reply : Except Exn (Option Bytes)}
    (read : b.readMessage = (reply, after)) :
    frameFootprint reply + after.unread.length ≤ b.unread.length := by
  obtain ⟨same, _, next⟩ := ReadBuffer.readMessage_matches bounded
  rw [read] at same next
  have unread := congrArg ByteQueue.unread next
  simp only [ReadBuffer.queue_unread] at unread
  simp only at same
  rw [same, unread]
  unfold ByteQueue.readMessage
  split
  · exact (Nat.zero_add _).le
  · split
    · exact (Nat.zero_add _).le
    · exact (Nat.zero_add _).le
    · rename_i message rest found
      have whole : b.unread = message ++ rest := (wire.head_frame _ found).1
      rw [whole, List.length_append]
      exact le_rfl

theorem feed_unread {b : ReadBuffer} (bounded : b.Bounded) (data : Bytes) :
    (b.feed data).2.unread.length ≤ data.length + b.unread.length := by
  obtain ⟨_, _, next⟩ := ReadBuffer.feed_matches bounded data
  have unread := congrArg ByteQueue.unread next
  simp only [ReadBuffer.queue_unread] at unread
  rw [unread]
  unfold ByteQueue.feed
  split
  · exact Nat.le_add_left _ _
  · split
    · unfold ByteQueue.reject
      split
      · exact Nat.le_add_left _ _
      · split <;> exact Nat.le_add_left _ _
    · simp only [ByteQueue.absorb, ReadBuffer.queue_unread, List.length_append, List.length_drop]
      omega

theorem skipMessage_unread {b : ReadBuffer} (bounded : b.Bounded) :
    b.skipMessage.2.unread.length ≤ b.unread.length := by
  obtain ⟨_, _, next⟩ := ReadBuffer.skipMessage_matches bounded
  have unread := congrArg ByteQueue.unread next
  simp only [ReadBuffer.queue_unread] at unread
  rw [unread]
  unfold ByteQueue.skipMessage
  split
  · exact le_rfl
  · split
    · exact le_rfl
    · rename_i message rest found
      have whole : b.unread = message ++ rest := (wire.head_frame _ found).1
      rw [whole, List.length_append]
      exact Nat.le_add_left _ _
    · split
      · rw [List.length_drop]
        exact Nat.sub_le _ _
      · exact Nat.zero_le _

theorem paid_by {g handed read left came waiting : Nat} (pays : handed ≤ g * read)
    (within : read + left ≤ came + waiting) : handed + g * left ≤ g * came + g * waiting :=
  calc handed + g * left
      ≤ g * read + g * left := Nat.add_le_add_right pays _
    _ = g * (read + left) := (Nat.mul_add _ _ _).symm
    _ ≤ g * (came + waiting) := Nat.mul_le_mul_left _ within
    _ = g * came + g * waiting := Nat.mul_add _ _ _

theorem handshake_unread (sound : d.Sound config) :
    d.decodeHandshake.2.buffer.unread.length ≤ d.buffer.unread.length := by
  by_cases done : d.handshakeDone = true
  · rw [decodeHandshake, if_pos done]
  · cases poisoned : d.buffer.poisoned with
    | some cause =>
        have peek := ReadBuffer.peekBytes_matches d.buffer 8
        have queue_poisoned : d.buffer.queue.poisoned = some cause := poisoned
        simp only [ByteQueue.peekBytes, ByteQueue.readBytes, queue_poisoned] at peek
        rw [decodeHandshake, if_neg done, peek]
        exact le_rfl
    | none =>
        rcases decodeHandshake_cases sound.buffer.bounded poisoned (Bool.eq_false_iff.mpr done) with
          ⟨_, called⟩ | ⟨_, _, called⟩ | ⟨_, _, b, _, queue, called⟩
        · rw [called]
        · rw [called]
        · have unread := congrArg ByteQueue.unread queue
          simp only [ReadBuffer.queue_unread] at unread
          rw [called]
          simp only [withBuffer_buffer, unread, List.length_drop]
          exact Nat.sub_le _ _

/-- What a call hands out and leaves waiting, in the bytes that were waiting or came in. -/
def Pays (g : Nat) (d : MessageDecoder) (op : DecoderOp) (reply : DecoderReply) (after : MessageDecoder) : Prop :=
  DecoderReply.footprint reply + g * after.buffer.unread.length ≤ g * op.size + g * d.buffer.unread.length

theorem pays_nothing {g : Nat} {op : DecoderOp} {reply : DecoderReply} {after : MessageDecoder}
    (nothing : DecoderReply.footprint reply = 0)
    (within : after.buffer.unread.length ≤ op.size + d.buffer.unread.length) : Pays g d op reply after := by
  unfold Pays
  rw [nothing, Nat.zero_add, ← Nat.mul_add]
  exact Nat.mul_le_mul_left g within

theorem error_footprint {α : Type} {f : α → DecoderValue} {reply : Except Exn α}
    (raised : ∀ e, reply.map f = .error e → e.footprint = 0)
    (plain : ∀ a, DecoderReply.footprint (.ok (f a)) = 0) : DecoderReply.footprint (reply.map f) = 0 := by
  cases reply with
  | error e => exact raised e rfl
  | ok a => exact plain a

theorem decode_pays (held : Bookkeeping config streams d) :
    Pays config.textErrors.growth d .decode (d.step .decode).1 (d.step .decode).2 := by
  obtain ⟨bounded, _⟩ := held.sound.buffer
  have same := held.sound.config_eq
  have outcome := decode_outcome d
  have raised : ∀ e, (d.step .decode).1 = .error e → e.footprint = 0 :=
    fun e failed => raised_footprint held failed (by simp)
  simp only [step] at raised ⊢
  generalize d.decode = called at outcome raised ⊢
  cases outcome with
  | refused e guarded => exact pays_nothing (raised e rfl) (Nat.le_add_left _ _)
  | waiting b idle read =>
      have spent := readMessage_spends bounded read
      exact pays_nothing rfl (by simp only [withBuffer_buffer]; omega)
  | unreadable b e idle read =>
      have spent := readMessage_spends bounded read
      exact pays_nothing (raised e rfl) (by simp only [withBuffer_buffer]; omega)
  | failed b f e idle read failed =>
      have spent := readMessage_spends bounded read
      refine pays_nothing (raised e rfl) ?_
      rw [poison_buffer, withBuffer_buffer, ReadBuffer.poison_unread]
      omega
  | whole b f message idle read decoded last =>
      rw [same] at decoded
      exact paid_by (decodeFrame_footprint decoded)
        ((readMessage_spends bounded read).trans (Nat.le_add_left _ _))
  | opened b f result idle read decoded more within =>
      rw [same] at decoded
      exact paid_by (decodeFrame_footprint decoded)
        ((readMessage_spends bounded read).trans (Nat.le_add_left _ _))

theorem continuationRaised_unread (d : MessageDecoder) (e : Exn) :
    (d.continuationRaised e).buffer.unread = d.buffer.unread := by
  unfold continuationRaised
  split
  · rfl
  · rfl
  · rfl
  · rw [finalize_buffer]
  · rw [poison_buffer, ReadBuffer.poison_unread, finalize_buffer]

theorem decodeContinuation_pays (held : Bookkeeping config streams d) :
    Pays config.textErrors.growth d .decodeContinuation (d.step .decodeContinuation).1
      (d.step .decodeContinuation).2 := by
  obtain ⟨bounded, _⟩ := held.sound.buffer
  have same := held.sound.config_eq
  simp only [step]
  unfold decodeContinuation
  cases checked : d.buffer.checkPoisoned with
  | error e =>
      obtain ⟨cause, _, rfl⟩ := ReadBuffer.checkPoisoned_error.mp checked
      exact pays_nothing rfl (Nat.le_add_left _ _)
  | ok _ =>
      have healthy := ReadBuffer.checkPoisoned_ok.mp checked
      simp only
      split
      · exact pays_nothing rfl (Nat.le_add_left _ _)
      · rcases read : d.buffer.readMessage with ⟨reply, b⟩
        have spent := readMessage_spends bounded read
        cases reply with
        | error e =>
            obtain ⟨_, text, rfl⟩ := ReadBuffer.readMessage_raised healthy read
            have nothing : (Exn.decodeError text).footprint = 0 := rfl
            simp only
            split
            · refine pays_nothing nothing ?_
              rw [poison_buffer, ReadBuffer.poison_unread, finalize_buffer, withBuffer_buffer]
              omega
            · refine pays_nothing nothing ?_
              rw [withBuffer_buffer]
              omega
        | ok message =>
            cases message with
            | none => exact pays_nothing rfl (by simp only [withBuffer_buffer]; omega)
            | some f =>
                obtain ⟨small, kept⟩ := continueStream_footprint (d.withBuffer b) f
                simp only
                rcases continued : (d.withBuffer b).continueStream f with ⟨outcome, d'⟩
                rw [continued] at small kept
                rw [withBuffer_config, same] at small
                have within : f.length + d'.buffer.unread.length ≤ 0 + d.buffer.unread.length := by
                  rw [kept, withBuffer_buffer, Nat.zero_add]
                  exact spent
                cases outcome with
                | ok m => exact paid_by small within
                | error e =>
                    refine paid_by small ?_
                    rwa [continuationRaised_unread]

theorem decodeBytes_pays (held : Bookkeeping config streams d) (data : Bytes) :
    Pays config.textErrors.growth d (.decodeBytes data) (d.step (.decodeBytes data)).1
      (d.step (.decodeBytes data)).2 := by
  have raised : ∀ e, (d.step (.decodeBytes data)).1 = .error e → e.footprint = 0 :=
    fun e failed => raised_footprint held failed (by simp)
  simp only [step] at raised ⊢
  cases decoded : d.decodeBytes data with
  | error e =>
      rw [decoded] at raised
      exact pays_nothing (raised e rfl) (Nat.le_add_left _ _)
  | ok m =>
      obtain ⟨_, _, tail⟩ := bind_eq_ok.mp decoded
      obtain ⟨_, _, frame⟩ := bind_eq_ok.mp tail
      rw [held.sound.config_eq] at frame
      exact Nat.add_le_add_right (decodeFrame_footprint frame) _

theorem step_pays (held : Bookkeeping config streams d) (op : DecoderOp) :
    Pays config.textErrors.growth d op (d.step op).1 (d.step op).2 := by
  have raised : op ≠ .decodeContinuation → ∀ e, (d.step op).1 = .error e → e.footprint = 0 :=
    fun other e failed => raised_footprint held failed other
  obtain ⟨bounded, _⟩ := held.sound.buffer
  cases op with
  | feed data =>
      exact pays_nothing (error_footprint (raised (by simp)) fun _ => rfl) (feed_unread bounded data)
  | hasMessage => exact pays_nothing rfl (Nat.le_add_left _ _)
  | pendingFrameSize =>
      refine pays_nothing (error_footprint (raised (by simp)) fun _ => rfl) ?_
      simp only [step, pendingFrameSize, ReadBuffer.peekHeader_unchanged, withBuffer_buffer]
      exact Nat.le_add_left _ _
  | takeFrame =>
      rcases read : d.buffer.readMessage with ⟨reply, b⟩
      have spent := (readMessage_spends bounded read).trans (Nat.le_add_left _ 0)
      simp only [step, takeFrame, read] at raised ⊢
      refine paid_by ?_ spent
      cases reply with
      | error e => exact (raised (by simp) e rfl).trans_le (Nat.zero_le _)
      | ok frame =>
          cases frame with
          | none => exact Nat.zero_le _
          | some f => exact Nat.le_mul_of_pos_left _ config.textErrors.growth_pos
  | decode => exact decode_pays held
  | decodeBytes data => exact decodeBytes_pays held data
  | decodeContinuation => exact decodeContinuation_pays held
  | skipMessage =>
      refine pays_nothing (error_footprint (raised (by simp)) fun _ => rfl) ?_
      simp only [step, skipMessage]
      split
      · exact Nat.le_add_left _ _
      · exact (skipMessage_unread bounded).trans (Nat.le_add_left _ _)
  | decodeHandshake =>
      exact pays_nothing (error_footprint (raised (by simp)) fun _ => rfl)
        ((handshake_unread held.sound).trans (Nat.le_add_left _ _))
  | reset =>
      refine pays_nothing rfl ?_
      simp only [step, held.sound.reset_eq]
      exact Nat.zero_le _

end Calls

/-- Over any run the characters, bytes and list entries handed out are at most as many as the bytes brought in, or
four times as many where undecodable text is escaped; so whatever a peer sends, what a decoder builds from it is
bounded by it. -/
theorem footprint_paid (config : Config) (ops : List DecoderOp) :
    ((history step (new config) ops).map fun e => DecoderReply.footprint e.reply).sum ≤
      config.textErrors.growth * (ops.map DecoderOp.size).sum := by
  have kept : ∀ (d : MessageDecoder) (op : DecoderOp),
      Reachable step (new config) d → Reachable step (new config) (d.step op).2 :=
    fun _ op reachable => Reachable.trans step reachable ⟨[op], rfl⟩
  have pays : ∀ (d : MessageDecoder) (op : DecoderOp), Reachable step (new config) d →
      Pays config.textErrors.growth d op (d.step op).1 (d.step op).2 := by
    intro d op reachable
    obtain ⟨streams, held⟩ := bookkeeping_of_reachable reachable
    exact step_pays held op
  have paid := amortized step (Reachable step (new config)) (fun e => DecoderReply.footprint e.reply)
    (fun e => config.textErrors.growth * e.op.size) (fun d => config.textErrors.growth * d.buffer.unread.length)
    (reachable_start step (new config)) kept pays ops
  have sizes : ((history step (new config) ops).map fun e => e.op.size) = ops.map DecoderOp.size := by
    rw [← history_ops step (new config) ops, List.map_map, history_ops]
    rfl
  have fresh : (new config).buffer.unread = [] := rfl
  rw [List.sum_map_mul_left, sizes, fresh, List.length_nil, Nat.mul_zero, Nat.add_zero] at paid
  exact (Nat.le_add_right _ _).trans paid

end DqliteWire
