import DqliteWire.Codec
import DqliteWire.Fields
import DqliteWire.Queue
import DqliteWire.Rows

/-! A complete frame as the codec sees it: its header fields, its body, and the stateless decoding
of both. -/

namespace DqliteWire

open WireLib WireLib.Utf8

def frameHeader (f : Bytes) : Header :=
  ⟨fromLE (f.take 4), (f.getD 4 0).toNat, (f.getD 5 0).toNat, fromLE ((f.drop 6).take 2)⟩

def frameBody (f : Bytes) : Bytes := f.drop headerSize

theorem take_one (s : Bytes) (i : Nat) (inside : i < s.length) :
    (s.drop i).take 1 = [s.getD i 0] := by
  rw [List.drop_eq_getElem_cons inside, List.getD_eq_getElem?_getD,
    List.getElem?_eq_getElem inside]
  rfl

theorem Header.new_ok {sizeWords msgType schema reserved : Nat} (size : sizeWords < 2 ^ 32)
    (type : msgType < 2 ^ 8) (version : schema < 2 ^ 8) (spare : reserved < 2 ^ 16) :
    Header.new sizeWords msgType schema reserved = .ok ⟨sizeWords, msgType, schema, reserved⟩ := by
  have inRange (field : String) (value bits : Nat) (bound : value < 2 ^ bits) :
      Header.checkRange field value bits = .ok () := by
    apply raiseIf_neg
    push Not
    exact ⟨Int.natCast_nonneg value, by exact_mod_cast bound⟩
  simp only [Header.new, inRange _ _ _ size, inRange _ _ _ type, inRange _ _ _ version,
    inRange _ _ _ spare, ok_bind]
  rfl

theorem Header.decode_eq {f : Bytes} (long : headerSize ≤ f.length) :
    Header.decode (f.take headerSize) = .ok (frameHeader f) := by
  have room : 8 ≤ f.length := long
  have width : (f.take headerSize).length = headerSize := by rw [List.length_take, min_eq_left long]
  have sizeBytes : (f.take headerSize).take 4 = f.take 4 := by simp [headerSize, List.take_take]
  have typeByte : ((f.take headerSize).drop 4).take 1 = [f.getD 4 0] := by
    rw [take_one _ 4 (by rw [width]; decide)]
    simp [headerSize, List.getD_eq_getElem?_getD]
  have schemaByte : ((f.take headerSize).drop 5).take 1 = [f.getD 5 0] := by
    rw [take_one _ 5 (by rw [width]; decide)]
    simp [headerSize, List.getD_eq_getElem?_getD]
  have spareBytes : ((f.take headerSize).drop 6).take 2 = (f.drop 6).take 2 := by
    rw [List.drop_take]
    simp [headerSize, List.take_take]
  have four : (f.take 4).length = 4 := by rw [List.length_take]; omega
  have two : ((f.drop 6).take 2).length = 2 := by rw [List.length_take, List.length_drop]; omega
  have size := fromLE_lt (f.take 4)
  have spare := fromLE_lt ((f.drop 6).take 2)
  rw [four] at size
  rw [two] at spare
  have built := Header.new_ok (lt_of_lt_of_eq size (by norm_num)) (f.getD 4 0).toNat_lt
    (f.getD 5 0).toNat_lt (lt_of_lt_of_eq spare (by norm_num))
  have enough : ¬ (f.take headerSize).length < headerSize := by
    rw [width]
    exact lt_irrefl _
  rw [Header.decode, raiseIf_neg enough, ok_bind, sizeBytes, unpack_of_length four, ok_bind,
    typeByte, unpack_one, ok_bind, schemaByte, unpack_one, ok_bind, spareBytes,
    unpack_of_length two, ok_bind, built, frameHeader]

theorem Header.decode_errors {errors : Handler} (f : Bytes) :
    ParseErrors errors (Header.decode (f.take headerSize)) := by
  by_cases long : headerSize ≤ f.length
  · rw [Header.decode_eq long]
    exact raises_ok _
  · have short : (f.take headerSize).length < headerSize := by
      rw [List.length_take]
      omega
    rw [Header.decode, raiseIf, if_pos short]
    exact raises_error trivial

theorem bodySize_eq {cap : Nat} {f : Bytes} (legal : wire.IsFrame cap f) :
    headerSize + (frameHeader f).bodySize = f.length := legal.length_eq.symm

namespace MessageDecoder

theorem decodeFrame_eq {config : Config} {f : Bytes} (legal : wire.IsFrame config.maxMessageSize f)
    (version : Option Nat) :
    decodeFrame config version f = decodeBody config version (frameHeader f) (frameBody f) := by
  have long : headerSize ≤ f.length := legal.header_le
  have size := bodySize_eq legal
  have within := legal.within
  simp only [decodeFrame, Header.decode_eq long, ok_bind, size,
    raiseIf_neg (not_lt.mpr long), raiseIf_neg (not_lt.mpr within), raiseIf_neg (lt_irrefl _)]
  rw [List.take_of_length_le le_rfl]
  rfl

theorem decodeFrame_cases (config : Config) (version : Option Nat) (f : Bytes) :
    wire.IsFrame config.maxMessageSize f ∨
      ∃ text, decodeFrame config version f = .error (.decodeError text) := by
  unfold decodeFrame
  by_cases short : f.length < headerSize
  · rw [raiseIf, if_pos short]
    exact Or.inr ⟨_, rfl⟩
  rw [raiseIf_neg short, ok_bind, Header.decode_eq (not_lt.mp short), ok_bind]
  simp only
  by_cases large : config.maxMessageSize < headerSize + (frameHeader f).bodySize
  · rw [raiseIf, if_pos large]
    exact Or.inr ⟨_, rfl⟩
  rw [raiseIf_neg large, ok_bind]
  by_cases lacking : f.length < headerSize + (frameHeader f).bodySize
  · rw [raiseIf, if_pos lacking]
    exact Or.inr ⟨_, rfl⟩
  rw [raiseIf_neg lacking, ok_bind]
  by_cases trailing : headerSize + (frameHeader f).bodySize < f.length
  · rw [raiseIf, if_pos trailing]
    exact Or.inr ⟨_, rfl⟩
  have size : f.length = wire.size f := le_antisymm (not_lt.mp trailing) (not_lt.mp lacking)
  exact Or.inl ⟨size, by rw [size]; exact not_lt.mp large⟩

theorem decodeFrame_ok {config : Config} {version : Option Nat} {f : Bytes} {m : Message}
    (decoded : decodeFrame config version f = .ok m) : wire.IsFrame config.maxMessageSize f := by
  rcases decodeFrame_cases config version f with legal | ⟨text, raised⟩
  · exact legal
  · rw [raised] at decoded
    cases decoded

theorem map_eq_ok {α β : Type} {f : α → β} {x : Except Exn α} {b : β} :
    f <$> x = .ok b ↔ ∃ a, x = .ok a ∧ f a = b := by
  cases x with
  | error e => simp [Functor.map, Except.map]
  | ok a => simp [Functor.map, Except.map]

theorem decodeResponseBody_type {config : Config} {version : Option Nat} {t : ResponseType}
    {body : Bytes} {schema : Nat} {m : Response}
    (decoded : decodeResponseBody config version t body schema = .ok m) : m.type = t := by
  cases t with
  | leader =>
      simp only [decodeResponseBody] at decoded
      split at decoded <;>
      · obtain ⟨_, _, rfl⟩ := map_eq_ok.mp decoded
        rfl
  | failure | welcome | servers | db | stmt | result | rows | empty | files | metadata =>
      obtain ⟨_, _, rfl⟩ := map_eq_ok.mp decoded
      rfl

theorem responseTypes_find (t : ResponseType) :
    responseTypes.find? (fun other => decide (other.code = t.code)) = some t := by
  cases t <;> rfl

theorem decodeBody_response {config : Config} (response : config.isRequest = false)
    (version : Option Nat) {header : Header} {t : ResponseType} (type : header.msgType = t.code)
    (body : Bytes) :
    decodeBody config version header body = (do
      checkSchema false header
      Message.response <$> decodeResponseBody config version t body header.schema) := by
  have found := responseTypes_find t
  rw [← type] at found
  simp only [decodeBody, response, found]
  rfl

theorem decodeBody_request {config : Config} (request : config.isRequest = true)
    (version : Option Nat) {header : Header} {t : RequestType} (known : t ∈ requestTypes)
    (type : header.msgType = t.code) (body : Bytes) :
    decodeBody config version header body = (do
      checkSchema true header
      Message.request <$> decodeRequestBody t body header.schema) := by
  have found : requestTypes.find? (fun other => decide (other.code = t.code)) = some t := by
    revert known
    cases t <;> decide
  rw [← type] at found
  simp only [decodeBody, request, if_true, found]

theorem decodeBody_ok_response {config : Config} {version : Option Nat} {header : Header}
    {body : Bytes} {m : Response}
    (decoded : decodeBody config version header body = .ok (.response m)) :
    config.isRequest = false ∧ header.msgType = m.type.code ∧ checkSchema false header = .ok () ∧
      decodeResponseBody config version m.type body header.schema = .ok m := by
  unfold decodeBody at decoded
  simp only at decoded
  split at decoded
  · split at decoded
    · cases decoded
    · obtain ⟨_, _, rest⟩ := bind_eq_ok.mp decoded
      obtain ⟨_, _, same⟩ := map_eq_ok.mp rest
      cases same
  · rename_i response
    split at decoded
    · cases decoded
    · rename_i t found
      obtain ⟨_, schema, rest⟩ := bind_eq_ok.mp decoded
      obtain ⟨_, body, same⟩ := map_eq_ok.mp rest
      cases same
      have code := List.find?_some found
      rw [decodeResponseBody_type body]
      exact ⟨by simpa using response, (of_decide_eq_true code).symm, schema, body⟩

theorem decodeFrame_rows {config : Config} {version : Option Nat} {f : Bytes}
    {result : RowsResponse}
    (decoded : decodeFrame config version f = .ok (.response (.rows result))) :
    config.isRequest = false ∧ (frameHeader f).msgType = ResponseType.rows.code ∧
      RowsResponse.decodeBody (frameBody f) (frameHeader f).schema config.maxRows
        config.textErrors = .ok result := by
  rw [decodeFrame_eq (decodeFrame_ok decoded)] at decoded
  obtain ⟨response, type, _, body⟩ := decodeBody_ok_response decoded
  obtain ⟨_, rows, same⟩ := map_eq_ok.mp body
  cases same
  exact ⟨response, type, rows⟩

theorem decodeFrame_rows_facts {config : Config} {version : Option Nat} {f : Bytes}
    {result : RowsResponse}
    (decoded : decodeFrame config version f = .ok (.response (.rows result))) :
    config.isRequest = false ∧ result.rows.length < config.maxRows ∧
      EndsWith (frameBody f) (if result.hasMore then .part else .done) := by
  obtain ⟨response, _, body⟩ := decodeFrame_rows decoded
  exact ⟨response, RowsResponse.decodeBody_facts body config.rows_positive⟩

end MessageDecoder

theorem decodeMessage_eq (config : Config) (data : Bytes) :
    decodeMessage config data = MessageDecoder.decodeFrame config (some config.version) data := by
  rw [decodeMessage]
  by_cases request : config.isRequest = true
  · simp only [MessageDecoder.new, request, if_true]
    rfl
  · simp only [MessageDecoder.new, request]
    rfl

end DqliteWire
