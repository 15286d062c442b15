import DqliteWire.Frames

/-! Encoding cells, row headers and whole ROWS bodies and decoding them again. Each lemma decodes
what an encoder wrote in front of any further bytes. -/

namespace DqliteWire

open WireLib WireLib.Utf8

/-- What a cell is decoded as: booleans given as integers become booleans, and every bytes-like
value becomes bytes. -/
def normaliseCell : ValueType → WireInput → WireValue
  | .boolean, .value (.int n) => .bool (n != 0)
  | _, .value v => v
  | _, v => .bytes ((blobContent v).getD [])

section Cells

variable {isoError : Str → Option String} {value : WireInput} {bytes : Bytes}

theorem encodeBooleanValue_ok (encoded : encodeBooleanValue value = .ok bytes) :
    ∃ b : Bool, normaliseCell .boolean value = .bool b ∧ bytes = toLE 8 (if b then 1 else 0) := by
  unfold encodeBooleanValue at encoded
  split at encoded
  · rename_i b
    obtain ⟨_, _, rfl⟩ := encodeUint64_ok encoded
    exact ⟨b, rfl, by cases b <;> rfl⟩
  · rename_i n
    split at encoded
    · rename_i known
      obtain ⟨_, _, rfl⟩ := encodeUint64_ok encoded
      rcases known with rfl | rfl
      · exact ⟨false, rfl, rfl⟩
      · exact ⟨true, rfl, rfl⟩
    · cases encoded
  · cases encoded

theorem encodeIntegerValue_ok {t : ValueType} (encoded : encodeIntegerValue value t = .ok bytes) :
    ∃ n, value = .value (.int n) ∧ encodeInt64 n = .ok bytes := by
  unfold encodeIntegerValue at encoded
  split at encoded
  · cases encoded
  · exact ⟨_, rfl, encoded⟩
  · cases encoded

theorem encodeFloatValue_ok (encoded : encodeFloatValue value = .ok bytes) :
    ∃ bits, value = .value (.float bits) ∧ bytes = toLE 8 bits.toNat := by
  unfold encodeFloatValue encodeDouble at encoded
  split at encoded
  · cases encoded
  · cases encoded
  · split at encoded
    · cases encoded
    · cases encoded
      exact ⟨_, rfl, rfl⟩
    · cases encoded

theorem encodeTextValue_ok {t : ValueType} (encoded : encodeTextValue isoError value t = .ok bytes) :
    ∃ s, value = .value (.str s) ∧ encodeText s (some maxTextValueSize) t.name = .ok bytes := by
  unfold encodeTextValue at encoded
  split at encoded
  · split at encoded
    · cases encoded
    · exact ⟨_, rfl, encoded⟩
  · cases encoded

theorem encodeBlobValue_ok (encoded : encodeBlobValue value = .ok bytes) :
    ∃ content, blobContent value = some content ∧
      encodeBlob ⟨content.length, content⟩ = .ok bytes := by
  obtain ⟨_, _, rest⟩ := bind_eq_ok.mp encoded
  split at rest
  · cases rest
  · rename_i content found
    obtain ⟨_, _, last⟩ := bind_eq_ok.mp rest
    exact ⟨content, found, last⟩

theorem encodeValue_ok {t t' : ValueType} (present : value ≠ .value .none)
    (encoded : encodeValue isoError value (some t) = .ok (bytes, t')) :
    match t with
    | .boolean => encodeBooleanValue value = .ok bytes
    | .integer | .unixtime => encodeIntegerValue value t = .ok bytes
    | .float => encodeFloatValue value = .ok bytes
    | .text | .iso8601 => encodeTextValue isoError value t = .ok bytes
    | .blob => encodeBlobValue value = .ok bytes
    | .null => False := by
  unfold encodeValue at encoded
  split at encoded
  · exact absurd rfl present
  · split at encoded <;>
    · obtain ⟨_, _, rest⟩ := bind_eq_ok.mp encoded
      cases t with
      | boolean | integer | unixtime | float | text | iso8601 | blob =>
          obtain ⟨_, written, last⟩ := bind_eq_ok.mp rest
          cases last
          exact written
      | null => cases rest

theorem decodeValue_encode (source : Source) {t t' : ValueType}
    (encoded : encodeValue isoError value (some t) = .ok (bytes, t')) (rest : Bytes)
    (errors : Handler) :
    decodeValue source (bytes ++ rest) t errors = .ok (normaliseCell t value, bytes.length) ∧
      bytes.length % 8 = 0 ∧ 8 ≤ bytes.length := by
  by_cases absent : value = .value .none
  · subst absent
    cases t with
    | null =>
        cases encoded
        have word : zeros nullCellWidth = toLE 8 0 := by decide
        rw [word, decodeValue, decodeUint64_toLE (by norm_num), ok_bind]
        exact ⟨rfl, by decide, by decide⟩
    | integer | float | text | blob | unixtime | iso8601 | boolean => cases encoded
  · have written := encodeValue_ok absent encoded
    cases t with
    | null => exact written.elim
    | boolean =>
        obtain ⟨b, normal, rfl⟩ := encodeBooleanValue_ok written
        rw [normal, decodeValue, decodeUint64_toLE (by cases b <;> norm_num), ok_bind]
        refine ⟨by cases b <;> rfl, ?_, ?_⟩ <;> rw [toLE_length]
    | integer | unixtime =>
        obtain ⟨n, rfl, word⟩ := encodeIntegerValue_ok written
        obtain ⟨decoded, width⟩ := decodeInt64_encode word rest _
        rw [decodeValue, decoded, ok_bind, width]
        exact ⟨rfl, by decide, le_rfl⟩
    | float =>
        obtain ⟨bits, rfl, rfl⟩ := encodeFloatValue_ok written
        have bound : bits.toNat < 256 ^ 8 := by
          have low := bits.isLt
          omega
        rw [decodeValue, decodeDouble, decodeWord_toLE bound, ok_bind, toLE_length]
        refine ⟨?_, by decide, le_rfl⟩
        simp [normaliseCell]
        rfl
    | text | iso8601 =>
        obtain ⟨s, rfl, text⟩ := encodeTextValue_ok written
        obtain ⟨decoded, aligned, long⟩ := decodeText_encode text source rest _ errors
        rw [decodeValue, decoded, ok_bind]
        exact ⟨rfl, aligned, long⟩
    | blob =>
        obtain ⟨content, found, blob⟩ := encodeBlobValue_ok written
        obtain ⟨decoded, aligned, long⟩ := decodeBlob_encode blob rest
        rw [decodeValue, decoded, ok_bind]
        refine ⟨?_, aligned, long⟩
        cases value with
        | value v =>
            cases v <;> cases found
            rfl
        | bytearray _ | memoryview _ | mmap _ => simp [normaliseCell, found]; rfl

theorem decodeValues_encode (source : Source) {row : List WireInput} {types : List ValueType}
    {bytes : Bytes} (same : row.length = types.length)
    (encoded : encodeCells isoError (row.zip types) = .ok bytes) (before rest : Bytes)
    (errors : Handler) :
    decodeValues source errors (before ++ bytes ++ rest) before.length types =
      .ok (List.zipWith normaliseCell types row, before.length + bytes.length) := by
  induction types generalizing row bytes before with
  | nil =>
      obtain rfl := List.length_eq_zero_iff.mp same
      cases encoded
      rfl
  | cons t types ih =>
      obtain ⟨value, row, rfl⟩ : ∃ value others, row = value :: others := by
        cases row with
        | nil => cases same
        | cons value others => exact ⟨value, others, rfl⟩
      obtain ⟨⟨cell, t'⟩, written, tail⟩ := bind_eq_ok.mp encoded
      obtain ⟨others, later, last⟩ := bind_eq_ok.mp tail
      cases last
      obtain ⟨first, _, _⟩ := decodeValue_encode source written (others ++ rest) errors
      have following := ih (by simpa using same) later (before ++ cell)
      have here : (before ++ (cell ++ others) ++ rest).drop before.length = cell ++ (others ++ rest) := by
        rw [List.append_assoc, List.append_assoc, List.drop_left]
      rw [decodeValues, here, first, ok_bind]
      simp only [List.append_assoc, List.length_append] at following ⊢
      rw [following, ok_bind]
      simp only [List.zipWith_cons_cons, Nat.add_assoc]
      rfl

end Cells

theorem packNibbles_length (types : List ValueType) :
    (packNibbles types).length = (types.length + 1) / 2 := by
  induction types using packNibbles.induct with
  | case1 => rfl
  | case2 low => simp [packNibbles]
  | case3 low high rest ih =>
      simp only [packNibbles, List.length_cons, ih]
      omega

theorem nibbleToValueType_code (t : ValueType) : nibbleToValueType t.code = some t :=
  ValueType.ofCode_code t

theorem packed_toNat (low high : ValueType) :
    (UInt8.ofNat (high.code * 16 + low.code)).toNat = high.code * 16 + low.code := by
  have first := low.code_le
  have second := high.code_le
  simp only [UInt8.toNat_ofNat']
  omega

theorem single_toNat (low : ValueType) : (UInt8.ofNat low.code).toNat = low.code := by
  have bound := low.code_le
  simp only [UInt8.toNat_ofNat']
  omega

theorem decodeRowTypes_pack (types : List ValueType) (before rest : Bytes) :
    decodeRowTypes (before ++ packNibbles types ++ rest) (2 * before.length) types.length =
      .ok types := by
  induction types using packNibbles.induct generalizing before with
  | case1 => rfl
  | case2 low =>
      have byte : byteAt (before ++ [UInt8.ofNat low.code] ++ rest) before.length =
          .ok (UInt8.ofNat low.code) := by
        simp [byteAt]
      have bound := low.code_le
      have nibble : low.code % 16 = low.code := by omega
      simp only [packNibbles, List.length_cons, List.length_nil, decodeRowTypes,
        Nat.mul_div_cancel_left _ (Nat.succ_pos 1), Nat.mul_mod_right, if_true, byte, ok_bind,
        single_toNat, nibble, nibbleToValueType_code]
      rfl
  | case3 low high more ih =>
      have following := ih (before ++ [UInt8.ofNat (high.code * 16 + low.code)])
      have byte : byteAt (before ++ (UInt8.ofNat (high.code * 16 + low.code) :: packNibbles more) ++
          rest) before.length = .ok (UInt8.ofNat (high.code * 16 + low.code)) := by
        simp [byteAt]
      have first := low.code_le
      have second := high.code_le
      have lower : (high.code * 16 + low.code) % 16 = low.code := by omega
      have upper : (high.code * 16 + low.code) / 16 % 16 = high.code := by omega
      have odd : (2 * before.length + 1) / 2 = before.length := by omega
      have odd' : (2 * before.length + 1) % 2 ≠ 0 := by omega
      have next : 2 * before.length + 1 + 1 = 2 * (before.length + 1) := by omega
      simp only [List.length_append, List.length_cons, List.length_nil, Nat.zero_add,
        List.append_assoc, List.cons_append, List.nil_append] at following byte
      simp only [packNibbles, List.length_cons, decodeRowTypes, List.append_assoc, List.cons_append,
        Nat.mul_div_cancel_left _ (Nat.succ_pos 1), Nat.mul_mod_right, if_true, byte, ok_bind,
        packed_toNat, lower, nibbleToValueType_code, odd, if_neg odd', upper, next, following]
      rfl

/-- A type byte is below both marker bytes. -/
theorem packNibbles_head {types : List ValueType} (some_ : types ≠ []) :
    ∃ byte rest, packNibbles types = byte :: rest ∧ byte.toNat < 0xEE := by
  cases types with
  | nil => exact absurd rfl some_
  | cons low more =>
      have first := low.code_le
      cases more with
      | nil =>
          refine ⟨UInt8.ofNat low.code, [], by simp only [packNibbles], ?_⟩
          rw [single_toNat]
          omega
      | cons high rest =>
          have second := high.code_le
          refine ⟨UInt8.ofNat (high.code * 16 + low.code), packNibbles rest, by simp only [packNibbles], ?_⟩
          rw [packed_toNat]
          omega

theorem decodeRowHeader_encode {types : List ValueType} {header : Bytes} (some_ : types ≠ [])
    (encoded : encodeRowHeader types = .ok header) (rest : Bytes) :
    decodeRowHeader (header ++ rest) types.length = .ok (.inl types, header.length) ∧
      8 ≤ header.length := by
  unfold encodeRowHeader at encoded
  rw [if_neg some_] at encoded
  obtain ⟨_, _, last⟩ := bind_eq_ok.mp encoded
  cases last
  have packed := packNibbles_length types
  have aligned := mod_padToWord (packNibbles types).length
  have positive := List.length_pos_iff.mpr some_
  have length : (packNibbles types ++ zeros (padToWord (packNibbles types).length)).length =
      (packNibbles types).length + padToWord (packNibbles types).length := by
    rw [List.length_append, zeros_length]
  obtain ⟨byte, tail, shape, small⟩ := packNibbles_head some_
  have unmarked (marker : Bytes) (high : ∃ b others, marker = b :: others ∧ 0xEE ≤ b.toNat) :
      ¬ (8 ≤ (packNibbles types ++ zeros (padToWord (packNibbles types).length) ++ rest).length ∧
        (packNibbles types ++ zeros (padToWord (packNibbles types).length) ++ rest).take 8 =
          marker) := by
    rintro ⟨_, same⟩
    obtain ⟨b, others, rfl, large⟩ := high
    rw [shape] at same
    simp only [List.cons_append, List.take_succ_cons, List.cons.injEq] at same
    rw [same.1] at small
    omega
  have types_ := decodeRowTypes_pack types [] (zeros (padToWord (packNibbles types).length) ++ rest)
  simp only [List.nil_append, List.length_nil, Nat.mul_zero, ← List.append_assoc] at types_
  refine ⟨?_, by omega⟩
  unfold decodeRowHeader
  simp only
  rw [if_neg (unmarked rowDoneMarker ⟨rowDoneByte, List.replicate 7 rowDoneByte, rfl, by decide⟩),
    if_neg (unmarked rowPartMarker ⟨rowPartByte, List.replicate 7 rowPartByte, rfl, by decide⟩), ← packed,
    raiseIf_neg (by rw [List.length_append, length]; omega), ok_bind, types_, ok_bind, length]
  rfl

theorem decodeRowHeader_of_marker (marker : RowMarker) (count : Nat) :
    decodeRowHeader marker.bytes count = .ok (.inr marker, 8) := by
  cases marker <;> rfl

theorem decodeNames_encode {names : List Str} {bytes : Bytes}
    (encoded : RowsResponse.encodeNames names = .ok bytes) (before rest : Bytes) :
    RowsResponse.decodeNames (before ++ bytes ++ rest) names.length before.length =
      .ok (names, before.length + bytes.length) ∧ 8 * names.length ≤ bytes.length := by
  induction names generalizing bytes before with
  | nil =>
      cases encoded
      exact ⟨rfl, le_rfl⟩
  | cons name names ih =>
      obtain ⟨text, written, tail⟩ := bind_eq_ok.mp encoded
      obtain ⟨others, later, last⟩ := bind_eq_ok.mp tail
      cases last
      obtain ⟨first, _, long⟩ := decodeText_encode written .view (others ++ rest) "column name" .strict
      obtain ⟨following, room⟩ := ih later (before ++ text)
      have here : (before ++ (text ++ others) ++ rest).drop before.length = text ++ (others ++ rest) := by
        rw [List.append_assoc, List.append_assoc, List.drop_left]
      simp only [List.append_assoc, List.length_append] at following here
      constructor
      · simp only [RowsResponse.decodeNames, List.length_cons, List.append_assoc, here, first,
          ok_bind, following, List.length_append, Nat.add_assoc]
        rfl
      · simp only [List.length_append, List.length_cons]
        omega

namespace RowsResponse

variable {isoError : Str → Option String} {m : RowsResponse}

def wireTypes (m : RowsResponse) : Nat → List (List WireInput) → List (List ValueType)
  | _, [] => []
  | i, row :: rest => m.getRowTypes i row :: wireTypes m (i + 1) rest

def normaliseRow (types : List ValueType) (row : List WireInput) : List WireInput :=
  (List.zipWith normaliseCell types row).map .value

def normalised (m : RowsResponse) : RowsResponse :=
  let types := m.wireTypes 0 m.rows
  ⟨m.columnNames, types.headD [], types, List.zipWith normaliseRow types m.rows, m.hasMore⟩

theorem wireTypes_length (i : Nat) (rows : List (List WireInput)) :
    (m.wireTypes i rows).length = rows.length := by
  induction rows generalizing i with
  | nil => rfl
  | cons row rows ih => simp [wireTypes, ih]

theorem normalised_rows_length : m.normalised.rows.length = m.rows.length := by
  simp [normalised, wireTypes_length]

theorem checkRows_ok {count i : Nat} {rows : List (List WireInput)}
    (checked : m.checkRows count i rows = .ok ()) : ∀ row ∈ rows, row.length = count := by
  induction rows generalizing i with
  | nil => simp
  | cons row rows ih =>
      obtain ⟨_, width, tail⟩ := bind_eq_ok.mp checked
      obtain ⟨_, _, later⟩ := bind_eq_ok.mp tail
      intro other member
      rcases List.mem_cons.mp member with rfl | rest
      · exact not_not.mp (raiseIf_eq_ok.mp width)
      · exact ih later other rest

theorem decodeRows_encode {i : Nat} {rows : List (List WireInput)} {bytes : Bytes}
    (encoded : m.encodeRows isoError i rows = .ok bytes) (some_ : m.columnNames ≠ [])
    (widths : ∀ row ∈ rows, row.length = m.columnNames.length) (before : Bytes)
    (marker : RowMarker) (errors : Handler) {maxRows : Nat} (fuel : Nat)
    (done : List (List WireInput)) (types : List (List ValueType)) (few : done.length + rows.length < maxRows)
    (enough : bytes.length < fuel) :
    decodeRows (before ++ bytes ++ marker.bytes) m.columnNames maxRows errors fuel before.length
        done types =
      .ok ⟨m.columnNames, (types ++ m.wireTypes i rows).headD [], types ++ m.wireTypes i rows,
        done ++ List.zipWith normaliseRow (m.wireTypes i rows) rows, marker = .part⟩ := by
  induction rows generalizing i bytes before done types fuel with
  | nil =>
      cases encoded
      obtain ⟨fuel, rfl⟩ : ∃ k, fuel = k + 1 := ⟨fuel - 1, by simp only [List.length_nil] at enough; omega⟩
      have width : marker.bytes.length = 8 := by cases marker <;> rfl
      have inside : before.length < (before ++ [] ++ marker.bytes).length := by
        rw [List.append_nil, List.length_append, width]
        omega
      have here : (before ++ [] ++ marker.bytes).drop before.length = marker.bytes := by
        rw [List.append_nil, List.drop_left]
      rw [decodeRows, if_pos inside, here, decodeRowHeader_of_marker, ok_bind]
      simp only
      rw [raiseIf_neg (by rw [List.append_nil, List.length_append, width]; simp), ok_bind]
      simp [wireTypes]
      rfl
  | cons row rows ih =>
      obtain ⟨header, first, tail⟩ := bind_eq_ok.mp encoded
      obtain ⟨values, second, tail⟩ := bind_eq_ok.mp tail
      obtain ⟨others, later, last⟩ := bind_eq_ok.mp tail
      cases last
      obtain ⟨fuel, rfl⟩ : ∃ k, fuel = k + 1 := ⟨fuel - 1, by omega⟩
      obtain ⟨_, sized, cells⟩ := bind_eq_ok.mp second
      have same : row.length = (m.getRowTypes i row).length := not_not.mp (raiseIf_eq_ok.mp sized)
      have width : (m.getRowTypes i row).length = m.columnNames.length := by
        rw [← same]
        exact widths row (by simp)
      have typed : m.getRowTypes i row ≠ [] := by
        intro empty
        rw [empty] at width
        exact some_ (List.length_eq_zero_iff.mp width.symm)
      obtain ⟨head, long⟩ := decodeRowHeader_encode typed first (values ++ (others ++ marker.bytes))
      have body := decodeValues_encode .view same cells [] (others ++ marker.bytes) errors
      simp only [List.nil_append, List.length_nil, Nat.zero_add] at body
      simp only [List.length_cons, List.length_append] at few enough
      have following := ih later (fun r member => widths r (by simp [member]))
        (before ++ (header ++ values)) fuel (done ++ [normaliseRow (m.getRowTypes i row) row])
        (types ++ [m.getRowTypes i row])
        (by rw [List.length_append, List.length_singleton]; omega) (by omega)
      simp only [List.append_assoc, List.length_append, List.cons_append, List.nil_append]
        at following head body ⊢
      have inside : before.length < before.length +
          (header.length + (values.length + (others.length + marker.bytes.length))) := by omega
      have here : (before ++ (header ++ (values ++ (others ++ marker.bytes)))).drop
          (before.length + header.length) = values ++ (others ++ marker.bytes) := by
        rw [← List.drop_drop, List.drop_left, List.drop_left]
      rw [decodeRows]
      simp only [List.length_append]
      rw [if_pos inside, List.drop_left, ← width, head, ok_bind]
      simp only [here, decodeRowValues, body, ok_bind]
      rw [raiseIf_neg (by rw [List.length_singleton]; omega), ok_bind]
      simp only [Nat.add_assoc, wireTypes, List.zipWith_cons_cons] at following ⊢
      exact following

theorem encodeBody_ok {body : Bytes} (encoded : m.encodeBody isoError = .ok body) :
    m.columnNames.length ≤ maxColumnCount ∧ (∀ row ∈ m.rows, row.length = m.columnNames.length) ∧
      ∃ names rows, encodeNames m.columnNames = .ok names ∧
        m.encodeRows isoError 0 m.rows = .ok rows ∧
        body = toLE 8 m.columnNames.length ++ names ++ rows ++
          (if m.hasMore then RowMarker.part else RowMarker.done).bytes := by
  obtain ⟨_, small, tail⟩ := bind_eq_ok.mp encoded
  obtain ⟨_, _, tail⟩ := bind_eq_ok.mp tail
  obtain ⟨_, _, tail⟩ := bind_eq_ok.mp tail
  obtain ⟨_, _, tail⟩ := bind_eq_ok.mp tail
  obtain ⟨_, checked, tail⟩ := bind_eq_ok.mp tail
  obtain ⟨count, counted, tail⟩ := bind_eq_ok.mp tail
  obtain ⟨names, named, tail⟩ := bind_eq_ok.mp tail
  obtain ⟨rows, written, tail⟩ := bind_eq_ok.mp tail
  obtain ⟨marker, marked, last⟩ := bind_eq_ok.mp tail
  obtain ⟨_, _, rfl⟩ := encodeUint64_ok counted
  obtain ⟨_, _, rfl⟩ := encodeUint64_ok marked
  cases last
  refine ⟨not_lt.mp (raiseIf_eq_ok.mp small), checkRows_ok checked, names, rows, named, written, ?_⟩
  have ending : toLE 8 (fromLE (if m.hasMore then rowPartMarker else rowDoneMarker) : Int).toNat =
      (if m.hasMore then RowMarker.part else RowMarker.done).bytes := by
    cases m.hasMore <;> decide
  rw [ending, Int.toNat_natCast]

theorem decodeBody_encode {body : Bytes} (encoded : m.encodeBody isoError = .ok body)
    (some_ : m.columnNames ≠ []) {maxRows : Nat} (few : m.rows.length < maxRows)
    (errors : Handler) : decodeBody body 0 maxRows errors = .ok m.normalised := by
  obtain ⟨small, widths, names, rows, named, written, rfl⟩ := encodeBody_ok encoded
  have positive := List.length_pos_iff.mpr some_
  have bound : m.columnNames.length < 256 ^ 8 :=
    lt_of_le_of_lt small (by norm_num [maxColumnCount])
  generalize shape : (if m.hasMore then RowMarker.part else RowMarker.done) = marker
  have width : marker.bytes.length = 8 := by cases marker <;> rfl
  obtain ⟨first, room⟩ := decodeNames_encode named (toLE 8 m.columnNames.length)
    (rows ++ marker.bytes)
  have loop := decodeRows_encode written some_ widths
    (toLE 8 m.columnNames.length ++ names) marker errors
    ((toLE 8 m.columnNames.length ++ names ++ rows ++ marker.bytes).length + 1) [] []
    (by simpa using few) (by simp only [List.length_append]; omega)
  simp only [List.nil_append, List.append_assoc, List.length_append, toLE_length] at first loop ⊢
  have length : (toLE 8 m.columnNames.length ++ (names ++ (rows ++ marker.bytes))).length =
      8 + (names.length + (rows.length + 8)) := by
    simp only [List.length_append, toLE_length, width]
  have more : decide (marker = .part) = m.hasMore := by
    rw [← shape]
    cases m.hasMore <;> rfl
  rw [decodeBody, raiseIf_neg (by simp), ok_bind, decodeUint64_toLE bound, ok_bind,
    raiseIf_neg (not_lt.mpr small), ok_bind]
  simp only [length, wordSize]
  rw [raiseIf_neg (by omega), ok_bind, first, ok_bind]
  simp only [if_neg (show m.columnNames.length ≠ 0 by omega)]
  rw [more, width] at loop
  exact loop

theorem decodeBody_encode_empty {body : Bytes} (encoded : m.encodeBody isoError = .ok body)
    (none : m.columnNames = []) (maxRows : Nat) (errors : Handler) :
    decodeBody body 0 maxRows errors = .ok m.normalised := by
  have empty : m.rows = [] := by
    obtain ⟨_, _, tail⟩ := bind_eq_ok.mp encoded
    obtain ⟨_, _, tail⟩ := bind_eq_ok.mp tail
    obtain ⟨_, _, tail⟩ := bind_eq_ok.mp tail
    obtain ⟨_, checked, _⟩ := bind_eq_ok.mp tail
    by_contra some_
    exact raiseIf_eq_ok.mp checked ⟨by rw [none]; rfl, some_⟩
  obtain ⟨_, _, names, rows, named, written, rfl⟩ := encodeBody_ok encoded
  rw [none] at named
  rw [empty] at written
  cases named
  cases written
  have normal : m.normalised = ⟨[], [], [], [], m.hasMore⟩ := by simp [normalised, empty, none, wireTypes]
  rw [normal, none]
  cases m.hasMore <;> rfl

theorem wireTypes_at {i k : Nat} {rows : List (List WireInput)} {row : List WireInput}
    (found : rows[k]? = some row) : (m.wireTypes i rows)[k]? = some (m.getRowTypes (i + k) row) := by
  induction rows generalizing i k with
  | nil => cases found
  | cons first rows ih =>
      cases k with
      | zero =>
          cases found
          rfl
      | succ k =>
          have later := ih (i := i + 1) (k := k) found
          rw [wireTypes, List.getElem?_cons_succ, later, Nat.add_right_comm, Nat.add_assoc]

theorem encodeRows_width {i k : Nat} {rows : List (List WireInput)} {bytes : Bytes}
    {row : List WireInput} (encoded : m.encodeRows isoError i rows = .ok bytes)
    (found : rows[k]? = some row) : (m.getRowTypes (i + k) row).length = row.length := by
  induction rows generalizing i k bytes with
  | nil => cases found
  | cons first rows ih =>
      obtain ⟨_, _, tail⟩ := bind_eq_ok.mp encoded
      obtain ⟨_, values, tail⟩ := bind_eq_ok.mp tail
      obtain ⟨_, later, _⟩ := bind_eq_ok.mp tail
      cases k with
      | zero =>
          cases found
          obtain ⟨_, sized, _⟩ := bind_eq_ok.mp values
          exact (not_not.mp (raiseIf_eq_ok.mp sized)).symm
      | succ k =>
          rw [← ih later found, Nat.add_right_comm, Nat.add_assoc]

/-- Decoding undoes encoding, wherever the types came from. -/
theorem rows_round_trip (isoError : Str → Option String) (m : RowsResponse) (body : Bytes)
    (encoded : m.encodeBody isoError = .ok body) (maxRows : Nat) (few : m.rows.length < maxRows)
    (errors : Handler) :
    let types := m.wireTypes 0 m.rows
    decodeBody body 0 maxRows errors = .ok ⟨m.columnNames, types.headD [], types,
        List.zipWith normaliseRow types m.rows, m.hasMore⟩ ∧
      types.length = m.rows.length ∧
      ∀ i row, m.rows[i]? = some row → types[i]? = some (m.getRowTypes i row) ∧
        (m.getRowTypes i row).length = row.length := by
  intro types
  have back : decodeBody body 0 maxRows errors = .ok m.normalised := by
    by_cases none : m.columnNames = []
    · exact decodeBody_encode_empty encoded none maxRows errors
    · exact decodeBody_encode encoded none few errors
  refine ⟨back, wireTypes_length 0 m.rows, fun i row found => ?_⟩
  obtain ⟨_, _, _, _, _, written, _⟩ := encodeBody_ok encoded
  have width := encodeRows_width written found
  rw [Nat.zero_add] at width
  refine ⟨?_, width⟩
  rw [wireTypes_at found, Nat.zero_add]

theorem rows_round_trip_null :
    decodeBody ([1, 0, 0, 0, 0, 0, 0, 0] ++ [97, 0, 0, 0, 0, 0, 0, 0] ++ [5, 0, 0, 0, 0, 0, 0, 0] ++
        zeros 8 ++ rowDoneMarker) 0 2 .strict =
      .ok ⟨[[⟨97, by decide⟩]], [.null], [[.null]], [[.value .none]], false⟩ :=
  (rows_round_trip (fun _ => none) ⟨[[⟨97, by decide⟩]], [.text], [], [[.value .none]], false⟩ _
    (by decide) 2 (by decide) .strict).1

end RowsResponse

section Frame

variable {isoError : Str → Option String} {className : String} {msgType schema : Nat}
  {body f : Bytes}

theorem Header.encode_length (h : Header) : h.encode.length = headerSize := by
  simp [Header.encode, headerSize]

theorem Header.checkRange_ok {field : String} {value : Int} {bits : Nat}
    (checked : Header.checkRange field value bits = .ok ()) : 0 ≤ value ∧ value < 2 ^ bits :=
  not_not.mp (raiseIf_eq_ok.mp checked)

theorem encodeFrame_ok (encoded : encodeFrame className msgType schema (.ok body) = .ok f) :
    8 * (body.length / 8) = body.length ∧ body.length / 8 < 256 ^ 4 ∧ msgType < 256 ∧
      schema < 256 ∧ f = Header.encode ⟨body.length / 8, msgType, schema, 0⟩ ++ body := by
  obtain ⟨_, same, tail⟩ := bind_eq_ok.mp encoded
  cases same
  obtain ⟨_, aligned, tail⟩ := bind_eq_ok.mp tail
  obtain ⟨header, built, last⟩ := bind_eq_ok.mp tail
  obtain ⟨_, _, tail⟩ := bind_eq_ok.mp built
  obtain ⟨_, size, tail⟩ := bind_eq_ok.mp tail
  obtain ⟨_, type, tail⟩ := bind_eq_ok.mp tail
  obtain ⟨_, version, same⟩ := bind_eq_ok.mp tail
  cases same
  cases last
  have whole : body.length % 8 = 0 := not_not.mp (raiseIf_eq_ok.mp aligned)
  have words := (Header.checkRange_ok size).2
  have types := (Header.checkRange_ok type).2
  have versions := (Header.checkRange_ok version).2
  simp only [wordSize] at words
  exact ⟨by omega, by omega, by omega, by omega, rfl⟩

theorem frameHeader_encode {sizeWords : Nat} (size : sizeWords < 256 ^ 4)
    (type : msgType < 256) (version : schema < 256) (body : Bytes) :
    frameHeader (Header.encode ⟨sizeWords, msgType, schema, 0⟩ ++ body) =
      ⟨sizeWords, msgType, schema, 0⟩ := by
  have one (n : Nat) (byte : n < 256) : (UInt8.ofNat n).toNat = n := by
    rw [UInt8.toNat_ofNat']
    omega
  have words : (toLE 4 sizeWords).length = 4 := toLE_length 4 sizeWords
  have size' : (Header.encode ⟨sizeWords, msgType, schema, 0⟩ ++ body).take 4 = toLE 4 sizeWords := by
    simp only [Header.encode, List.append_assoc]
    exact List.take_left' words
  have rest : (Header.encode ⟨sizeWords, msgType, schema, 0⟩ ++ body).drop 4 =
      UInt8.ofNat msgType :: UInt8.ofNat schema :: 0 :: 0 :: body := by
    simp only [Header.encode, List.append_assoc]
    rw [List.drop_left' words]
    rfl
  have fourth : (Header.encode ⟨sizeWords, msgType, schema, 0⟩ ++ body).getD 4 0 =
      UInt8.ofNat msgType := by
    have found := congrArg (List.getD · 0 0) rest
    simpa [List.getD_eq_getElem?_getD] using found
  have fifth : (Header.encode ⟨sizeWords, msgType, schema, 0⟩ ++ body).getD 5 0 =
      UInt8.ofNat schema := by
    have found := congrArg (List.getD · 1 0) rest
    simpa [List.getD_eq_getElem?_getD] using found
  have spare : ((Header.encode ⟨sizeWords, msgType, schema, 0⟩ ++ body).drop 6).take 2 = [0, 0] := by
    have found := congrArg (fun s => (s.drop 2).take 2) rest
    simpa [List.drop_drop] using found
  rw [frameHeader, size', fourth, fifth, spare, fromLE_toLE 4 sizeWords size, one _ type,
    one _ version]
  rfl

theorem frameBody_encode (h : Header) (body : Bytes) : frameBody (h.encode ++ body) = body :=
  List.drop_left' h.encode_length

theorem size_frameHeader (f : Bytes) : wire.size f = headerSize + (frameHeader f).bodySize := rfl

theorem decodeFrame_encode {m : Message} (encoded : m.encode isoError = .ok f)
    (versioned : m.getSchema = schema) :
    ∃ body, m.encodeBody isoError = .ok body ∧
      ∀ (config : Config) (version : Option Nat), f.length ≤ config.maxMessageSize →
        MessageDecoder.decodeFrame config version f = MessageDecoder.decodeBody config version
          ⟨body.length / 8, m.typeCode, schema, 0⟩ body := by
  obtain ⟨body, written, _⟩ := bind_eq_ok.mp encoded
  have framed : encodeFrame m.className m.typeCode schema (.ok body) = .ok f := by
    rw [← written, ← versioned]
    exact encoded
  obtain ⟨aligned, size, type, small, rfl⟩ := encodeFrame_ok framed
  have header := frameHeader_encode size type small body
  have length : (Header.encode ⟨body.length / 8, m.typeCode, schema, 0⟩ ++ body).length =
      headerSize + body.length := by
    rw [List.length_append, Header.encode_length]
  refine ⟨body, written, fun config version within => ?_⟩
  have legal : wire.IsFrame config.maxMessageSize
      (Header.encode ⟨body.length / 8, m.typeCode, schema, 0⟩ ++ body) := by
    refine ⟨?_, within⟩
    rw [length, size_frameHeader, header, Header.bodySize, wordSize, Nat.mul_comm, aligned]
  rw [MessageDecoder.decodeFrame_eq legal, frameBody_encode, header]

theorem decodeFrame_encode_response {m : Response}
    (encoded : (Message.response m).encode isoError = .ok f) (versioned : m.getSchema = schema)
    (supported : schema ≤ MessageDecoder.maxSchema false m.type.code) :
    ∃ body, m.encodeBody isoError = .ok body ∧
      ∀ (config : Config) (version : Option Nat), config.isRequest = false →
        f.length ≤ config.maxMessageSize → MessageDecoder.decodeFrame config version f =
          Message.response <$> MessageDecoder.decodeResponseBody config version m.type body schema := by
  obtain ⟨body, written, decoded⟩ := decodeFrame_encode encoded versioned
  refine ⟨body, written, fun config version response small => ?_⟩
  have passed : MessageDecoder.checkSchema false
      ⟨body.length / 8, (Message.response m).typeCode, schema, 0⟩ = .ok () :=
    raiseIf_neg (not_lt.mpr supported)
  rw [decoded config version small,
    MessageDecoder.decodeBody_response response version (t := m.type) rfl, passed, ok_bind]

theorem decodeFrame_encode_request {m : Request}
    (encoded : (Message.request m).encode isoError = .ok f) (versioned : m.getSchema = schema)
    (known : m.type ∈ requestTypes)
    (supported : schema ≤ MessageDecoder.maxSchema true m.type.code) :
    ∃ body, m.encodeBody isoError = .ok body ∧
      ∀ (config : Config) (version : Option Nat), config.isRequest = true →
        f.length ≤ config.maxMessageSize → MessageDecoder.decodeFrame config version f =
          Message.request <$> MessageDecoder.decodeRequestBody m.type body schema := by
  obtain ⟨body, written, decoded⟩ := decodeFrame_encode encoded versioned
  refine ⟨body, written, fun config version request small => ?_⟩
  have passed : MessageDecoder.checkSchema true
      ⟨body.length / 8, (Message.request m).typeCode, schema, 0⟩ = .ok () :=
    raiseIf_neg (not_lt.mpr supported)
  rw [decoded config version small,
    MessageDecoder.decodeBody_request request version known rfl, passed, ok_bind]

theorem decodeFrame_encode_rows {config : Config} (response : config.isRequest = false)
    {m : RowsResponse}
    (encoded : (Message.response (.rows m)).encode isoError = .ok f) (some_ : m.columnNames ≠ [])
    (few : m.rows.length < config.maxRows) (small : f.length ≤ config.maxMessageSize)
    (version : Option Nat) :
    MessageDecoder.decodeFrame config version f = .ok (.response (.rows m.normalised)) := by
  obtain ⟨body, written, decoded⟩ :=
    decodeFrame_encode_response encoded (show Response.getSchema _ = 0 from rfl) (Nat.zero_le _)
  have back := RowsResponse.decodeBody_encode written some_ few config.textErrors
  rw [decoded config version response small]
  simp only [Response.type, MessageDecoder.decodeResponseBody, back]
  rfl

theorem encodeMessage_ok {m : Message} {cap : Nat}
    (encoded : encodeMessage isoError m cap = .ok f) :
    m.encode isoError = .ok f ∧ f.length ≤ cap := by
  obtain ⟨frame, written, tail⟩ := bind_eq_ok.mp encoded
  obtain ⟨_, small, last⟩ := bind_eq_ok.mp tail
  cases last
  exact ⟨written, not_lt.mp (raiseIf_eq_ok.mp small)⟩

end Frame

end DqliteWire
