import DqliteWire.RoundTrip

/-! Encoding after decoding: an accepted ROWS body is written back up to the bytes its reader
ignores. -/

namespace DqliteWire

open WireLib WireLib.Utf8

/-- The bytes of the cell at the front of `data` that are written back: not the padding, not the
word of a NULL, not that of a BOOLEAN other than 0 and 1. -/
def cellMask (t : ValueType) (data : Bytes) : Bytes :=
  match t with
  | .integer | .float | .unixtime => ones 8
  | .text | .iso8601 => textMask data
  | .blob => blobMask data
  | .null => blanks 8
  | .boolean => if fromLE (data.take 8) ≤ 1 then ones 8 else blanks 8

def cellsMask : List ValueType → Bytes → Bytes
  | [], _ => []
  | t :: types, data => cellMask t data ++ cellsMask types (data.drop (cellMask t data).length)

/-- The type codes of `count` columns, two a byte; the upper half of an odd last byte is ignored. -/
def nibbleMask (count : Nat) : Bytes :=
  ones (count / 2) ++ if count % 2 = 1 then [0x0F] else []

def headerMask (count : Nat) : Bytes :=
  nibbleMask count ++ blanks (padToWord ((count + 1) / 2))

def IsoCell (isoError : Str → Option String) (t : ValueType) (value : WireInput) : Prop :=
  t = .iso8601 → ∀ s, value = .value (.str s) → isoError s = none

section Cells

variable {isoError : Str → Option String} {source : Source} {data : Bytes} {t : ValueType}
  {value : WireValue} {n : Nat}

theorem decodeValue_inferred {errors : Handler}
    (decoded : decodeValue source data t errors = .ok (value, n)) (plain : t ≠ .iso8601)
    (untimed : t ≠ .unixtime) : inferValueType (.value value) = t := by
  cases t with
  | iso8601 => exact absurd rfl plain
  | unixtime => exact absurd rfl untimed
  | integer | float | blob | null | boolean | text =>
      obtain ⟨_, _, last⟩ := bind_eq_ok.mp decoded
      cases last
      rfl

theorem decodeValue_none {errors : Handler}
    (decoded : decodeValue source data t errors = .ok (value, n)) :
    value = .none ↔ t = .null := by
  cases t with
  | integer | float | text | blob | null | unixtime | iso8601 | boolean =>
      obtain ⟨_, _, last⟩ := bind_eq_ok.mp decoded
      cases last
      simp

theorem encodeValue_inferred (value : WireInput) :
    encodeValue isoError value none = encodeValue isoError value (some (inferValueType value)) := by
  unfold encodeValue
  split
  · rfl
  · rfl

variable (isoError) in
theorem decodeValue_rewrites (decoded : decodeValue source data t .strict = .ok (value, n))
    (iso : IsoCell isoError t (.value value)) :
    ∃ bytes, encodeValue isoError (.value value) (some t) = .ok (bytes, t) ∧
      Rewrites (cellMask t data) data n bytes := by
  cases t with
  | integer | unixtime =>
      obtain ⟨number, read, last⟩ := bind_eq_ok.mp decoded
      obtain ⟨word, wordRead, same⟩ := bind_eq_ok.mp read
      cases same
      cases last
      obtain ⟨room, bound, bytes⟩ := decodeWord_ok wordRead
      refine ⟨toLE 8 word, ?_, .of_eq room bytes⟩
      simp only [encodeValue, ok_bind, Option.getD_some, encodeIntegerValue, encodeInt64_signed bound]
      rfl
  | float =>
      obtain ⟨bits, read, last⟩ := bind_eq_ok.mp decoded
      obtain ⟨word, wordRead, same⟩ := bind_eq_ok.mp read
      cases same
      cases last
      obtain ⟨room, bound, bytes⟩ := decodeWord_ok wordRead
      have back : (BitVec.ofNat 64 word).toNat = word := by
        rw [BitVec.toNat_ofNat, Nat.mod_eq_of_lt (lt_of_lt_of_eq bound (by norm_num))]
      refine ⟨toLE 8 word, ?_, .of_eq room bytes⟩
      simp only [encodeValue, ok_bind, Option.getD_some, encodeFloatValue, encodeDouble, back]
      rfl
  | text =>
      obtain ⟨⟨text, consumed⟩, read, last⟩ := bind_eq_ok.mp decoded
      cases last
      obtain ⟨bytes, encoded, rewrites⟩ := decodeText_rewrites read ValueType.text.name
      refine ⟨bytes, ?_, rewrites⟩
      simp only [encodeValue, ok_bind, Option.getD_some, encodeTextValue, reduceCtorEq, if_false,
        encoded]
      rfl
  | iso8601 =>
      obtain ⟨⟨text, consumed⟩, read, last⟩ := bind_eq_ok.mp decoded
      cases last
      obtain ⟨bytes, encoded, rewrites⟩ := decodeText_rewrites read ValueType.iso8601.name
      refine ⟨bytes, ?_, rewrites⟩
      simp only [encodeValue, ok_bind, Option.getD_some, encodeTextValue, if_true, iso rfl text rfl,
        encoded]
      rfl
  | blob =>
      obtain ⟨⟨content, consumed⟩, read, last⟩ := bind_eq_ok.mp decoded
      cases last
      obtain ⟨bytes, encoded, small, rewrites⟩ := decodeBlob_rewrites read
      refine ⟨bytes, ?_, rewrites⟩
      have typed : ¬ isBytesLike (.value (.bytes content)) = false := by simp [isBytesLike]
      simp only [encodeValue, ok_bind, Option.getD_some, encodeBlobValue, raiseIf_neg typed,
        blobContent, raiseIf_neg (not_lt.mpr small), encoded]
      rfl
  | null =>
      obtain ⟨word, read, last⟩ := bind_eq_ok.mp decoded
      cases last
      obtain ⟨room, _, _⟩ := decodeWord_ok read
      exact ⟨zeros nullCellWidth, rfl, .padding room⟩
  | boolean =>
      obtain ⟨word, read, last⟩ := bind_eq_ok.mp decoded
      cases last
      obtain ⟨room, bound, bytes⟩ := decodeWord_ok read
      have raw : fromLE (data.take 8) = word := by rw [bytes, fromLE_toLE 8 word bound]
      have written : encodeValue isoError (.value (.bool (word != 0))) (some .boolean) =
          .ok (toLE 8 (if word = 0 then 0 else 1), .boolean) := by
        by_cases zero : word = 0
        · rw [if_pos zero, zero]
          rfl
        · have true_ : (word != 0) = true := by simpa using zero
          rw [if_neg zero, true_]
          rfl
      refine ⟨_, written, ?_⟩
      rw [cellMask, raw]
      by_cases known : word ≤ 1
      · have same : (if word = 0 then 0 else 1) = word := by split <;> omega
        rw [if_pos known, same]
        exact .of_eq room bytes
      · rw [if_neg known]
        refine .replaced room (toLE_length 8 _) fun zero => ?_
        rw [zero] at raw
        have none : fromLE (blanks 8) = 0 := by decide
        omega

theorem decodeValues_rewrites {types : List ValueType} {values : List WireValue} {offset last : Nat}
    (decoded : decodeValues source .strict data offset types = .ok (values, last))
    (iso : ∀ cell ∈ types.zip (values.map .value), IsoCell isoError cell.1 cell.2) :
    ∃ bytes, encodeCells isoError ((values.map .value).zip types) = .ok bytes ∧
      Rewrites (cellsMask types (data.drop offset)) (data.drop offset) bytes.length bytes ∧
      last = offset + bytes.length := by
  induction types generalizing offset values with
  | nil =>
      cases decoded
      exact ⟨[], rfl, .nil _, rfl⟩
  | cons t types ih =>
      obtain ⟨⟨value, consumed⟩, read, tail⟩ := bind_eq_ok.mp decoded
      obtain ⟨⟨others, after⟩, later, done⟩ := bind_eq_ok.mp tail
      cases done
      obtain ⟨cell, written, first⟩ := decodeValue_rewrites isoError read (iso (t, .value value) (by simp))
      obtain ⟨bytes, rest, second, rfl⟩ := ih later fun cell member => iso cell (by simp [member])
      refine ⟨cell ++ bytes, ?_, ?_, ?_⟩
      · rw [List.map_cons, List.zip_cons_cons, encodeCells, written, ok_bind, rest]
        rfl
      · rw [cellsMask, first.mask_length, List.length_append, first.length_eq]
        rw [← List.drop_drop] at second
        exact first.append second
      · rw [List.length_append, first.length_eq, Nat.add_assoc]

theorem decodeValues_length {errors : Handler} {types : List ValueType} {values : List WireValue}
    {offset last : Nat} (decoded : decodeValues source errors data offset types = .ok (values, last)) :
    values.length = types.length := by
  induction types generalizing offset values with
  | nil =>
      cases decoded
      rfl
  | cons t types ih =>
      obtain ⟨⟨value, consumed⟩, _, tail⟩ := bind_eq_ok.mp decoded
      obtain ⟨⟨others, after⟩, later, done⟩ := bind_eq_ok.mp tail
      cases done
      rw [List.length_cons, List.length_cons, ih later]

/-- The types of a decoded row already say NULL where the row does. -/
theorem decodeValues_nullOverride {errors : Handler} {types : List ValueType}
    {values : List WireValue} {offset last : Nat}
    (decoded : decodeValues source errors data offset types = .ok (values, last)) :
    RowsResponse.nullOverride types (values.map .value) = types := by
  induction types generalizing offset values with
  | nil => rfl
  | cons t types ih =>
      obtain ⟨⟨value, consumed⟩, read, tail⟩ := bind_eq_ok.mp decoded
      obtain ⟨⟨others, after⟩, later, done⟩ := bind_eq_ok.mp tail
      cases done
      have absent := decodeValue_none read
      rw [List.map_cons, RowsResponse.nullOverride, ih later]
      by_cases null : value = .none
      · rw [if_pos (congrArg _ null), absent.mp null]
      · rw [if_neg fun same => null (WireInput.value.inj same)]

end Cells

section Header

variable {data : Bytes} {count : Nat} {types : List ValueType}

theorem code_of_nibble {nibble : Nat} {t : ValueType} (known : nibbleToValueType nibble = some t) :
    t.code = nibble := by
  unfold nibbleToValueType ValueType.ofCode at known
  split at known <;> cases known <;> rfl

theorem checkTypeCodes_ok (i : Nat) (types : List ValueType) : checkTypeCodes i types = .ok () := by
  induction types generalizing i with
  | nil => rfl
  | cons t types ih =>
      have small : ¬ 15 < t.code := not_lt.mpr (le_trans t.code_le (by decide))
      have known : ¬ ValueType.ofCode t.code = none := by simp [ValueType.ofCode_code]
      rw [checkTypeCodes, raiseIf_neg small, ok_bind, raiseIf_neg known, ok_bind, ih]

theorem decodeRowTypes_cons {i : Nat} (decoded : decodeRowTypes data i (count + 1) = .ok types) :
    ∃ byte t rest, data[i / 2]? = some byte ∧ types = t :: rest ∧
      t.code = (if i % 2 = 0 then byte.toNat % 16 else byte.toNat / 16 % 16) ∧
      decodeRowTypes data (i + 1) count = .ok rest := by
  obtain ⟨byte, found, tail⟩ := bind_eq_ok.mp decoded
  have at_ : data[i / 2]? = some byte := by
    unfold byteAt at found
    split at found <;> cases found
    assumption
  simp only at tail
  split at tail
  · cases tail
  · rename_i t known
    obtain ⟨rest, later, last⟩ := bind_eq_ok.mp tail
    cases last
    exact ⟨byte, t, rest, at_, rfl, code_of_nibble known, later⟩

theorem decodeRowTypes_length {i : Nat} (decoded : decodeRowTypes data i count = .ok types) :
    types.length = count := by
  induction count generalizing i types with
  | zero =>
      cases decoded
      rfl
  | succ count ih =>
      obtain ⟨_, _, _, _, rfl, _, later⟩ := decodeRowTypes_cons decoded
      rw [List.length_cons, ih later]

theorem decodeRowTypes_rewrites {k : Nat} (decoded : decodeRowTypes data (2 * k) count = .ok types) :
    Rewrites (nibbleMask count) (data.drop k) ((count + 1) / 2) (packNibbles types) := by
  induction types using packNibbles.induct generalizing k count with
  | case1 =>
      obtain rfl : 0 = count := decodeRowTypes_length decoded
      exact .nil _
  | case2 low =>
      obtain rfl : 1 = count := decodeRowTypes_length decoded
      obtain ⟨byte, t, rest, found, shape, code, _⟩ := decodeRowTypes_cons decoded
      cases shape
      rw [Nat.mul_div_cancel_left k (by decide)] at found
      rw [if_pos (Nat.mul_mod_right 2 k)] at code
      obtain ⟨inside, rfl⟩ := List.getElem?_eq_some_iff.mp found
      refine .nibble (List.drop_eq_getElem_cons inside) ?_
      rw [packNibbles, code]
      congr 1
      apply UInt8.toNat_inj.mp
      rw [UInt8.toNat_and]
      have low_ : (0x0F : UInt8).toNat = 2 ^ 4 - 1 := rfl
      rw [low_, Nat.and_two_pow_sub_one_eq_mod, UInt8.toNat_ofNat']
      omega
  | case3 low high more ih =>
      obtain rfl : more.length + 1 + 1 = count := decodeRowTypes_length decoded
      obtain ⟨byte, t, rest, found, shape, first, later⟩ := decodeRowTypes_cons decoded
      cases shape
      obtain ⟨byte', t, rest, found', shape, second, following⟩ := decodeRowTypes_cons later
      cases shape
      have half : (2 * k + 1) / 2 = k := by omega
      rw [Nat.mul_div_cancel_left k (by decide)] at found
      rw [half, found] at found'
      cases found'
      rw [if_pos (Nat.mul_mod_right 2 k)] at first
      rw [if_neg (by omega)] at second
      have whole : UInt8.ofNat (high.code * 16 + low.code) = byte := by
        have bound := byte.toNat_lt
        apply UInt8.toNat_inj.mp
        rw [packed_toNat, first, second]
        omega
      obtain ⟨inside, at_⟩ := List.getElem?_eq_some_iff.mp found
      have byteRewrites : Rewrites (ones 1) (data.drop k) 1 [byte] := by
        refine .of_eq (by rw [List.length_drop]; omega) ?_
        rw [List.drop_eq_getElem_cons inside, at_]
        rfl
      have next : 2 * k + 1 + 1 = 2 * (k + 1) := by omega
      rw [next] at following
      have tail := ih following
      rw [← List.drop_drop] at tail
      have both := byteRewrites.append tail
      have mask : nibbleMask (more.length + 1 + 1) = ones 1 ++ nibbleMask more.length := by
        have halves : (more.length + 1 + 1) / 2 = 1 + more.length / 2 := by omega
        have odd : (more.length + 1 + 1) % 2 = more.length % 2 := by omega
        rw [nibbleMask, nibbleMask, halves, odd, ← List.append_assoc]
        simp only [ones, List.replicate_add]
      have size : (more.length + 1 + 1 + 1) / 2 = 1 + (more.length + 1) / 2 := by omega
      rw [mask, size, packNibbles, whole]
      exact both

theorem decodeRowHeader_rewrites {consumed : Nat} (positive : 0 < count)
    (decoded : decodeRowHeader data count = .ok (.inl types, consumed)) :
    types.length = count ∧ ∃ header, encodeRowHeader types = .ok header ∧
      Rewrites (headerMask count) data consumed header := by
  unfold decodeRowHeader at decoded
  simp only at decoded
  split at decoded
  · cases decoded
  · split at decoded
    · cases decoded
    · obtain ⟨_, enough, rest⟩ := bind_eq_ok.mp decoded
      obtain ⟨read, typed, last⟩ := bind_eq_ok.mp rest
      cases last
      have length := decodeRowTypes_length typed
      have room := not_lt.mp (raiseIf_eq_ok.mp enough)
      have some_ : types ≠ [] := by
        rintro rfl
        rw [List.length_nil] at length
        omega
      have packed := packNibbles_length types
      rw [length] at packed
      have nibbles := decodeRowTypes_rewrites (k := 0) typed
      rw [List.drop_zero] at nibbles
      have padding : padToWord ((count + 1) / 2) ≤ (data.drop ((count + 1) / 2)).length := by
        rw [List.length_drop]
        omega
      refine ⟨length, packNibbles types ++ zeros (padToWord (packNibbles types).length), ?_, ?_⟩
      · rw [encodeRowHeader, if_neg some_, checkTypeCodes_ok, ok_bind]
        rfl
      · rw [packed]
        exact nibbles.append (.padding padding)

end Header

namespace RowsResponse

def namesMask : Nat → Bytes → Bytes
  | 0, _ => []
  | n + 1, data => textMask data ++ namesMask n (data.drop (textMask data).length)

def rowMask (types : List ValueType) (data : Bytes) : Bytes :=
  headerMask types.length ++ cellsMask types (data.drop (headerMask types.length).length)

def rowsMask : List (List ValueType) → Bytes → Bytes
  | [], _ => ones 8
  | types :: rest, data => rowMask types data ++ rowsMask rest (data.drop (rowMask types data).length)

def bodyMask (r : RowsResponse) (data : Bytes) : Bytes :=
  let start := ones 8 ++ namesMask r.columnNames.length (data.drop 8)
  start ++ rowsMask r.rowTypes (data.drop start.length)

def IsoChecked (isoError : Str → Option String) (r : RowsResponse) : Prop :=
  ∀ row ∈ r.rowTypes.zip r.rows, ∀ cell ∈ row.1.zip row.2, IsoCell isoError cell.1 cell.2

variable {isoError : Str → Option String} {view : Bytes} {count offset : Nat} {errors : Handler}
  {allTypes : List (List ValueType)} {rows : List (List WireValue)} {marker : RowMarker}

theorem getRowTypes_read {m : RowsResponse} {before rest : List (List ValueType)}
    {types : List ValueType} {row : List WireInput} (typed : m.rowTypes = before ++ types :: rest)
    (null : nullOverride types row = types) : m.getRowTypes before.length row = types := by
  have here : m.rowTypes ≠ [] ∧ before.length < m.rowTypes.length := by simp [typed]
  have at_ : m.rowTypes.getD before.length [] = types := by
    simp [typed, List.getD_eq_getElem?_getD]
  rw [getRowTypes, if_pos here, at_, null]

theorem RowsRead.wireTypes (read : RowsRead view count errors offset allTypes rows marker)
    {m : RowsResponse} {before : List (List ValueType)} (typed : m.rowTypes = before ++ allTypes) :
    m.wireTypes before.length (rows.map (·.map .value)) = allTypes := by
  induction read generalizing before with
  | marker => rfl
  | row header cells rest ih =>
      have null := decodeValues_nullOverride cells
      have later := ih (show m.rowTypes = (before ++ [_]) ++ _ by rw [typed, List.append_assoc]; rfl)
      rw [List.length_append] at later
      rw [List.map_cons, RowsResponse.wireTypes, getRowTypes_read typed null]
      exact congrArg _ later

theorem RowsRead.checkRows (read : RowsRead view count errors offset allTypes rows marker)
    (positive : 0 < count) {m : RowsResponse} {before : List (List ValueType)}
    (typed : m.rowTypes = before ++ allTypes) :
    m.checkRows count before.length (rows.map (·.map .value)) = .ok () := by
  induction read generalizing before with
  | marker => rfl
  | row header cells rest ih =>
      obtain ⟨width, _⟩ := decodeRowHeader_rewrites positive header
      have length := (decodeValues_length cells).trans width
      have later := ih (show m.rowTypes = (before ++ [_]) ++ _ by rw [typed, List.append_assoc]; rfl)
      rw [List.length_append] at later
      rw [List.map_cons, RowsResponse.checkRows, raiseIf_neg (by rw [List.length_map]; simpa using length),
        ok_bind, raiseIf_neg (by simp [typed, List.getD_eq_getElem?_getD, width]), ok_bind]
      exact later

theorem RowsRead.rewrites (read : RowsRead view count .strict offset allTypes rows marker)
    (positive : 0 < count)
    (iso : ∀ row ∈ allTypes.zip (rows.map (·.map .value)), ∀ cell ∈ row.1.zip row.2,
      IsoCell isoError cell.1 cell.2) :
    ∃ bytes, (∀ (m : RowsResponse) (i : Nat), m.wireTypes i (rows.map (·.map .value)) = allTypes →
        m.encodeRows isoError i (rows.map (·.map .value)) = .ok bytes) ∧
      Rewrites (rowsMask allTypes (view.drop offset)) (view.drop offset) (bytes.length + 8)
        (bytes ++ marker.bytes) ∧
      offset + bytes.length + 8 = view.length := by
  induction read with
  | @marker offset marker header finish =>
      obtain ⟨_, room, word⟩ := decodeRowHeader_marker header
      exact ⟨[], fun _ _ _ => rfl, .of_eq room word, finish⟩
  | @row offset consumed width types values allTypes rows marker header cells rest ih =>
      obtain ⟨bytes, written, later, finish⟩ := ih fun row member => iso row (by simp [member])
      obtain ⟨length, head, encoded, first⟩ := decodeRowHeader_rewrites positive header
      obtain ⟨body, cellsEncoded, second, last⟩ := decodeValues_rewrites cells (iso (types, _) (by simp))
      have sized := decodeValues_length cells
      rw [Nat.zero_add] at last
      rw [List.drop_zero, ← List.drop_drop] at second
      rw [← length] at first
      have row := first.append second
      have mask : rowMask types (view.drop offset) = headerMask types.length ++
          cellsMask types ((view.drop offset).drop consumed) := by
        rw [rowMask, first.mask_length]
      rw [← mask] at row
      rw [last, Nat.add_assoc, ← List.drop_drop] at later
      have all := row.append later
      refine ⟨head ++ body ++ bytes, fun m i typed => ?_, ?_, ?_⟩
      · obtain ⟨types_, others⟩ := List.cons.inj typed
        rw [List.map_cons, RowsResponse.encodeRows, types_, encoded, ok_bind, encodeRowValues,
          raiseIf_neg (by rw [List.length_map]; exact not_not.mpr sized), ok_bind, cellsEncoded,
          ok_bind, written m (i + 1) others]
        rfl
      · have size : (head ++ body ++ bytes).length + 8 = consumed + body.length + (bytes.length + 8) := by
          simp only [List.length_append, first.length_eq]
          omega
        rw [rowsMask, row.mask_length, size, List.append_assoc (head ++ body)]
        exact all
      · simp only [List.length_append, first.length_eq]
        omega

theorem decodeNames_rewrites {names : List Str} {last : Nat}
    (decoded : decodeNames view count offset = .ok (names, last)) :
    names.length = count ∧ ∃ bytes, encodeNames names = .ok bytes ∧
      Rewrites (namesMask count (view.drop offset)) (view.drop offset) bytes.length bytes ∧
      last = offset + bytes.length := by
  induction count generalizing offset names with
  | zero =>
      cases decoded
      exact ⟨rfl, [], rfl, .nil _, rfl⟩
  | succ count ih =>
      obtain ⟨⟨name, consumed⟩, read, tail⟩ := bind_eq_ok.mp decoded
      obtain ⟨⟨others, after⟩, later, done⟩ := bind_eq_ok.mp tail
      cases done
      obtain ⟨text, written, first⟩ := decodeText_rewrites read "column name"
      obtain ⟨length, bytes, rest, second, rfl⟩ := ih later
      refine ⟨by rw [List.length_cons, length], text ++ bytes, ?_, ?_, ?_⟩
      · rw [encodeNames, written, ok_bind, rest]
        rfl
      · rw [namesMask, first.mask_length, List.length_append, first.length_eq]
        rw [← List.drop_drop] at second
        exact first.append second
      · rw [List.length_append, first.length_eq, Nat.add_assoc]

variable (isoError) in
theorem encodeBody_of_parts {m : RowsResponse} {names rowBytes : Bytes}
    (small : m.columnNames.length ≤ maxColumnCount)
    (typed : m.columnTypes = [] ∨ m.columnTypes.length = m.columnNames.length)
    (rowTyped : m.rowTypes.length = m.rows.length) (empty : m.columnNames = [] → m.rows = [])
    (checked : m.checkRows m.columnNames.length 0 m.rows = .ok ())
    (named : encodeNames m.columnNames = .ok names)
    (written : m.encodeRows isoError 0 m.rows = .ok rowBytes) :
    m.encodeBody isoError = .ok (toLE 8 m.columnNames.length ++ names ++ rowBytes ++
      (if m.hasMore then RowMarker.part else RowMarker.done).bytes) := by
  have bound : m.columnNames.length < 256 ^ 8 :=
    lt_of_le_of_lt small (by norm_num [maxColumnCount])
  have types_ : ¬ (m.columnTypes ≠ [] ∧ m.columnTypes.length ≠ m.columnNames.length) := by
    rintro ⟨some_, other⟩
    exact typed.elim some_ other
  have rowTypes_ : ¬ (m.rowTypes ≠ [] ∧ m.rowTypes.length ≠ m.rows.length) :=
    fun both => both.2 rowTyped
  have columns : ¬ (m.columnNames.length = 0 ∧ m.rows ≠ []) :=
    fun both => both.2 (empty (List.length_eq_zero_iff.mp both.1))
  have ending : encodeUint64 (fromLE (if m.hasMore then rowPartMarker else rowDoneMarker)) =
      .ok (if m.hasMore then RowMarker.part else RowMarker.done).bytes := by
    cases m.hasMore <;> decide
  rw [encodeBody]
  simp only [raiseIf_neg (not_lt.mpr small), raiseIf_neg types_, raiseIf_neg rowTypes_,
    raiseIf_neg columns, checked, encodeUint64_nat bound, named, written, ending, ok_bind]
  rfl

/-- What an accepted body is made of: its names, then what the row loop reads. Without columns that
is a marker alone. -/
theorem decodeBody_read {data : Bytes} {schema maxRows : Nat} {r : RowsResponse}
    (decoded : decodeBody data schema maxRows errors = .ok r) :
    ∃ count names offset allTypes values marker, decodeUint64 data = .ok count ∧
      count ≤ maxColumnCount ∧ decodeNames data count 8 = .ok (names, offset) ∧
      RowsRead data count errors offset allTypes values marker ∧ (count = 0 → values = []) ∧
      r = ⟨names, allTypes.headD [], allTypes, values.map (·.map .value), marker = .part⟩ := by
  obtain ⟨_, _, rest⟩ := bind_eq_ok.mp decoded
  obtain ⟨count, counted, rest⟩ := bind_eq_ok.mp rest
  obtain ⟨_, small, rest⟩ := bind_eq_ok.mp rest
  obtain ⟨_, _, rest⟩ := bind_eq_ok.mp rest
  obtain ⟨⟨names, offset⟩, named, rest⟩ := bind_eq_ok.mp rest
  have length := (decodeNames_rewrites named).1
  simp only at rest
  split at rest
  · rename_i zero
    obtain ⟨_, _, tail⟩ := bind_eq_ok.mp rest
    obtain ⟨more, marked, tail⟩ := bind_eq_ok.mp tail
    obtain ⟨_, checked, last⟩ := bind_eq_ok.mp tail
    have finish : offset + 8 = data.length := not_not.mp (raiseIf_eq_ok.mp checked)
    cases last
    have whole : (data.drop offset).take wordSize = data.drop offset := by
      apply List.take_of_length_le
      simp only [List.length_drop, wordSize]
      omega
    have bytes := decodeZeroColumnMarker_bytes marked
    rw [whole] at bytes
    refine ⟨count, names, offset, [], [], if more then .part else .done, counted,
      not_lt.mp (raiseIf_eq_ok.mp small), named, .marker ?_ finish, fun _ => rfl, ?_⟩
    · rw [bytes]
      exact decodeRowHeader_of_marker _ _
    · cases more <;> rfl
  · rename_i positive
    obtain ⟨allTypes, values, marker, read, rfl⟩ := decodeRows_read rest
    rw [length] at read
    exact ⟨count, names, offset, allTypes, values, marker, counted,
      not_lt.mp (raiseIf_eq_ok.mp small), named, read, fun zero => absurd zero positive, rfl⟩

theorem RowsRead.length (read : RowsRead view count errors offset allTypes rows marker) :
    allTypes.length = rows.length := by
  induction read with
  | marker => rfl
  | row header cells rest ih => rw [List.length_cons, List.length_cons, ih]

theorem RowsRead.width (read : RowsRead view count errors offset allTypes rows marker)
    (positive : 0 < count) : allTypes.headD [] = [] ∨ (allTypes.headD []).length = count := by
  cases read with
  | marker => exact .inl rfl
  | row header _ _ => exact .inr (decodeRowHeader_rewrites positive header).1

theorem decodeBody_rewrites {data : Bytes} {schema maxRows : Nat} {r : RowsResponse}
    (decoded : decodeBody data schema maxRows .strict = .ok r) (iso : r.IsoChecked isoError) :
    ∃ bytes, r.encodeBody isoError = .ok bytes ∧
      Rewrites (bodyMask r data) data data.length bytes := by
  obtain ⟨count, names, offset, allTypes, values, marker, counted, small, named, read, empty, rfl⟩ :=
    decodeBody_read decoded
  obtain ⟨room, bound, word⟩ := decodeWord_ok counted
  obtain ⟨length, nameBytes, namesEncoded, second, rfl⟩ := decodeNames_rewrites named
  have first : Rewrites (ones 8) data 8 (toLE 8 count) := .of_eq room word
  have start := first.append second
  have more : (if decide (marker = .part) = true then RowMarker.part else .done) = marker := by
    cases marker <;> rfl
  obtain ⟨rowBytes, written, third, finish⟩ : ∃ rowBytes,
      (∀ (m : RowsResponse) (i : Nat), m.wireTypes i (values.map (·.map .value)) = allTypes →
        m.encodeRows isoError i (values.map (·.map .value)) = .ok rowBytes) ∧
      Rewrites (rowsMask allTypes (data.drop (8 + nameBytes.length)))
        (data.drop (8 + nameBytes.length)) (rowBytes.length + 8) (rowBytes ++ marker.bytes) ∧
      8 + nameBytes.length + rowBytes.length + 8 = data.length := by
    by_cases zero : count = 0
    · cases read with
      | @marker _ _ header finish =>
          obtain ⟨_, room, word⟩ := decodeRowHeader_marker header
          exact ⟨[], fun _ _ _ => rfl, .of_eq room word, finish⟩
      | row => cases empty zero
    · exact read.rewrites (Nat.pos_of_ne_zero zero) iso
  generalize message : RowsResponse.mk names (allTypes.headD []) allTypes
    (values.map (·.map .value)) (marker = .part) = r at iso decoded ⊢
  have before : r.rowTypes = [] ++ allTypes := by rw [← message]; rfl
  have checked : r.checkRows count 0 (values.map (·.map .value)) = .ok () := by
    by_cases zero : count = 0
    · rw [empty zero]
      rfl
    · exact read.checkRows (Nat.pos_of_ne_zero zero) before
  have typed : r.wireTypes 0 (values.map (·.map .value)) = allTypes :=
    read.wireTypes before
  have rowsWritten := written r 0 typed
  subst message
  refine ⟨toLE 8 names.length ++ nameBytes ++ rowBytes ++ marker.bytes, ?_, ?_⟩
  · have encoded := encodeBody_of_parts isoError (by rw [length]; exact small) ?_
      (by rw [List.length_map]; exact read.length) ?_ (by rw [length]; exact checked) namesEncoded
      rowsWritten
    · rw [encoded, more]
    · by_cases zero : count = 0
      · have none := read.length
        rw [empty zero, List.length_nil, List.length_eq_zero_iff] at none
        exact .inl (by rw [none]; rfl)
      · rw [length]
        exact read.width (Nat.pos_of_ne_zero zero)
    · rintro rfl
      rw [empty length.symm]
      rfl
  · have all := start.append third
    have size : 8 + nameBytes.length + (rowBytes.length + 8) = data.length := by omega
    rw [size] at all
    rw [List.append_assoc _ rowBytes, length]
    simp only [bodyMask, length, start.mask_length]
    exact all

/-- Encoding undoes decoding up to the mask; what two bodies of one message both have written back
is the same. -/
theorem rows_encode_decode (isoError : Str → Option String) (data : Bytes) (schema maxRows : Nat)
    (r : RowsResponse) (decoded : decodeBody data schema maxRows .strict = .ok r) :
    (r.IsoChecked isoError → ∃ bytes, r.encodeBody isoError = .ok bytes ∧
        bytes.length = data.length ∧ (bodyMask r data).length = data.length ∧
        masked (bodyMask r data) bytes = masked (bodyMask r data) data) ∧
      ∀ (other : Bytes) (schema' maxRows' : Nat),
        decodeBody other schema' maxRows' .strict = .ok r → other.length = data.length ∧
          masked (bodyMask r other) (masked (bodyMask r data) other) =
            masked (bodyMask r other) (masked (bodyMask r data) data) := by
  refine ⟨fun iso => ?_, fun other schema' maxRows' again => ?_⟩
  · obtain ⟨bytes, encoded, rewrites⟩ := decodeBody_rewrites decoded iso
    have agree := rewrites.agree
    rw [List.take_length] at agree
    exact ⟨bytes, encoded, rewrites.length_eq, rewrites.mask_length, agree⟩
  · -- an encoder that checks nothing writes the same bytes for both
    have free : r.IsoChecked fun _ => none := fun _ _ _ _ _ _ _ => rfl
    obtain ⟨bytes, encoded, first⟩ := decodeBody_rewrites decoded free
    obtain ⟨bytes', encoded', second⟩ := decodeBody_rewrites again free
    obtain rfl := Except.ok.inj (encoded.symm.trans encoded')
    have agree := first.agree
    have agree' := second.agree
    rw [List.take_length] at agree agree'
    refine ⟨second.length_eq.symm.trans first.length_eq, ?_⟩
    rw [masked_comm, ← agree', masked_comm, agree]

theorem rows_encode_decode_boolean :
    ∃ bytes, encodeBody (fun _ => none)
        ⟨[[⟨97, by decide⟩]], [.boolean], [[.boolean]], [[.value (.bool true)]], false⟩ = .ok bytes ∧
      bytes.length = 40 := by
  obtain ⟨bytes, encoded, length, _⟩ := (rows_encode_decode (fun _ => none)
    ([1, 0, 0, 0, 0, 0, 0, 0] ++ [97, 0, 7, 7, 7, 7, 7, 7] ++ [0xFB, 7, 7, 7, 7, 7, 7, 7] ++
      [2, 0, 0, 0, 0, 0, 0, 0] ++ rowDoneMarker) 0 2
    ⟨[[⟨97, by decide⟩]], [.boolean], [[.boolean]], [[.value (.bool true)]], false⟩
    (by decide)).1 fun _ _ _ _ _ _ _ => rfl
  exact ⟨bytes, encoded, length⟩

end RowsResponse

end DqliteWire
