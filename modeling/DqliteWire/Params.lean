import DqliteWire.Reencode

/-! Statement requests: what a decoded params tuple is written back as. -/

namespace DqliteWire

open WireLib WireLib.Utf8

def tagByte (t : ValueType) : UInt8 := UInt8.ofNat t.code

theorem tagByte_known (t : ValueType) : ValueType.ofCode (tagByte t).toNat = some t := by
  rw [tagByte, single_toNat, ValueType.ofCode_code]

/-- The type a decoded parameter is sent with: nothing tells an ISO8601 text from a plain one. -/
def plain : ValueType → ValueType
  | .iso8601 => .text
  | t => t

theorem plain_eq_iff (t : ValueType) : plain t = t ↔ t ≠ .iso8601 := by
  cases t <;> simp [plain]

section Tags

variable {data : Bytes} {countSize : Nat} {types : List ValueType}

theorem decodeParamTypes_ok {i remaining : Nat}
    (decoded : decodeParamTypes data countSize i remaining = .ok types) :
    types.length = remaining ∧ (data.drop (countSize + i)).take remaining = types.map tagByte ∧
      ValueType.unixtime ∉ types := by
  induction remaining generalizing i types with
  | zero =>
      cases decoded
      simp
  | succ remaining ih =>
      obtain ⟨byte, found, tail⟩ := bind_eq_ok.mp decoded
      have at_ : data[countSize + i]? = some byte := by
        unfold byteAt at found
        split at found <;> cases found
        assumption
      split at tail
      · cases tail
      · cases tail
      · rename_i t timed known
        obtain ⟨rest, later, last⟩ := bind_eq_ok.mp tail
        cases last
        obtain ⟨length, tags, none⟩ := ih later
        obtain ⟨inside, same⟩ := List.getElem?_eq_some_iff.mp at_
        have code := byte_of_value (code_of_nibble known)
        refine ⟨by rw [List.length_cons, length], ?_, ?_⟩
        · rw [List.drop_eq_getElem_cons inside, List.take_succ_cons, same, List.map_cons, tagByte,
            code, Nat.add_assoc, tags]
        · rw [List.mem_cons, not_or]
          exact ⟨fun same => timed same.symm, none⟩

theorem filterMap_tagByte (types : List ValueType) :
    (types.map tagByte).filterMap (fun tag => ValueType.ofCode tag.toNat) = types := by
  rw [List.filterMap_map]
  conv_rhs => rw [← List.filterMap_some (l := types)]
  refine List.filterMap_congr fun t _ => ?_
  exact tagByte_known t

end Tags

section Tuple

variable {isoError : Str → Option String} {source : Source} {data : Bytes} {schema offset : Nat}

variable (isoError) in
theorem decodeParam_rewrites {t : ValueType} {value : WireValue} {n : Nat}
    (decoded : decodeValue source data t .strict = .ok (value, n)) (untimed : t ≠ .unixtime) :
    ∃ bytes, encodeValue isoError (.value value) none = .ok (bytes, plain t) ∧
      Rewrites (cellMask t data) data n bytes := by
  by_cases iso : t = .iso8601
  · subst iso
    obtain ⟨⟨text, consumed⟩, read, last⟩ := bind_eq_ok.mp decoded
    cases last
    obtain ⟨bytes, encoded, rewrites⟩ := decodeText_rewrites read ValueType.text.name
    refine ⟨bytes, ?_, rewrites⟩
    simp only [encodeValue, ok_bind, Option.getD_none, inferValueType, encodeTextValue, reduceCtorEq,
      if_false, encoded]
    rfl
  · obtain ⟨bytes, encoded, rewrites⟩ := decodeValue_rewrites isoError decoded
      fun same => absurd same iso
    refine ⟨bytes, ?_, rewrites⟩
    rw [encodeValue_inferred, decodeValue_inferred decoded iso untimed, encoded,
      (plain_eq_iff t).mpr iso]

variable (isoError) in
theorem encodeParams_decoded {types : List ValueType} {values : List WireValue} {start last : Nat}
    (decoded : decodeValues source .strict data start types = .ok (values, last))
    (untimed : ValueType.unixtime ∉ types) (i : Nat) :
    ∃ pieces, encodeParams isoError i (values.map .value) = .ok (types.map plain, pieces) ∧
      Rewrites (cellsMask types (data.drop start)) (data.drop start) pieces.flatten.length
        pieces.flatten ∧
      last = start + pieces.flatten.length := by
  induction types generalizing start values i with
  | nil =>
      cases decoded
      exact ⟨[], rfl, .nil _, rfl⟩
  | cons t types ih =>
      obtain ⟨⟨value, consumed⟩, read, tail⟩ := bind_eq_ok.mp decoded
      obtain ⟨⟨others, after⟩, later, done⟩ := bind_eq_ok.mp tail
      cases done
      rw [List.mem_cons, not_or] at untimed
      obtain ⟨cell, written, first⟩ :=
        decodeParam_rewrites isoError read fun same => untimed.1 same.symm
      obtain ⟨pieces, rest, second, rfl⟩ := ih later untimed.2 (i + 1)
      have sendable : ¬ plain t = .unixtime := by
        intro same
        cases t <;> simp [plain] at same
        exact untimed.1 rfl
      refine ⟨cell :: pieces, ?_, ?_, ?_⟩
      · rw [List.map_cons, encodeParams, written, ok_bind]
        simp only
        rw [raiseIf_neg sendable, ok_bind, rest]
        rfl
      · rw [cellsMask, first.mask_length, List.flatten_cons, List.length_append, first.length_eq]
        rw [← List.drop_drop] at second
        exact first.append second
      · rw [List.flatten_cons, List.length_append, first.length_eq, Nat.add_assoc]

theorem encodeValue_type {value : WireInput} {t t' : ValueType} {bytes : Bytes}
    (encoded : encodeValue isoError value (some t) = .ok (bytes, t')) : t' = t := by
  unfold encodeValue at encoded
  split at encoded
  · cases t <;> cases encoded
    rfl
  · split at encoded <;>
    · obtain ⟨_, _, rest⟩ := bind_eq_ok.mp encoded
      cases t with
      | null => cases rest
      | boolean | integer | unixtime | float | text | iso8601 | blob =>
          obtain ⟨_, _, last⟩ := bind_eq_ok.mp rest
          cases last
          rfl

theorem encodeParams_types {params : List WireInput} {types : List ValueType} {pieces : List Bytes}
    {i : Nat} (encoded : encodeParams isoError i params = .ok (types, pieces)) :
    types.length = params.length ∧ ValueType.iso8601 ∉ types ∧ ValueType.unixtime ∉ types := by
  induction params generalizing i types pieces with
  | nil =>
      cases encoded
      simp
  | cons param params ih =>
      obtain ⟨⟨bytes, t⟩, written, tail⟩ := bind_eq_ok.mp encoded
      obtain ⟨_, timed, tail⟩ := bind_eq_ok.mp tail
      obtain ⟨⟨others, more⟩, later, last⟩ := bind_eq_ok.mp tail
      cases last
      obtain ⟨length, iso, untimed⟩ := ih later
      rw [encodeValue_inferred] at written
      have inferred : t = inferValueType param := encodeValue_type written
      have plainly : t ≠ .iso8601 := by
        rw [inferred]
        cases param with
        | value v => cases v <;> simp [inferValueType]
        | bytearray | memoryview | mmap => simp [inferValueType]
      rw [List.length_cons, List.length_cons, length, List.mem_cons, not_or, List.mem_cons, not_or]
      exact ⟨rfl, ⟨Ne.symm plainly, iso⟩, Ne.symm (raiseIf_eq_ok.mp timed), untimed⟩

def countWidth (schema : Nat) : Nat := if schema = 1 then 4 else 1

def paramCount (schema : Nat) (tuple : Bytes) : Nat := fromLE (tuple.take (countWidth schema))

def paramTags (schema : Nat) (tuple : Bytes) : Bytes :=
  (tuple.drop (countWidth schema)).take (paramCount schema tuple)

def tupleMask (schema offset : Nat) (tuple : Bytes) : Bytes :=
  if tuple = [] then []
  else
    let header := countWidth schema + paramCount schema tuple
    let padding := padToWord (offset + header)
    let types := (paramTags schema tuple).filterMap fun tag => ValueType.ofCode tag.toNat
    ones header ++ blanks padding ++ cellsMask types (tuple.drop (header + padding))

theorem decodeParamsTuple_eq (source : Source) (version : schema = 0 ∨ schema = 1)
    (room : 8 ≤ data.length) :
    decodeParamsTuple source data none schema offset =
      if paramCount schema data = 0 then
        .ok ([], countWidth schema + padToWord (offset + countWidth schema))
      else decodeParamsBody source data (countWidth schema) (paramCount schema data) offset := by
  have known : ¬ (schema ≠ 0 ∧ schema ≠ 1) := by omega
  have nonempty : ¬ data.length = 0 := by omega
  rw [decodeParamsTuple, raiseIf_neg known, ok_bind, if_neg nonempty, if_neg (not_lt.mpr room)]
  rcases version with rfl | rfl
  · obtain ⟨byte, others, rfl⟩ : ∃ byte others, data = byte :: others := by
      cases data with
      | nil => cases room
      | cons byte others => exact ⟨byte, others, rfl⟩
    have count : paramCount 0 (byte :: others) = byte.toNat := by
      simp [paramCount, countWidth, fromLE]
    rw [count]
    rfl
  · have four : (data.take 4).length = 4 := by
      rw [List.length_take]
      omega
    dsimp only
    rw [if_pos rfl, unpack_of_length four]
    rfl

theorem decodeParamsTuple_cases {params : List WireValue} {consumed : Nat}
    (decoded : decodeParamsTuple source data none schema offset = .ok (params, consumed)) :
    (schema = 0 ∨ schema = 1) ∧
      ((data = [] ∧ params = [] ∧ consumed = 0) ∨
        8 ≤ data.length ∧ paramCount schema data = 0 ∧ params = [] ∧
          consumed = countWidth schema + padToWord (offset + countWidth schema) ∨
        8 ≤ data.length ∧ paramCount schema data ≠ 0 ∧
          decodeParamsBody source data (countWidth schema) (paramCount schema data) offset =
            .ok (params, consumed)) := by
  obtain ⟨_, supported, tail⟩ := bind_eq_ok.mp decoded
  have version : schema = 0 ∨ schema = 1 := by
    have known := raiseIf_eq_ok.mp supported
    omega
  refine ⟨version, ?_⟩
  split at tail
  · rename_i empty
    cases tail
    exact .inl ⟨List.length_eq_zero_iff.mp empty, rfl, rfl⟩
  · split at tail
    · cases tail
    · rename_i long
      have room : 8 ≤ data.length := not_lt.mp long
      rw [decodeParamsTuple_eq source version room] at decoded
      split at decoded
      · rename_i zero
        cases decoded
        exact .inr (.inl ⟨room, zero, rfl, rfl⟩)
      · rename_i positive
        exact .inr (.inr ⟨room, positive, decoded⟩)

theorem decodeParamsBody_ok {countSize count consumed : Nat} {params : List WireValue}
    (decoded : decodeParamsBody source data countSize count offset = .ok (params, consumed)) :
    count ≤ maxParamCount ∧
      countSize + count + padToWord (offset + (countSize + count)) ≤ data.length ∧
      ∃ types, types.length = count ∧ (data.drop countSize).take count = types.map tagByte ∧
        ValueType.unixtime ∉ types ∧
        decodeValues source .strict data (countSize + count + padToWord (offset + (countSize + count)))
          types = .ok (params, consumed) := by
  obtain ⟨_, small, tail⟩ := bind_eq_ok.mp decoded
  obtain ⟨_, room, tail⟩ := bind_eq_ok.mp tail
  obtain ⟨types, typed, values⟩ := bind_eq_ok.mp tail
  obtain ⟨length, tags, untimed⟩ := decodeParamTypes_ok typed
  exact ⟨not_lt.mp (raiseIf_eq_ok.mp small), not_lt.mp (raiseIf_eq_ok.mp room), types, length, tags,
    untimed, values⟩

theorem paramCount_bytes (room : countWidth schema ≤ data.length) :
    data.take (countWidth schema) = toLE (countWidth schema) (paramCount schema data) := by
  have width : (data.take (countWidth schema)).length = countWidth schema := by
    rw [List.length_take, min_eq_left room]
  have spelt := toLE_fromLE (data.take (countWidth schema))
  rw [width] at spelt
  exact spelt.symm

theorem paramCount_lt (schema : Nat) (data : Bytes) :
    paramCount schema data < 256 ^ countWidth schema := by
  have bound := fromLE_lt (data.take (countWidth schema))
  refine lt_of_lt_of_le bound (Nat.pow_le_pow_right (by decide) ?_)
  rw [List.length_take]
  exact min_le_left _ _

variable (offset) in
theorem encodeParamsTuple_some {params : List WireInput} {types : List ValueType}
    {pieces : List Bytes} (version : schema = 0 ∨ schema = 1) (some_ : params ≠ [])
    (small : params.length ≤ maxParamCount) (counted : params.length < 256 ^ countWidth schema)
    (encoded : encodeParams isoError 0 params = .ok (types, pieces)) (emit : Bool) :
    encodeParamsTuple isoError params schema offset emit =
      .ok (toLE (countWidth schema) params.length ++ types.map tagByte ++
        zeros (padToWord (offset + (countWidth schema + params.length))) ++ pieces.flatten) := by
  have known : ¬ ((schema : Int) ≠ 0 ∧ (schema : Int) ≠ 1) := by
    rcases version with rfl | rfl <;> simp
  have typed := (encodeParams_types encoded).1
  rw [encodeParamsTuple, raiseIf_neg known, ok_bind, raiseIf_neg (not_lt.mpr small), ok_bind,
    if_neg some_, encoded]
  simp only [ok_bind]
  rcases version with rfl | rfl
  · have few : ¬ 255 < params.length := by
      have bound : params.length < 256 := counted
      omega
    have unit : ([UInt8.ofNat params.length] ++ types.map fun t => UInt8.ofNat t.code).length =
        1 + params.length := by
      rw [List.length_append, List.length_map, typed]
      rfl
    simp only [Nat.cast_zero, zero_ne_one, if_false, if_neg few, unit]
    rfl
  · have width : (toLE 4 params.length ++ types.map fun t => UInt8.ofNat t.code).length =
        4 + params.length := by
      rw [List.length_append, List.length_map, typed, toLE_length]
    simp only [Nat.cast_one, if_true, width]
    rfl

theorem tagByte_inj {t t' : ValueType} (same : tagByte t = tagByte t') : t = t' := by
  have known := tagByte_known t
  rw [same, tagByte_known] at known
  exact (Option.some.inj known).symm

theorem encodeParamsTuple_ok {params : List WireInput} {emit : Bool} {bytes : Bytes}
    (version : schema = 0 ∨ schema = 1) (some_ : params ≠ [])
    (encoded : encodeParamsTuple isoError params schema offset emit = .ok bytes) :
    params.length ≤ maxParamCount ∧ params.length < 256 ^ countWidth schema ∧
      ∃ types pieces, encodeParams isoError 0 params = .ok (types, pieces) ∧
        bytes = toLE (countWidth schema) params.length ++ types.map tagByte ++
          zeros (padToWord (offset + (countWidth schema + params.length))) ++ pieces.flatten := by
  obtain ⟨_, _, tail⟩ := bind_eq_ok.mp encoded
  obtain ⟨_, checked, tail⟩ := bind_eq_ok.mp tail
  have small := not_lt.mp (raiseIf_eq_ok.mp checked)
  rw [if_neg some_] at tail
  obtain ⟨⟨types, pieces⟩, written, tail⟩ := bind_eq_ok.mp tail
  have counted : params.length < 256 ^ countWidth schema := by
    rcases version with rfl | rfl
    · simp only [Nat.cast_zero, zero_ne_one, if_false] at tail
      split at tail
      · cases tail
      · rename_i few
        exact lt_of_le_of_lt (not_lt.mp few) (by decide)
    · exact lt_of_le_of_lt small (by decide)
  have shape := encodeParamsTuple_some offset version some_ small counted written emit
  exact ⟨small, counted, types, pieces, written, Except.ok.inj (encoded.symm.trans shape)⟩

/-- No encoder writes an ISO8601 tag. -/
theorem encodeParamsTuple_tags {params : List WireInput} {emit : Bool} {bytes : Bytes}
    (version : schema = 0 ∨ schema = 1)
    (encoded : encodeParamsTuple isoError params schema offset emit = .ok bytes) :
    tagByte .iso8601 ∉ paramTags schema bytes := by
  by_cases none : params = []
  · subst none
    obtain ⟨_, _, tail⟩ := bind_eq_ok.mp encoded
    obtain ⟨_, _, last⟩ := bind_eq_ok.mp tail
    rw [if_pos rfl] at last
    have zero : paramCount schema bytes = 0 := by
      cases emit <;> cases last <;> rcases version with rfl | rfl <;> rfl
    rw [paramTags, zero, List.take_zero]
    exact List.not_mem_nil
  · obtain ⟨_, counted, types, pieces, written, rfl⟩ := encodeParamsTuple_ok version none encoded
    obtain ⟨length, iso, _⟩ := encodeParams_types written
    have count : paramCount schema (toLE (countWidth schema) params.length ++ types.map tagByte ++
        zeros (padToWord (offset + (countWidth schema + params.length))) ++ pieces.flatten) =
          params.length := by
      rw [paramCount, List.append_assoc, List.append_assoc, List.take_left' (toLE_length _ _),
        fromLE_toLE _ _ counted]
    have width : (types.map tagByte).length = params.length := by rw [List.length_map, length]
    rw [paramTags, count, List.append_assoc, List.append_assoc, List.drop_left' (toLE_length _ _),
      List.take_left' width]
    intro member
    obtain ⟨t, found, same⟩ := List.mem_map.mp member
    exact iso (tagByte_inj same ▸ found)

variable (isoError) in
theorem decodeParamsTuple_rewrites {params : List WireValue} {consumed : Nat}
    (decoded : decodeParamsTuple source data none schema offset = .ok (params, consumed))
    (aligned : offset % 8 = 0) (plainly : tagByte .iso8601 ∉ paramTags schema data) :
    ∃ bytes, encodeParamsTuple isoError (params.map .value) schema offset
        (decide (params = [] ∧ 0 < consumed)) = .ok bytes ∧
      Rewrites (tupleMask schema offset data) data consumed bytes := by
  obtain ⟨version, ⟨rfl, rfl, rfl⟩ | ⟨room, zero, rfl, rfl⟩ | ⟨room, some_, body⟩⟩ :=
    decodeParamsTuple_cases decoded
  · refine ⟨[], ?_, .nil _⟩
    rcases version with rfl | rfl <;> rfl
  · have nonempty : data ≠ [] := by
      rintro rfl
      cases room
    have whole : countWidth schema + padToWord (offset + countWidth schema) = 8 := by
      have completed := mod_padToWord (offset + countWidth schema)
      have short := padToWord_lt (offset + countWidth schema)
      have width : countWidth schema = 1 ∨ countWidth schema = 4 := by
        rcases version with rfl | rfl
        · exact .inl rfl
        · exact .inr rfl
      omega
    have inside : countWidth schema ≤ data.length := by omega
    have count := paramCount_bytes inside
    rw [zero] at count
    have header : Rewrites (ones (countWidth schema)) data (countWidth schema)
        (toLE (countWidth schema) 0) := .of_eq inside count
    have padded := header.append (.padding (n := padToWord (offset + countWidth schema))
      (by rw [List.length_drop]; omega))
    have mask : tupleMask schema offset data =
        ones (countWidth schema) ++ blanks (padToWord (offset + countWidth schema)) := by
      rw [tupleMask, if_neg nonempty]
      simp only [zero, paramTags, List.take_zero, List.filterMap_nil, cellsMask, List.append_nil,
        Nat.add_zero]
    have written : toLE (countWidth schema) 0 ++ blanks (padToWord (offset + countWidth schema)) =
        zeros 8 := by
      have rest : padToWord (offset + countWidth schema) = 8 - countWidth schema := by omega
      rw [rest]
      rcases version with rfl | rfl <;> rfl
    rw [written] at padded
    refine ⟨zeros 8, ?_, by rw [mask]; exact padded⟩
    have emit : decide (([] : List WireValue) = [] ∧
        0 < countWidth schema + padToWord (offset + countWidth schema)) = true := by
      rw [whole]
      decide
    rw [emit]
    rcases version with rfl | rfl <;> rfl
  · obtain ⟨small, enough, types, length, tags, untimed, values⟩ := decodeParamsBody_ok body
    have nonempty : data ≠ [] := by
      rintro rfl
      cases room
    obtain ⟨pieces, written, cells, last⟩ := encodeParams_decoded isoError values
      untimed 0
    have sized := decodeValues_length values
    have plain_ : types.map plain = types := by
      conv_rhs => rw [← List.map_id types]
      refine List.map_congr_left fun t member => (plain_eq_iff t).mpr ?_
      rintro rfl
      exact plainly (by rw [paramTags, tags]; exact List.mem_map_of_mem member)
    rw [plain_] at written
    have some' : params.map WireInput.value ≠ [] := by
      intro none
      rw [List.map_eq_nil_iff] at none
      rw [none, List.length_nil] at sized
      omega
    have count : (params.map WireInput.value).length = paramCount schema data := by
      rw [List.length_map, sized, length]
    have tuple := encodeParamsTuple_some offset version some' (by rw [count]; exact small)
      (by rw [count]; exact paramCount_lt schema data) written
      (decide (params = [] ∧ 0 < consumed))
    rw [count] at tuple
    refine ⟨_, tuple, ?_⟩
    have header : Rewrites (ones (countWidth schema + paramCount schema data)) data
        (countWidth schema + paramCount schema data)
        (toLE (countWidth schema) (paramCount schema data) ++ types.map tagByte) := by
      refine .of_eq (by omega) ?_
      rw [List.take_add, paramCount_bytes (by omega), tags]
    have padded := header.append (.padding
      (n := padToWord (offset + (countWidth schema + paramCount schema data)))
      (by rw [List.length_drop]; omega))
    have all := padded.append cells
    rw [last, tupleMask, if_neg nonempty]
    simp only [paramTags, tags, filterMap_tagByte]
    exact all

end Tuple

section Prefix

variable {data : Bytes} {offset : Nat}

theorem decodeStatementPrefix_rewrites {ids : Int × Int}
    (decoded : decodeStatementPrefix data = .ok (ids, offset)) :
    offset % 8 = 0 ∧ ∃ start, encodeStatementPrefix ids.1 ids.2 = .ok start ∧
      Rewrites (ones 8) data offset start := by
  obtain ⟨dbId, first, tail⟩ := bind_eq_ok.mp decoded
  obtain ⟨stmtId, second, last⟩ := bind_eq_ok.mp tail
  cases last
  obtain ⟨_, bound, word⟩ := decodeUint32_ok first
  obtain ⟨room, bound', word'⟩ := decodeUint32_ok second
  rw [List.length_drop] at room
  refine ⟨rfl, toLE 4 dbId ++ toLE 4 stmtId, ?_, .of_eq (by omega) ?_⟩
  · rw [encodeStatementPrefix, encodeUint32_nat bound, ok_bind, encodeUint32_nat bound', ok_bind]
    rfl
  · have halves : data.take 8 = data.take 4 ++ (data.drop 4).take 4 := List.take_add (i := 4) (j := 4)
    rw [halves, word, word']

theorem decodeSqlPrefix_rewrites {args : Int × Str}
    (decoded : decodeSqlPrefix data = .ok (args, offset)) :
    offset % 8 = 0 ∧ ∃ start, encodeSqlPrefix args.1 args.2 = .ok start ∧
      Rewrites (ones 8 ++ textMask (data.drop 8)) data offset start := by
  obtain ⟨dbId, first, tail⟩ := bind_eq_ok.mp decoded
  obtain ⟨⟨sql, consumed⟩, second, last⟩ := bind_eq_ok.mp tail
  cases last
  obtain ⟨room, bound, word⟩ := decodeWord_ok first
  obtain ⟨text, encoded, rewrites⟩ := decodeText_rewrites second "SQL"
  have whole := (decodeText_encode encoded .view [] "SQL" .strict).2.1
  rw [rewrites.length_eq] at whole
  have head : Rewrites (ones 8) data 8 (toLE 8 dbId) := .of_eq room word
  refine ⟨by omega, toLE 8 dbId ++ text, ?_, head.append rewrites⟩
  rw [encodeSqlPrefix, encodeUint64_nat bound, ok_bind, encoded]
  rfl

end Prefix

namespace ParamsFields

variable {isoError : Str → Option String} {data : Bytes} {schema : Nat}

theorem validate_ok {params : List WireInput} {empty : Bool} (version : schema = 0 ∨ schema = 1)
    (small : params.length ≤ maxParamCount) (few : schema = 0 → params.length ≤ 255)
    (hint : empty = true → params = []) :
    validate ⟨params, some (schema : Int), some empty⟩ = .ok () := by
  have known : ¬ ((schema : Int) ≠ 0 ∧ (schema : Int) ≠ 1) := by omega
  have narrow : ¬ ((schema : Int) = 0 ∧ 255 < params.length) := by
    rintro ⟨zero, many⟩
    have few_ := few (by exact_mod_cast zero)
    omega
  have wide : ¬ ((schema : Int) = 1 ∧ maxParamCount < params.length) :=
    fun both => absurd both.2 (not_lt.mpr small)
  have header : ¬ (some empty = some true ∧ 0 < params.length) := by
    rintro ⟨flag, some_⟩
    rw [hint (Option.some.inj flag)] at some_
    exact absurd some_ (lt_irrefl 0)
  rw [validate, validateDecodedSchema, raiseIf_neg known, ok_bind, raiseIf_neg narrow, ok_bind,
    raiseIf_neg wide, ok_bind, validateDecodedEmptyHeader, raiseIf_neg header]

theorem decodeBody_ok {α β : Type} {className : String}
    {decodePrefix : Bytes → Except Exn (α × Nat)} {new : α → ParamsFields → Except Exn β} {m : β}
    (decoded : decodeBody className decodePrefix new data schema = .ok m) :
    ∃ args offset params consumed, decodePrefix data = .ok (args, offset) ∧
      decodeParamsTuple .view (data.drop offset) none schema offset = .ok (params, consumed) ∧
      offset + consumed = data.length ∧
      new args ⟨params.map .value, some schema, some (params = [] ∧ 0 < consumed)⟩ = .ok m := by
  obtain ⟨_, _, tail⟩ := bind_eq_ok.mp decoded
  obtain ⟨⟨args, offset⟩, first, tail⟩ := bind_eq_ok.mp tail
  obtain ⟨⟨params, consumed⟩, second, tail⟩ := bind_eq_ok.mp tail
  obtain ⟨_, whole, built⟩ := bind_eq_ok.mp tail
  exact ⟨args, offset, params, consumed, first, second, not_not.mp (raiseIf_eq_ok.mp whole), built⟩

theorem encodeBody_decoded {start mask : Bytes} {offset consumed : Nat} {params : List WireValue}
    (head : Rewrites mask data offset start) (aligned : offset % 8 = 0)
    (tuple : decodeParamsTuple .view (data.drop offset) none schema offset = .ok (params, consumed))
    (whole : offset + consumed = data.length)
    (canonical : masked (mask ++ tupleMask schema offset (data.drop offset)) data = data) :
    encodeBody isoError ⟨params.map .value, some schema, some (params = [] ∧ 0 < consumed)⟩
        (.ok start) = .ok data ↔
      tagByte .iso8601 ∉ paramTags schema (data.drop offset) := by
  have version := (decodeParamsTuple_cases tuple).1
  constructor
  · intro encoded
    obtain ⟨_, same, tail⟩ := bind_eq_ok.mp encoded
    cases same
    obtain ⟨bytes, written, last⟩ := bind_eq_ok.mp tail
    rw [head.length_eq] at written
    have split := Except.ok.inj last
    rw [← split, List.drop_left' head.length_eq]
    exact encodeParamsTuple_tags version written
  · intro plainly
    obtain ⟨bytes, written, rewrites⟩ :=
      decodeParamsTuple_rewrites isoError tuple aligned plainly
    have all := (head.append rewrites).exact_
    rw [whole, List.take_length] at all
    have getSchema : getSchema ⟨params.map .value, some (schema : Int),
        some (decide (params = [] ∧ 0 < consumed))⟩ = schema := rfl
    rw [encodeBody, ok_bind, getSchema, head.length_eq, Option.getD_some, written, ok_bind]
    exact congrArg _ (all canonical)

end ParamsFields

def prefixMask (t : RequestType) (data : Bytes) : Bytes :=
  match t with
  | .exec | .query => ones 8
  | _ => ones 8 ++ textMask (data.drop 8)

/-- The bytes of a statement request that are written back: not the padding, not the word of a NULL,
not that of a BOOLEAN other than 0 and 1. -/
def statementMask (t : RequestType) (schema : Nat) (data : Bytes) : Bytes :=
  let start := prefixMask t data
  start ++ tupleMask schema start.length (data.drop start.length)

def statementTags (t : RequestType) (schema : Nat) (data : Bytes) : Bytes :=
  paramTags schema (data.drop (prefixMask t data).length)

def statementTypes : List RequestType := [.exec, .query, .execSql, .querySql]

theorem statement_reencodes_behind (isoError : Str → Option String) {t : RequestType}
    {data start : Bytes} {schema offset consumed : Nat} {params : List WireValue}
    (head : Rewrites (prefixMask t data) data offset start) (aligned : offset % 8 = 0)
    (tuple : decodeParamsTuple .view (data.drop offset) none schema offset = .ok (params, consumed))
    (whole : offset + consumed = data.length)
    (canonical : masked (statementMask t schema data) data = data) :
    ParamsFields.encodeBody isoError
        ⟨params.map .value, some schema, some (params = [] ∧ 0 < consumed)⟩ (.ok start) = .ok data ↔
      tagByte .iso8601 ∉ statementTags t schema data := by
  have width := head.mask_length
  rw [statementTags, width]
  simp only [statementMask, width] at canonical
  exact ParamsFields.encodeBody_decoded head aligned tuple whole canonical

/-- A canonical statement request is written back to its bytes exactly when no tag is ISO8601. -/
theorem statement_reencodes (isoError : Str → Option String) (t : RequestType)
    (statement : t ∈ statementTypes) (schema : Nat) (data : Bytes) (m : Request)
    (decoded : MessageDecoder.decodeRequestBody t data schema = .ok m)
    (canonical : masked (statementMask t schema data) data = data) :
    (m.getSchema = schema ∧ m.encodeBody isoError = .ok data) ↔
      tagByte .iso8601 ∉ statementTags t schema data := by
  simp only [statementTypes, List.mem_cons, List.not_mem_nil, or_false] at statement
  rcases statement with rfl | rfl | rfl | rfl
  all_goals
    obtain ⟨message, body, rfl⟩ := MessageDecoder.map_eq_ok.mp decoded
    obtain ⟨args, offset, params, consumed, first, tuple, whole, built⟩ :=
      ParamsFields.decodeBody_ok body
    obtain ⟨_, _, built⟩ := bind_eq_ok.mp built
  case' inl | inr.inl =>
    obtain ⟨_, _, built⟩ := bind_eq_ok.mp built
    obtain ⟨aligned, start, encoded, head⟩ := decodeStatementPrefix_rewrites first
  case' inr.inr.inl | inr.inr.inr =>
    obtain ⟨aligned, start, encoded, head⟩ := decodeSqlPrefix_rewrites first
  all_goals
    obtain ⟨_, _, last⟩ := bind_eq_ok.mp built
    cases last
    refine (and_iff_right rfl).trans (Iff.trans (Eq.to_iff ?_)
      (statement_reencodes_behind isoError head aligned tuple whole canonical))
    rw [← encoded]
    rfl

theorem statement_reencodes_null :
    ((Request.exec ⟨⟨[.value .none], some 0, some false⟩, 1, 2⟩).getSchema = 0 ∧
      (Request.exec ⟨⟨[.value .none], some 0, some false⟩, 1, 2⟩).encodeBody (fun _ => none) =
        .ok ([1, 0, 0, 0, 2, 0, 0, 0] ++ [1, 5, 0, 0, 0, 0, 0, 0] ++ zeros 8)) ↔
      tagByte .iso8601 ∉ statementTags .exec 0
        ([1, 0, 0, 0, 2, 0, 0, 0] ++ [1, 5, 0, 0, 0, 0, 0, 0] ++ zeros 8) :=
  statement_reencodes (fun _ => none) .exec (by decide) 0
    ([1, 0, 0, 0, 2, 0, 0, 0] ++ [1, 5, 0, 0, 0, 0, 0, 0] ++ zeros 8)
    (.exec ⟨⟨[.value .none], some 0, some false⟩, 1, 2⟩) (by decide) (by decide)

/-- An ISO8601 parameter is written back with the TEXT tag. -/
theorem statement_iso8601_retagged :
    MessageDecoder.decodeRequestBody .exec
        ([1, 0, 0, 0, 2, 0, 0, 0] ++ [1, 10, 0, 0, 0, 0, 0, 0] ++ [49, 50, 58, 48, 48, 0, 0, 0]) 0 =
      .ok (.exec ⟨⟨[.value (.str [⟨49, by decide⟩, ⟨50, by decide⟩, ⟨58, by decide⟩,
        ⟨48, by decide⟩, ⟨48, by decide⟩])], some 0, some false⟩, 1, 2⟩) ∧
    masked (statementMask .exec 0 ([1, 0, 0, 0, 2, 0, 0, 0] ++ [1, 10, 0, 0, 0, 0, 0, 0] ++
        [49, 50, 58, 48, 48, 0, 0, 0])) ([1, 0, 0, 0, 2, 0, 0, 0] ++ [1, 10, 0, 0, 0, 0, 0, 0] ++
          [49, 50, 58, 48, 48, 0, 0, 0]) =
      [1, 0, 0, 0, 2, 0, 0, 0] ++ [1, 10, 0, 0, 0, 0, 0, 0] ++ [49, 50, 58, 48, 48, 0, 0, 0] ∧
    (Request.exec ⟨⟨[.value (.str [⟨49, by decide⟩, ⟨50, by decide⟩, ⟨58, by decide⟩,
        ⟨48, by decide⟩, ⟨48, by decide⟩])], some 0, some false⟩, 1, 2⟩).encodeBody (fun _ => none) ≠
      .ok ([1, 0, 0, 0, 2, 0, 0, 0] ++ [1, 10, 0, 0, 0, 0, 0, 0] ++ [49, 50, 58, 48, 48, 0, 0, 0]) := by
  refine ⟨?_, ?_, ?_⟩ <;> decide +kernel

end DqliteWire
