import DqliteWire.Exchange

/-! What the field codecs promise on their own, outside a message: texts of either buffer type,
blobs of any bytes-like value, params tuples at any offset. -/

namespace DqliteWire

open WireLib WireLib.Utf8

section Text

def Decodes (decode : Bytes → Except Exn Str) : Prop :=
  ∀ data, (∃ text, decode data = .ok text) ∨
    ∃ start bytes reason, decode data = .error (.unicodeDecodeError start bytes reason)

theorem bytesDecode_decodes {errors : Handler} (able : ¬ errors.RefusesDecoding) :
    Decodes (bytesDecode errors) := by
  intro data
  unfold bytesDecode
  cases decoded : Utf8.decode errors data with
  | ok text => exact Or.inl ⟨text, rfl⟩
  | error e =>
      cases e with
      | invalid start bytes reason => exact Or.inr ⟨start, bytes, reason, rfl⟩
      | handlerRefusesDecoding => exact absurd (decode_refuses decoded) able

variable {decode : Bytes → Except Exn Str} {data utf8 : Bytes} {maxSize : Nat} {label : String}

theorem readText_cases (decodes : Decodes decode) (label : String) (utf8 : Bytes) (dataLen : Nat) :
    (∃ text, decode utf8 = .ok text ∧
        utf8.length + 1 + padToWord (utf8.length + 1) ≤ dataLen ∧
        readText decode label utf8 dataLen =
          .ok (text, utf8.length + 1 + padToWord (utf8.length + 1))) ∨
      RaisesDecodeError (readText decode label utf8 dataLen) := by
  rcases decodes utf8 with ⟨text, read⟩ | ⟨start, bytes, reason, raised⟩
  · by_cases short : dataLen < utf8.length + 1 + padToWord (utf8.length + 1)
    · right
      rw [readText, decodeUtf8, read]
      simp only [ok_bind, finishText, raiseIf, if_pos short, error_bind]
      exact ⟨_, rfl⟩
    · refine Or.inl ⟨text, read, not_lt.mp short, ?_⟩
      rw [readText, decodeUtf8, read]
      simp only [ok_bind, finishText]
      rw [raiseIf_neg short]
      rfl
  · right
    rw [readText, decodeUtf8, raised]
    exact ⟨_, rfl⟩

/-- The probes and the chunks of the memoryview reader find what one bounded search finds. -/
theorem decodeText_paths_agree (decode : Bytes → Except Exn Str) (decodes : Decodes decode)
    (data : Bytes) (maxSize : Nat) (label : String) :
    ((∃ text consumed, decodeTextView decode label data maxSize = .ok (text, consumed) ∧
          decodeTextBytes decode label data maxSize = .ok (text, consumed)) ∨
        (RaisesDecodeError (decodeTextView decode label data maxSize) ∧
          RaisesDecodeError (decodeTextBytes decode label data maxSize))) ∧
      ∀ text consumed, decodeTextView decode label data maxSize = .ok (text, consumed) →
        consumed % 8 = 0 ∧ consumed ≤ data.length ∧
          ∃ nul, findNul data = some nul ∧ nul ≤ maxSize ∧ decode (data.take nul) = .ok text := by
  rcases nul_cases data maxSize with ⟨utf8, rest, rfl, clean, small⟩ | missing
  · rw [decodeTextView_found clean small, decodeTextBytes_found clean small]
    have position : findNul (utf8 ++ 0 :: rest) = some utf8.length := by
      have whole := findNul_take clean rest (utf8 ++ 0 :: rest).length
      rwa [List.take_length, if_pos (by simp)] at whole
    rcases readText_cases decodes label utf8 (utf8 ++ 0 :: rest).length with
      ⟨text, read, padded, returns⟩ | raises
    · refine ⟨Or.inl ⟨_, _, returns, returns⟩, ?_⟩
      intro text' consumed returned
      rw [returns] at returned
      cases returned
      exact ⟨mod_padToWord _, padded, utf8.length, position, small, by rwa [List.take_left]⟩
    · refine ⟨Or.inr ⟨raises, raises⟩, ?_⟩
      intro text consumed returned
      obtain ⟨message, raised⟩ := raises
      rw [returned] at raised
      cases raised
  · have view : RaisesDecodeError (decodeTextView decode label data maxSize) :=
      decodeTextView_missing missing label
    refine ⟨Or.inr ⟨view, decodeTextBytes_missing missing label⟩, ?_⟩
    intro text consumed returned
    obtain ⟨message, raised⟩ := view
    rw [returned] at raised
    cases raised

theorem decodeText_paths_agree_at_cap :
    Decodes (bytesDecode .strict) ∧
      ∃ text consumed, decodeTextView (bytesDecode .strict) "Text" [97, 98, 0, 0, 0, 0, 0, 0] 2 =
        .ok (text, consumed) ∧ consumed % 8 = 0 := by
  have decodes := bytesDecode_decodes strict_decodes
  have read : decodeTextView (bytesDecode .strict) "Text" [97, 98, 0, 0, 0, 0, 0, 0] 2 =
      .ok ([⟨97, by decide⟩, ⟨98, by decide⟩], 8) := by decide +kernel
  exact ⟨decodes, _, _, read, ((decodeText_paths_agree _ decodes _ _ _).2 _ _ read).1⟩

end Text

section Blob

/-- A blob is framed faithfully, and read back, exactly when the length of its value counts bytes:
of a view with wider items, or with more than one dimension, it does not. -/
theorem encodeBlob_faithful_iff (value : BytesLike) (cap : Nat) (encoded : Bytes)
    (returned : encodeBlob value cap = .ok encoded) :
    (encoded.length % 8 = 0 ∧ fromLE (encoded.take 8) = value.raw.length ∧
        decodeBlob encoded cap = .ok (value.raw, encoded.length)) ↔
      value.len = value.raw.length := by
  obtain ⟨small, bound, rfl⟩ := encodeBlob_ok returned
  obtain ⟨len, raw⟩ := value
  simp only at small bound ⊢
  have stored : fromLE ((toLE 8 len ++ raw ++ zeros (padToWord len)).take 8) = len := by
    rw [List.append_assoc, List.take_left' (toLE_length 8 len), fromLE_toLE 8 len bound]
  constructor
  · rintro ⟨_, counted, _⟩
    rw [← counted, stored]
  · rintro rfl
    have length : (toLE 8 raw.length ++ raw ++ zeros (padToWord raw.length)).length =
        8 + raw.length + padToWord raw.length := by
      simp only [List.length_append, toLE_length, zeros_length]
    have aligned := mod_padToWord raw.length
    have read := decodeBlob_framed small bound []
    rw [List.append_nil] at read
    rw [length]
    exact ⟨by omega, stored, read⟩

theorem encodeBlob_faithful_iff_bytes :
    decodeBlob [3, 0, 0, 0, 0, 0, 0, 0, 7, 8, 9, 0, 0, 0, 0, 0] 3 = .ok ([7, 8, 9], 16) :=
  ((encodeBlob_faithful_iff ⟨3, [7, 8, 9]⟩ 3 _ (by decide)).mpr rfl).2.2

/-- A view of two 4-byte items: the prefix says two bytes, eight follow, and what follows is no
longer at a word boundary. -/
theorem encodeBlob_typed_view :
    ∃ encoded, encodeBlob ⟨2, [1, 0, 0, 0, 2, 0, 0, 0]⟩ = .ok encoded ∧
      encoded.length % 8 ≠ 0 ∧ decodeBlob encoded = .ok ([1, 0], 16) := by
  refine ⟨[2, 0, 0, 0, 0, 0, 0, 0] ++ [1, 0, 0, 0, 2, 0, 0, 0] ++ zeros 6, ?_, ?_, ?_⟩ <;>
    decide +kernel

end Blob

section Params

/-- A params tuple is read back at any offset, unless it is the 8-byte empty one at an offset inside
a word: there the encoder writes a word, and the decoder pads the count to the end of the word. -/
theorem paramsTuple_round_trip_iff (isoError : Str → Option String) (source : Source)
    (params : List WireInput) (schema offset : Nat) (emit : Bool) (encoded : Bytes)
    (version : schema = 0 ∨ schema = 1)
    (returned : encodeParamsTuple isoError params schema offset emit = .ok encoded) :
    decodeParamsTuple source encoded none schema offset =
        .ok (params.map asValue, encoded.length) ↔
      params ≠ [] ∨ emit = false ∨ offset % 8 = 0 := by
  by_cases empty : params = []
  · subst empty
    rw [encodeParamsTuple_none version] at returned
    cases emit with
    | false =>
        cases returned
        exact iff_of_true (decodeParamsTuple_nothing source version) (Or.inr (Or.inl rfl))
    | true =>
        cases returned
        rw [if_pos rfl, decodeParamsTuple_zeros source version, ← padded_count_eq version]
        simp [zeros]
  · exact iff_of_true (decodeParamsTuple_some source version empty returned) (Or.inl empty)

theorem paramsTuple_round_trip_iff_unaligned :
    decodeParamsTuple .bytes ([1, 1, 0, 0, 0, 0] ++ toLE 8 (2 ^ 64 - 7)) none 0 2 =
      .ok ([.int (-7)], 14) :=
  (paramsTuple_round_trip_iff (fun _ => none) .bytes [.value (.int (-7))] 0 2 true _
    (Or.inl rfl) (by decide +kernel)).mpr (Or.inl (by simp))

/-- An empty V0 tuple at offset 4: a word is written, four bytes are read. -/
theorem paramsTuple_empty_unaligned :
    encodeParamsTuple (fun _ => none) [] 0 4 true = .ok (zeros 8) ∧
      decodeParamsTuple .bytes (zeros 8) none 0 4 = .ok ([], 4) ∧ (zeros 8).length = 8 := by
  decide +kernel

end Params

end DqliteWire
