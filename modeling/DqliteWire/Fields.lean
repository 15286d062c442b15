import DqliteWire.Lib.Mask
import DqliteWire.Lib.Utf8Strict
import DqliteWire.Types

/-! The primitive fields: words, texts and blobs. Decoding undoes encoding in front of any further
bytes, and encoding undoes decoding up to the padding. -/

namespace DqliteWire

open WireLib WireLib.Utf8

theorem unpack_one (byte : UInt8) : unpack 1 [byte] = .ok byte.toNat := by simp [unpack, fromLE]

theorem unpack_of_length {n : Nat} {s : Bytes} (length : s.length = n) :
    unpack n s = .ok (fromLE s) := by
  rw [unpack, if_pos length]

theorem zeros_length (n : Nat) : (zeros n).length = n := List.length_replicate

theorem mod_padToWord (n : Nat) : (n + padToWord n) % 8 = 0 := by
  by_cases aligned : n % 8 = 0
  · simp [padToWord, aligned]
  · simp only [padToWord, wordSize, aligned, if_false]
    omega

theorem padToWord_lt (n : Nat) : padToWord n < 8 := by
  by_cases aligned : n % 8 = 0
  · simp [padToWord, aligned]
  · simp only [padToWord, wordSize, aligned, if_false]
    omega

theorem unpack_toLE (width : Nat) {n : Nat} (bound : n < 256 ^ width) :
    unpack width (toLE width n) = .ok n := by
  rw [unpack_of_length (toLE_length width n), fromLE_toLE width n bound]

theorem decodeWord_toLE {n : Nat} (bound : n < 256 ^ 8) (rest : Bytes) (label : String) :
    decodeWord (toLE 8 n ++ rest) label = .ok n := by
  have long : ¬ (toLE 8 n ++ rest).length < 8 := by
    rw [List.length_append, toLE_length]
    omega
  rw [decodeWord, raiseIf_neg long, ok_bind, List.take_left' (toLE_length 8 n), unpack_toLE 8 bound]

theorem validateUint_ok {bits n : Nat} (bound : n < 2 ^ bits) (name : String) :
    validateUint bits name n = .ok () :=
  raiseIf_neg (not_not.mpr ⟨Int.natCast_nonneg n, by exact_mod_cast bound⟩)

theorem validateUint64_ok {n : Nat} (bound : n < 256 ^ 8) (name : String) :
    validateUint64 name n = .ok () := validateUint_ok (lt_of_lt_of_eq bound (by norm_num)) name

theorem encodeUint64_ok {value : Int} {bytes : Bytes} (encoded : encodeUint64 value = .ok bytes) :
    0 ≤ value ∧ value.toNat < 256 ^ 8 ∧ bytes = toLE 8 value.toNat := by
  obtain ⟨_, checked, last⟩ := bind_eq_ok.mp encoded
  have range := not_not.mp (raiseIf_eq_ok.mp checked)
  cases last
  refine ⟨range.1, ?_, rfl⟩
  have bound : value < 18446744073709551616 := range.2
  omega

theorem encodeUint64_nat {n : Nat} (bound : n < 256 ^ 8) : encodeUint64 n = .ok (toLE 8 n) := by
  rw [encodeUint64, validateUint64_ok bound, ok_bind, Int.toNat_natCast]
  rfl

theorem encodeUint32_nat {n : Nat} (bound : n < 256 ^ 4) : encodeUint32 n = .ok (toLE 4 n) := by
  have small : n < 2 ^ 32 := lt_of_lt_of_eq bound (by norm_num)
  rw [encodeUint32, validateUint32, validateUint_ok small, ok_bind, Int.toNat_natCast]
  rfl

theorem decodeUint64_toLE {n : Nat} (bound : n < 256 ^ 8) (rest : Bytes) (label : String) :
    decodeUint64 (toLE 8 n ++ rest) label = .ok n := decodeWord_toLE bound rest label

theorem decodeInt64_encode {value : Int} {bytes : Bytes} (encoded : encodeInt64 value = .ok bytes)
    (rest : Bytes) (label : String) :
    decodeInt64 (bytes ++ rest) label = .ok value ∧ bytes.length = 8 := by
  obtain ⟨_, checked, last⟩ := bind_eq_ok.mp encoded
  have range := not_not.mp (raiseIf_eq_ok.mp checked)
  cases last
  have low : -9223372036854775808 ≤ value := range.1
  have high : value < 9223372036854775808 := range.2
  have word : (value % 18446744073709551616).toNat < 256 ^ 8 := by omega
  have same : (value % 2 ^ 64).toNat = (value % 18446744073709551616).toNat := rfl
  refine ⟨?_, toLE_length 8 _⟩
  rw [decodeInt64, same, decodeWord_toLE word, ok_bind]
  have back : signed64 (value % 18446744073709551616).toNat = value := by
    simp only [signed64]
    split <;> omega
  rw [back]
  rfl

section Text

variable {s : Str} {utf8 rest : Bytes}

theorem findNul_clean (clean : (0 : UInt8) ∉ utf8) : findNul utf8 = none := by
  rw [findNul, List.findIdx?_eq_none_iff]
  intro byte member
  simpa using fun zero : byte = 0 => clean (zero ▸ member)

theorem clean_of_findNul (missing : findNul utf8 = none) : (0 : UInt8) ∉ utf8 := by
  rw [findNul, List.findIdx?_eq_none_iff] at missing
  intro member
  simpa using missing 0 member

theorem findNul_take (clean : (0 : UInt8) ∉ utf8) (rest : Bytes) (n : Nat) :
    findNul ((utf8 ++ 0 :: rest).take n) = if utf8.length < n then some utf8.length else none := by
  rw [List.take_append]
  split
  · rename_i inside
    obtain ⟨k, more⟩ : ∃ k, n - utf8.length = k + 1 := ⟨n - utf8.length - 1, by omega⟩
    rw [List.take_of_length_le (by omega), more, List.take_succ_cons, findNul, List.findIdx?_append]
    have first := findNul_clean clean
    rw [findNul] at first
    rw [first, Option.none_or, List.findIdx?_cons]
    simp
  · rename_i outside
    rw [Nat.sub_eq_zero_of_le (by omega), List.take_zero, List.append_nil]
    exact findNul_clean fun member => clean (List.mem_of_mem_take member)

theorem scanChunks_found (clean : (0 : UInt8) ∉ utf8) (rest : Bytes) (limit scanned : Nat)
    (chunks : List Bytes) (before : scanned ≤ utf8.length) (after : utf8.length < limit) :
    ∃ all, scanChunks (utf8 ++ 0 :: rest) limit scanned chunks = some (utf8.length, all) ∧
      all.flatten = chunks.flatten ++ utf8.drop scanned := by
  induction left : limit - scanned using Nat.strong_induction_on generalizing scanned chunks with
  | _ n ih =>
    have tail : (utf8 ++ 0 :: rest).drop scanned = utf8.drop scanned ++ 0 :: rest :=
      List.drop_append_of_le_length before
    have clean' : (0 : UInt8) ∉ utf8.drop scanned := fun member => clean (List.mem_of_mem_drop member)
    rw [scanChunks, if_pos (by omega)]
    simp only [tail, findNul_take clean', List.length_drop]
    by_cases found : utf8.length - scanned < min (scanned + textScanChunk) limit - scanned
    · have position : scanned + (utf8.length - scanned) = utf8.length := by omega
      simp only [if_pos found, position]
      refine ⟨_, rfl, ?_⟩
      simp only [List.flatten_append, List.flatten_cons, List.flatten_nil, List.append_nil]
      congr 1
      rw [List.take_take, min_eq_left (by omega), List.take_left' (by rw [List.length_drop])]
    · rw [if_neg found]
      simp only [textScanChunk] at found ⊢
      obtain ⟨all, scan, joined⟩ := ih (limit - min (scanned + 4096) limit) (by omega)
        (min (scanned + 4096) limit) (chunks ++ [(utf8.drop scanned ++ 0 :: rest).take
          (min (scanned + 4096) limit - scanned)]) (by omega) rfl
      refine ⟨all, scan, ?_⟩
      rw [joined, List.flatten_append, List.flatten_singleton, List.append_assoc]
      congr 1
      rw [List.take_append_of_le_length (by rw [List.length_drop]; omega)]
      have step : min (scanned + 4096) limit = scanned + (min (scanned + 4096) limit - scanned) := by
        omega
      conv_lhs => rw [step, ← List.drop_drop]
      rw [Nat.add_sub_cancel_left]
      exact List.take_append_drop _ _

theorem scanChunks_clean {data : Bytes} (limit : Nat) (clean : (0 : UInt8) ∉ data.take limit)
    (scanned : Nat) (chunks : List Bytes) : scanChunks data limit scanned chunks = none := by
  induction left : limit - scanned using Nat.strong_induction_on generalizing scanned chunks with
  | _ n ih =>
    rw [scanChunks]
    split
    · rename_i inside
      have window : (0 : UInt8) ∉
          (data.drop scanned).take (min (scanned + textScanChunk) limit - scanned) := by
        intro member
        refine clean (List.mem_of_mem_drop (i := scanned) ?_)
        rw [List.drop_take]
        exact (List.take_prefix_take_left (by omega)).subset member
      simp only [findNul_clean window]
      exact ih (limit - min (scanned + textScanChunk) limit) (by simp only [textScanChunk]; omega) _ _ rfl
    · rfl

def readText (decode : Bytes → Except Exn Str) (label : String) (utf8 : Bytes) (dataLen : Nat) :
    Except Exn (Str × Nat) := do
  let text ← decodeUtf8 decode label utf8
  finishText dataLen text utf8.length

section Reading

variable {decode : Bytes → Except Exn Str} {maxSize : Nat}

theorem decodeTextView_found (clean : (0 : UInt8) ∉ utf8) (small : utf8.length ≤ maxSize)
    (label : String) : decodeTextView decode label (utf8 ++ 0 :: rest) maxSize =
      readText decode label utf8 (utf8 ++ 0 :: rest).length := by
  have longer : utf8.length < (utf8 ++ 0 :: rest).length := by simp
  have first (n : Nat) (inside : utf8.length < n) :
      ((utf8 ++ 0 :: rest).take n).take utf8.length = utf8 := by
    rw [List.take_take, min_eq_left (by omega), List.take_left]
  have shortProbe : textShortProbe = 256 := rfl
  have oneShot : textOneShotMax = 65536 := rfl
  unfold decodeTextView readText
  simp only [findNul_take clean]
  by_cases short : utf8.length < min (min (utf8 ++ 0 :: rest).length (maxSize + 1)) textShortProbe
  · simp only [if_pos short, first _ short]
  · simp only [if_neg short]
    rw [if_neg (by omega), if_neg (by omega)]
    by_cases probe : utf8.length <
        min (min (utf8 ++ 0 :: rest).length (maxSize + 1)) textOneShotMax
    · simp only [if_pos probe, first _ probe]
    · simp only [if_neg probe]
      rw [if_neg (by omega), if_neg (by omega)]
      obtain ⟨all, scan, joined⟩ := scanChunks_found clean rest
        (min (utf8 ++ 0 :: rest).length (maxSize + 1))
        (min (min (utf8 ++ 0 :: rest).length (maxSize + 1)) textOneShotMax)
        [(utf8 ++ 0 :: rest).take
          (min (min (utf8 ++ 0 :: rest).length (maxSize + 1)) textOneShotMax)]
        (by omega) (by omega)
      have text : all.flatten = utf8 := by
        rw [joined, List.flatten_singleton, List.take_append_of_le_length (by omega)]
        exact List.take_append_drop _ _
      simp only [scan, text]

theorem decodeTextBytes_found (clean : (0 : UInt8) ∉ utf8) (small : utf8.length ≤ maxSize)
    (label : String) : decodeTextBytes decode label (utf8 ++ 0 :: rest) maxSize =
      readText decode label utf8 (utf8 ++ 0 :: rest).length := by
  have longer : utf8.length < (utf8 ++ 0 :: rest).length := by simp
  unfold decodeTextBytes readText
  simp only [findNul_take clean]
  rw [if_pos (by omega)]
  simp only [List.take_left]

theorem decodeTextView_missing {data : Bytes} (clean : (0 : UInt8) ∉ data.take (maxSize + 1))
    (label : String) : ∃ text, decodeTextView decode label data maxSize = .error (.decodeError text) := by
  have window (n : Nat) (inside : n ≤ maxSize + 1) : findNul (data.take n) = none :=
    findNul_clean fun member => clean ((List.take_prefix_take_left inside).subset member)
  have scanned := scanChunks_clean (min data.length (maxSize + 1))
    (fun member => clean ((List.take_prefix_take_left (min_le_right _ _)).subset member))
  unfold decodeTextView
  simp only [window _ (show min (min data.length (maxSize + 1)) textShortProbe ≤ _ by omega),
    window _ (show min (min data.length (maxSize + 1)) textOneShotMax ≤ _ by omega), scanned]
  split
  · exact ⟨_, rfl⟩
  · split
    · exact ⟨_, rfl⟩
    · split
      · exact ⟨_, rfl⟩
      · split
        · exact ⟨_, rfl⟩
        · split <;> exact ⟨_, rfl⟩

theorem decodeTextBytes_missing {data : Bytes} (clean : (0 : UInt8) ∉ data.take (maxSize + 1))
    (label : String) :
    ∃ text, decodeTextBytes decode label data maxSize = .error (.decodeError text) := by
  have window : findNul (data.take (min data.length (maxSize + 1))) = none :=
    findNul_clean fun member => clean ((List.take_prefix_take_left (min_le_right _ _)).subset member)
  unfold decodeTextBytes
  simp only [window]
  split <;> exact ⟨_, rfl⟩

end Reading

theorem decodeText_found {utf8 : Bytes} {maxSize : Nat} (clean : (0 : UInt8) ∉ utf8)
    (small : utf8.length ≤ maxSize) (source : Source) (rest : Bytes) (label : String)
    (errors : Handler) :
    decodeText source (utf8 ++ 0 :: rest) maxSize label errors =
      readText (bytesDecode errors) label utf8 (utf8 ++ 0 :: rest).length := by
  cases source with
  | view => exact decodeTextView_found clean small label
  | bytes => exact decodeTextBytes_found clean small label

theorem nul_cases (data : Bytes) (maxSize : Nat) :
    (∃ utf8 rest, data = utf8 ++ 0 :: rest ∧ (0 : UInt8) ∉ utf8 ∧ utf8.length ≤ maxSize) ∨
      (0 : UInt8) ∉ data.take (maxSize + 1) := by
  by_cases found : (0 : UInt8) ∈ data.take (maxSize + 1)
  · left
    obtain ⟨utf8, more, split, clean⟩ := List.eq_append_cons_of_mem found
    have small : utf8.length ≤ maxSize := by
      have width := congrArg List.length split
      rw [List.length_take, List.length_append, List.length_cons] at width
      omega
    refine ⟨utf8, more ++ data.drop (maxSize + 1), ?_, clean, small⟩
    conv_lhs => rw [← List.take_append_drop (maxSize + 1) data, split]
    simp
  · exact Or.inr found

/-- Both readers look for the first NUL within the cap and read the text before it, whatever the
error handler. -/
theorem decodeText_cases (source : Source) (data : Bytes) (maxSize : Nat) (label : String) :
    (∃ utf8 rest, data = utf8 ++ 0 :: rest ∧ (0 : UInt8) ∉ utf8 ∧ utf8.length ≤ maxSize ∧
        ∀ errors, decodeText source data maxSize label errors =
          readText (bytesDecode errors) label utf8 data.length) ∨
      ((0 : UInt8) ∉ data.take (maxSize + 1) ∧
        ∀ errors, ∃ text, decodeText source data maxSize label errors = .error (.decodeError text)) := by
  rcases nul_cases data maxSize with ⟨utf8, rest, rfl, clean, small⟩ | missing
  · left
    refine ⟨utf8, rest, rfl, clean, small, ?_⟩
    intro errors
    exact decodeText_found clean small source rest label errors
  · right
    refine ⟨missing, fun errors => ?_⟩
    cases source with
    | view => exact decodeTextView_missing missing label
    | bytes => exact decodeTextBytes_missing missing label

theorem encodeText_wider {cap wider : Nat} (larger : cap ≤ wider) {bytes : Bytes} {label : String}
    (encoded : encodeText s (some cap) label = .ok bytes) (label' : String) :
    encodeText s (some wider) label' = .ok bytes := by
  unfold encodeText at encoded ⊢
  cases valid : Utf8.encode s with
  | error position =>
      rw [valid] at encoded
      cases encoded
  | ok utf8 =>
      rw [valid] at encoded
      obtain ⟨_, same, next⟩ := bind_eq_ok.mp encoded
      cases same
      obtain ⟨_, small, last⟩ := bind_eq_ok.mp next
      have within : ¬ ∃ c ∈ some wider, c < utf8.length := by
        rintro ⟨c, member, large⟩
        cases member
        exact raiseIf_eq_ok.mp small ⟨cap, rfl, by omega⟩
      simp only [ok_bind, raiseIf_neg within]
      cases missing : findNul utf8 with
      | some offset =>
          rw [missing] at last
          cases last
      | none =>
          rw [missing] at last
          exact last

theorem decodeText_encode {cap : Nat} {bytes : Bytes} {encodeLabel : String}
    (encoded : encodeText s (some cap) encodeLabel = .ok bytes) (source : Source) (rest : Bytes)
    (label : String) (errors : Handler) :
    decodeText source (bytes ++ rest) cap label errors = .ok (s, bytes.length) ∧
      bytes.length % 8 = 0 ∧ 8 ≤ bytes.length := by
  unfold encodeText at encoded
  cases valid : Utf8.encode s with
  | error position =>
      rw [valid] at encoded
      cases encoded
  | ok utf8 =>
      rw [valid] at encoded
      obtain ⟨_, same, next⟩ := bind_eq_ok.mp encoded
      cases same
      obtain ⟨_, small, last⟩ := bind_eq_ok.mp next
      have within : utf8.length ≤ cap := by
        by_contra large
        exact raiseIf_eq_ok.mp small ⟨cap, rfl, by omega⟩
      split at last
      · cases last
      · rename_i missing
        cases last
        have clean := clean_of_findNul missing
        have decoded : bytesDecode errors utf8 = .ok s := by
          rw [bytesDecode, Utf8.decode_encode errors s utf8 valid]
        have terminated : (utf8 ++ zeros (1 + padToWord (utf8.length + 1))) ++ rest =
            utf8 ++ 0 :: (zeros (padToWord (utf8.length + 1)) ++ rest) := by
          rw [zeros, Nat.add_comm 1, List.replicate_succ, List.append_assoc]
          rfl
        have length : (utf8 ++ zeros (1 + padToWord (utf8.length + 1))).length =
            utf8.length + 1 + padToWord (utf8.length + 1) := by
          rw [List.length_append, zeros_length]
          omega
        refine ⟨?_, ?_⟩
        · have padded : utf8.length + 1 + padToWord (utf8.length + 1) ≤
              (utf8 ++ 0 :: (zeros (padToWord (utf8.length + 1)) ++ rest)).length := by
            simp only [List.length_append, List.length_cons, zeros_length]
            omega
          have read : readText (bytesDecode errors) label utf8
              (utf8 ++ 0 :: (zeros (padToWord (utf8.length + 1)) ++ rest)).length =
                .ok (s, utf8.length + 1 + padToWord (utf8.length + 1)) := by
            rw [readText, decodeUtf8, decoded]
            simp only [ok_bind, finishText]
            rw [raiseIf_neg (not_lt.mpr padded)]
            rfl
          rw [terminated, length, ← read]
          cases source with
          | view => exact decodeTextView_found clean within label
          | bytes => exact decodeTextBytes_found clean within label
        · rw [length]
          exact ⟨mod_padToWord _, by have := mod_padToWord (utf8.length + 1); omega⟩

end Text

/-- What `encode_blob` writes: every count is of the first dimension, the content is all bytes. -/
theorem encodeBlob_written {value : BytesLike} {cap : Nat} (small : value.len ≤ cap)
    (bound : value.len < 256 ^ 8) : encodeBlob value cap =
      .ok (toLE 8 value.len ++ value.raw ++ zeros (padToWord value.len)) := by
  have head : (toLE 8 value.len).length = 8 := toLE_length 8 _
  have left_ : 8 + value.len + padToWord value.len - 8 - (8 + value.len - 8) =
      padToWord value.len := by omega
  rw [encodeBlob]
  simp only
  rw [raiseIf_neg (not_lt.mpr small), ok_bind, encodeUint64_nat bound, ok_bind, List.take_left' head,
    List.drop_append, List.drop_of_length_le (by rw [head]; omega), head]
  simp only [zeros, List.drop_replicate, List.nil_append, left_]
  rfl

theorem encodeBlob_ok {value : BytesLike} {cap : Nat} {bytes : Bytes}
    (encoded : encodeBlob value cap = .ok bytes) :
    value.len ≤ cap ∧ value.len < 256 ^ 8 ∧
      bytes = toLE 8 value.len ++ value.raw ++ zeros (padToWord value.len) := by
  obtain ⟨_, checked, tail⟩ := bind_eq_ok.mp encoded
  obtain ⟨word, prefixed, _⟩ := bind_eq_ok.mp tail
  have small := not_lt.mp (raiseIf_eq_ok.mp checked)
  have bound := (encodeUint64_ok prefixed).2.1
  rw [Int.toNat_natCast] at bound
  rw [encodeBlob_written small bound] at encoded
  exact ⟨small, bound, (Except.ok.inj encoded).symm⟩

theorem decodeBlob_framed {content : Bytes} {cap : Nat} (small : content.length ≤ cap)
    (bound : content.length < 256 ^ 8) (rest : Bytes) :
    decodeBlob (toLE 8 content.length ++ content ++ zeros (padToWord content.length) ++ rest) cap =
      .ok (content, 8 + content.length + padToWord content.length) := by
  have room : (toLE 8 content.length ++ content ++ zeros (padToWord content.length) ++ rest).length =
      8 + content.length + padToWord content.length + rest.length := by
    simp only [List.length_append, toLE_length, zeros_length]
  have head : (toLE 8 content.length ++ content ++ zeros (padToWord content.length) ++ rest).take 8 =
      toLE 8 content.length ++ [] := by
    rw [List.append_assoc, List.append_assoc, List.take_left' (toLE_length 8 _), List.append_nil]
  have body : (toLE 8 content.length ++ content ++ zeros (padToWord content.length) ++ rest).drop 8 =
      content ++ (zeros (padToWord content.length) ++ rest) := by
    rw [List.append_assoc, List.append_assoc, List.drop_left' (toLE_length 8 _)]
  rw [decodeBlob, raiseIf_neg (by omega), ok_bind, head, decodeUint64_toLE bound, ok_bind,
    raiseIf_neg (not_lt.mpr small), ok_bind]
  simp only [body, List.take_left]
  rw [raiseIf_neg (by omega), ok_bind]
  rfl

theorem decodeBlob_encode {content bytes : Bytes}
    (encoded : encodeBlob ⟨content.length, content⟩ = .ok bytes) (rest : Bytes) :
    decodeBlob (bytes ++ rest) = .ok (content, bytes.length) ∧ bytes.length % 8 = 0 ∧
      8 ≤ bytes.length := by
  obtain ⟨small, bound, rfl⟩ := encodeBlob_ok encoded
  have length : (toLE 8 content.length ++ content ++ zeros (padToWord content.length)).length =
      8 + content.length + padToWord content.length := by
    simp only [List.length_append, toLE_length, zeros_length]
  have aligned := mod_padToWord content.length
  rw [length]
  exact ⟨decodeBlob_framed small bound rest, by omega, by omega⟩

section Reencoding

variable {data : Bytes} {source : Source} {label : String}

theorem decodeWord_ok {n : Nat} (decoded : decodeWord data label = .ok n) :
    8 ≤ data.length ∧ n < 256 ^ 8 ∧ data.take 8 = toLE 8 n := by
  obtain ⟨_, long, word⟩ := bind_eq_ok.mp decoded
  have room := not_lt.mp (raiseIf_eq_ok.mp long)
  have width : (data.take 8).length = 8 := by rw [List.length_take, min_eq_left room]
  rw [unpack_of_length width] at word
  obtain rfl := Except.ok.inj word
  have bound := fromLE_lt (data.take 8)
  have spelt := toLE_fromLE (data.take 8)
  rw [width] at bound spelt
  exact ⟨room, bound, spelt.symm⟩

theorem decodeUint32_ok {n : Nat} (decoded : decodeUint32 data = .ok n) :
    4 ≤ data.length ∧ n < 256 ^ 4 ∧ data.take 4 = toLE 4 n := by
  obtain ⟨_, long, word⟩ := bind_eq_ok.mp decoded
  have room := not_lt.mp (raiseIf_eq_ok.mp long)
  have width : (data.take 4).length = 4 := by rw [List.length_take, min_eq_left room]
  rw [unpack_of_length width] at word
  obtain rfl := Except.ok.inj word
  have bound := fromLE_lt (data.take 4)
  have spelt := toLE_fromLE (data.take 4)
  rw [width] at bound spelt
  exact ⟨room, bound, spelt.symm⟩

theorem encodeInt64_signed {word : Nat} (bound : word < 256 ^ 8) :
    encodeInt64 (signed64 word) = .ok (toLE 8 word) := by
  have small : word < 18446744073709551616 := bound
  have half : (2 : Nat) ^ 63 = 9223372036854775808 := by norm_num
  have whole : (2 : Int) ^ 64 = 18446744073709551616 := by norm_num
  have low : -(2 : Int) ^ 63 = -9223372036854775808 := by norm_num
  have high : (2 : Int) ^ 63 = 9223372036854775808 := by norm_num
  have range : -(2 : Int) ^ 63 ≤ signed64 word ∧ signed64 word < 2 ^ 63 := by
    rw [low, high, signed64, half, whole]
    split <;> omega
  have back : (signed64 word % 2 ^ 64).toNat = word := by
    rw [signed64, half, whole]
    split <;> omega
  rw [encodeInt64, validateInt64, raiseIf_neg (not_not.mpr range), ok_bind, back]
  rfl

/-- The bytes of the text at the front of `data` that its reader looks at: not the padding. -/
def textMask (data : Bytes) : Bytes :=
  match findNul data with
  | some n => ones (n + 1) ++ blanks (padToWord (n + 1))
  | none => []

theorem findNul_found {utf8 : Bytes} (clean : (0 : UInt8) ∉ utf8) (rest : Bytes) :
    findNul (utf8 ++ 0 :: rest) = some utf8.length := by
  have found := findNul_take clean rest (utf8 ++ 0 :: rest).length
  rwa [List.take_length, if_pos (by simp)] at found

theorem readText_strict {utf8 : Bytes} {s : Str} {dataLen n : Nat}
    (read : readText (bytesDecode .strict) label utf8 dataLen = .ok (s, n)) :
    Utf8.decode .strict utf8 = .ok s ∧ finishText dataLen s utf8.length = .ok (s, n) := by
  obtain ⟨text, utf8Decoded, finished⟩ := bind_eq_ok.mp read
  unfold decodeUtf8 bytesDecode at utf8Decoded
  cases result : Utf8.decode .strict utf8 with
  | ok other =>
      rw [result] at utf8Decoded
      cases utf8Decoded
      obtain ⟨_, _, last⟩ := bind_eq_ok.mp finished
      cases last
      exact ⟨rfl, finished⟩
  | error fault =>
      rw [result] at utf8Decoded
      cases fault <;> cases utf8Decoded

theorem decodeText_rewrites {maxSize : Nat} {s : Str} {n : Nat}
    (decoded : decodeText source data maxSize label .strict = .ok (s, n)) (encodeLabel : String) :
    ∃ bytes, encodeText s (some maxSize) encodeLabel = .ok bytes ∧
      Rewrites (textMask data) data n bytes := by
  rcases decodeText_cases source data maxSize label with
    ⟨utf8, rest, rfl, clean, small, read⟩ | ⟨_, failed⟩
  · rw [read] at decoded
    obtain ⟨strict, finished⟩ := readText_strict decoded
    obtain ⟨_, room, last⟩ := bind_eq_ok.mp finished
    cases last
    have within : ¬ ∃ cap ∈ some maxSize, cap < utf8.length := by
      rintro ⟨cap, member, large⟩
      cases member
      omega
    refine ⟨utf8 ++ zeros (1 + padToWord (utf8.length + 1)), ?_, ?_⟩
    · rw [encodeText, encode_decode strict]
      simp only [ok_bind, raiseIf_neg within, findNul_clean clean]
      rfl
    · have enough := not_lt.mp (raiseIf_eq_ok.mp room)
      have text : Rewrites (ones (utf8.length + 1)) (utf8 ++ 0 :: rest) (utf8.length + 1)
          (utf8 ++ [0]) := by
        refine .of_eq (by simp) ?_
        rw [List.take_append, List.take_of_length_le (by omega), Nat.add_sub_cancel_left]
        rfl
      have padding : padToWord (utf8.length + 1) ≤
          ((utf8 ++ 0 :: rest).drop (utf8.length + 1)).length := by
        rw [List.length_drop]
        omega
      have padded := text.append (.padding padding)
      rw [textMask, findNul_found clean]
      simp only [zeros, Nat.add_comm 1, List.replicate_succ]
      simpa only [blanks, List.append_assoc, List.cons_append, List.nil_append] using padded
  · obtain ⟨_, raised⟩ := failed .strict
    rw [raised] at decoded
    cases decoded

def blobMask (data : Bytes) : Bytes :=
  let length := fromLE (data.take 8)
  ones (8 + length) ++ blanks (padToWord length)

theorem decodeBlob_rewrites {content : Bytes} {n : Nat}
    (decoded : decodeBlob data = .ok (content, n)) :
    ∃ bytes, encodeBlob ⟨content.length, content⟩ = .ok bytes ∧ content.length ≤ maxBlobSize ∧
      Rewrites (blobMask data) data n bytes := by
  obtain ⟨_, _, tail⟩ := bind_eq_ok.mp decoded
  obtain ⟨length, read, tail⟩ := bind_eq_ok.mp tail
  obtain ⟨_, small, tail⟩ := bind_eq_ok.mp tail
  obtain ⟨_, room, last⟩ := bind_eq_ok.mp tail
  cases last
  have within := not_lt.mp (raiseIf_eq_ok.mp small)
  have enough := not_lt.mp (raiseIf_eq_ok.mp room)
  obtain ⟨_, bound, word⟩ := decodeWord_ok read
  rw [List.take_take, min_self] at word
  have size : ((data.drop 8).take length).length = length := by
    rw [List.length_take, List.length_drop]
    omega
  have lengthOf : fromLE (data.take 8) = length := by rw [word, fromLE_toLE 8 length bound]
  have whole : data.take (8 + length) = toLE 8 length ++ (data.drop 8).take length := by
    rw [List.take_add, word]
  have written : encodeBlob ⟨length, (data.drop 8).take length⟩ =
      .ok (toLE 8 length ++ (data.drop 8).take length ++ zeros (padToWord length)) :=
    encodeBlob_written within bound
  refine ⟨data.take (8 + length) ++ zeros (padToWord length), ?_, by rw [size]; exact within, ?_⟩
  · rw [size, written, whole]
  · have text : Rewrites (ones (8 + length)) data (8 + length) (data.take (8 + length)) :=
      .same (by omega)
    have padding : padToWord length ≤ (data.drop (8 + length)).length := by
      rw [List.length_drop]
      omega
    have padded := text.append (.padding padding)
    rw [blobMask, lengthOf]
    exact padded

end Reencoding

end DqliteWire
