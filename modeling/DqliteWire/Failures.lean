import DqliteWire.RoundTrip

/-! A failure record, alone or behind the column count and names of a rows header that the server
had begun. The two readings of a body differ in length, which tells them apart. -/

namespace DqliteWire

open WireLib WireLib.Utf8

namespace FailureResponse

variable {names : List Str} {code : Int} {message : Str} {record : Bytes}

theorem skipColumnNames_encode {bytes : Bytes}
    (encoded : RowsResponse.encodeNames names = .ok bytes) (before rest : Bytes) :
    skipColumnNames (before ++ bytes ++ rest) names.length before.length =
      .ok (before.length + bytes.length) := by
  induction names generalizing bytes before with
  | nil =>
      cases encoded
      rfl
  | cons name names ih =>
      obtain ⟨text, written, tail⟩ := bind_eq_ok.mp encoded
      obtain ⟨others, later, last⟩ := bind_eq_ok.mp tail
      cases last
      have first := (decodeText_encode written .bytes (others ++ rest) "column name" .strict).1
      have following := ih later (before ++ text)
      have here : (before ++ (text ++ others) ++ rest).drop before.length =
          text ++ (others ++ rest) := by
        rw [List.append_assoc, List.append_assoc, List.drop_left]
      simp only [List.append_assoc, List.length_append] at following here
      simp only [skipColumnNames, List.length_cons, List.append_assoc, here, first, ok_bind, following,
        List.length_append, Nat.add_assoc]

theorem encodeBody_ok (encoded : encodeBody ⟨code, message⟩ = .ok record) :
    ∃ n text, code = (n : Nat) ∧ n < 256 ^ 8 ∧
      encodeText message (some maxFailureMessageSize) "Failure message" = .ok text ∧
      record = toLE 8 n ++ text := by
  obtain ⟨word, written, tail⟩ := bind_eq_ok.mp encoded
  obtain ⟨text, said, last⟩ := bind_eq_ok.mp tail
  cases last
  obtain ⟨positive, bound, rfl⟩ := encodeUint64_ok written
  exact ⟨code.toNat, text, (Int.toNat_of_nonneg positive).symm, bound, said, rfl⟩

theorem new_ok {n : Nat} (bound : n < 256 ^ 8) (message : Str) :
    new n message = .ok ⟨n, message⟩ := by
  rw [new, validateUint64_ok bound, ok_bind]
  rfl

theorem decodeBody_record (encoded : encodeBody ⟨code, message⟩ = .ok record) :
    decodeBody record = .ok ⟨code, sanitizeServerText message⟩ := by
  obtain ⟨n, text, rfl, bound, said, rfl⟩ := encodeBody_ok encoded
  obtain ⟨read, _, long⟩ := decodeText_encode said .bytes [] "Failure message" .strict
  rw [List.append_nil] at read
  have head : (toLE 8 n ++ text).take 8 = toLE 8 n ++ [] := by
    rw [List.take_left' (toLE_length 8 n), List.append_nil]
  have body : (toLE 8 n ++ text).drop 8 = text := List.drop_left' (toLE_length 8 n)
  have length : (toLE 8 n ++ text).length = 8 + text.length := by rw [List.length_append, toLE_length]
  rw [decodeBody, raiseIf_neg (by simp), ok_bind, raiseIf_neg (by omega), ok_bind, head,
    decodeUint64_toLE bound, ok_bind, body, read, ok_bind]
  simp only [length, ne_eq, not_true_eq_false, if_false]
  exact new_ok bound _

theorem recoverTrailingFailureRecord_stacked {bytes : Bytes}
    (named : RowsResponse.encodeNames names = .ok bytes) (few : names.length ≤ maxColumnCount)
    {n : Nat} {text : Bytes} (bound : n < 256 ^ 8)
    (said : encodeText message (some maxFailureMessageSize) "Failure message" = .ok text) :
    recoverTrailingFailureRecord (toLE 8 names.length ++ bytes ++ (toLE 8 n ++ text)) names.length =
      .ok (some (n, message)) := by
  obtain ⟨read, _, long⟩ := decodeText_encode said .bytes [] "Failure message" .strict
  rw [List.append_nil] at read
  have skipped := skipColumnNames_encode named (toLE 8 names.length) (toLE 8 n ++ text)
  rw [toLE_length] at skipped
  have length : (toLE 8 names.length ++ bytes ++ (toLE 8 n ++ text)).length =
      8 + bytes.length + (8 + text.length) := by
    simp only [List.length_append, toLE_length]
  have reached : (toLE 8 names.length ++ bytes).length = 8 + bytes.length := by
    rw [List.length_append, toLE_length]
  have here : (toLE 8 names.length ++ bytes ++ (toLE 8 n ++ text)).drop (8 + bytes.length) =
      toLE 8 n ++ text := List.drop_left' reached
  have word : (toLE 8 n ++ text).take 8 = toLE 8 n ++ [] := by
    rw [List.take_left' (toLE_length 8 n), List.append_nil]
  have rest : (toLE 8 names.length ++ bytes ++ (toLE 8 n ++ text)).drop (8 + bytes.length + 8) =
      text := by
    rw [← List.drop_drop, here, List.drop_left' (toLE_length 8 n)]
  have found : trailingRecord (toLE 8 names.length ++ bytes ++ (toLE 8 n ++ text)) names.length =
      .ok (some (n, message, 8 + bytes.length + 8 + text.length)) := by
    rw [trailingRecord, skipped, ok_bind, if_neg (by omega), here, word, decodeUint64_toLE bound,
      ok_bind, rest, read, ok_bind]
    rfl
  simp only [recoverTrailingFailureRecord, found, length]
  rw [if_neg (not_lt.mpr few), if_neg (by omega)]

/-- The record is read whether it stands alone or behind the names of a rows header; the header is
never taken for it. -/
theorem failure_record_recovered (names : List Str) (some_ : names ≠ [])
    (few : names.length ≤ maxColumnCount) (bytes : Bytes)
    (named : RowsResponse.encodeNames names = .ok bytes) (code : Int) (message : Str)
    (record : Bytes) (encoded : encodeBody ⟨code, message⟩ = .ok record) :
    decodeBody (toLE 8 names.length ++ bytes ++ record) =
        .ok ⟨code, sanitizeServerText message⟩ ∧
      decodeBody record = .ok ⟨code, sanitizeServerText message⟩ := by
  refine ⟨?_, decodeBody_record encoded⟩
  obtain ⟨n, text, rfl, bound, said, rfl⟩ := encodeBody_ok encoded
  have recovered := recoverTrailingFailureRecord_stacked named few bound said
  obtain ⟨_, _, long⟩ := decodeText_encode said .bytes [] "Failure message" .strict
  cases names with
  | nil => exact absurd rfl some_
  | cons name names =>
      obtain ⟨first, written, tail⟩ := bind_eq_ok.mp named
      obtain ⟨others, _, last⟩ := bind_eq_ok.mp tail
      cases last
      have count : (name :: names).length < 256 ^ 8 := lt_of_le_of_lt few (by norm_num [maxColumnCount])
      have large : maxColumnNameSize ≤ maxFailureMessageSize := by decide
      have said' := encodeText_wider large written "Failure message"
      obtain ⟨read, _, _⟩ := decodeText_encode said' .bytes (others ++ (toLE 8 n ++ text))
        "Failure message" .strict
      have length : (toLE 8 (name :: names).length ++ (first ++ others) ++ (toLE 8 n ++ text)).length =
          8 + first.length + others.length + (8 + text.length) := by
        simp only [List.length_append, toLE_length]
        omega
      have head : (toLE 8 (name :: names).length ++ (first ++ others) ++ (toLE 8 n ++ text)).take 8 =
          toLE 8 (name :: names).length ++ [] := by
        rw [List.append_assoc, List.take_left' (toLE_length 8 _), List.append_nil]
      have body : (toLE 8 (name :: names).length ++ (first ++ others) ++ (toLE 8 n ++ text)).drop 8 =
          first ++ (others ++ (toLE 8 n ++ text)) := by
        rw [List.append_assoc, List.drop_left' (toLE_length 8 _), List.append_assoc]
      rw [decodeBody, raiseIf_neg (by simp), ok_bind, raiseIf_neg (by omega), ok_bind, head,
        decodeUint64_toLE count, ok_bind, body, read, ok_bind]
      simp only [length]
      rw [if_pos (by omega), recovered, ok_bind]
      exact new_ok bound _

theorem failure_record_recovered_one_name :
    decodeBody (toLE 8 1 ++ [97, 0, 0, 0, 0, 0, 0, 0] ++
        ([1, 0, 0, 0, 0, 0, 0, 0] ++ [98, 0, 0, 0, 0, 0, 0, 0])) = .ok ⟨1, [⟨98, by decide⟩]⟩ :=
  (failure_record_recovered [[⟨97, by decide⟩]] (by simp) (by decide) _ (by decide) 1
    [⟨98, by decide⟩] _ (by decide)).1

end FailureResponse

end DqliteWire
