import DqliteWire.Contract
import DqliteWire.Failures

/-! Texts a server chose, on their way to a terminal or a log: what the sanitisers leave of them, how the
length cap cuts them, and that a decoder hands out no other. -/

namespace DqliteWire

open WireLib WireLib.Utf8

def lineFeed : CodePoint := ⟨0x0A, by decide⟩
def tabulator : CodePoint := ⟨0x09, by decide⟩
theorem char_inRange (c : Char) : c.toNat < 0x110000 := by
  rcases c.valid with low | ⟨_, high⟩
  · exact low.trans (by decide)
  · exact high

def point (c : Char) : CodePoint := ⟨c.toNat, char_inRange c⟩

/-- No control, bidi or invisible character but tab and line feed. -/
def Displayable (s : Str) : Prop := ∀ c ∈ s, isControlChar c = false

def Loggable (s : Str) : Prop := ∀ c ∈ s, isControlChar c = false ∧ c ≠ lineFeed ∧ c ≠ tabulator

section Sanitise

variable {s : Str}

theorem Loggable.displayable (loggable : Loggable s) : Displayable s := fun c member => (loggable c member).1

theorem sanitizeServerText_displayable (s : Str) : Displayable (sanitizeServerText s) := by
  intro c member
  obtain ⟨before, _, rfl⟩ := List.mem_map.mp member
  by_cases control : isControlChar before = true
  · rw [if_pos control]
    rfl
  · rw [if_neg control]
    exact Bool.eq_false_iff.mpr control

theorem sanitizeServerText_eq (displayable : Displayable s) : sanitizeServerText s = s := by
  have same : ∀ c ∈ s, (if isControlChar c then questionMark else c) = c := by
    intro c member
    rw [displayable c member]
    rfl
  rw [sanitizeServerText, List.map_congr_left same, List.map_id']

theorem sanitizeServerText_length (s : Str) : (sanitizeServerText s).length = s.length := List.length_map _

theorem Displayable.append {t : Str} (first : Displayable s) (second : Displayable t) :
    Displayable (s ++ t) := by
  intro c member
  rcases List.mem_append.mp member with left_ | right_
  · exact first c left_
  · exact second c right_

theorem Displayable.take (displayable : Displayable s) (n : Nat) : Displayable (s.take n) :=
  fun c member => displayable c (List.mem_of_mem_take member)

end Sanitise

section Encoded

variable {s : Str} {cap : Nat} {label : String}

def paddedLength (n : Nat) : Nat := n + 1 + padToWord (n + 1)

theorem paddedLength_mono {n n' : Nat} (le : n ≤ n') : paddedLength n ≤ paddedLength n' := by
  have completed := mod_padToWord (n + 1)
  have completed' := mod_padToWord (n' + 1)
  have short := padToWord_lt (n + 1)
  have short' := padToWord_lt (n' + 1)
  unfold paddedLength
  omega

theorem encodeText_parts {bytes : Bytes} (encoded : encodeText s (some cap) label = .ok bytes) :
    ∃ utf8, Utf8.encode s = .ok utf8 ∧ utf8.length ≤ cap ∧ (0 : UInt8) ∉ utf8 ∧
      bytes.length = paddedLength utf8.length := by
  unfold encodeText at encoded
  cases valid : Utf8.encode s with
  | error position =>
      rw [valid] at encoded
      cases encoded
  | ok utf8 =>
      rw [valid] at encoded
      obtain ⟨_, same, next⟩ := bind_eq_ok.mp encoded
      cases same
      obtain ⟨_, small, last⟩ := bind_eq_ok.mp next
      split at last
      · cases last
      · rename_i missing
        cases last
        refine ⟨utf8, rfl, ?_, clean_of_findNul missing, ?_⟩
        · by_contra large
          exact raiseIf_eq_ok.mp small ⟨cap, rfl, by omega⟩
        · rw [List.length_append, zeros_length, paddedLength]
          omega

theorem encodeText_of_parts {utf8 : Bytes} (valid : Utf8.encode s = .ok utf8) (small : utf8.length ≤ cap)
    (clean : (0 : UInt8) ∉ utf8) (label : String) :
    ∃ bytes, encodeText s (some cap) label = .ok bytes ∧ bytes.length = paddedLength utf8.length := by
  have within : ¬ ∃ c ∈ some cap, c < utf8.length := by
    rintro ⟨c, member, large⟩
    cases member
    omega
  refine ⟨utf8 ++ zeros (1 + padToWord (utf8.length + 1)), ?_, ?_⟩
  · simp only [encodeText, valid, ok_bind, raiseIf_neg within, findNul_clean clean]
    rfl
  · rw [List.length_append, zeros_length, paddedLength]
    omega

theorem encodePoint_length {c : CodePoint} {bytes : Bytes} (encoded : encodePoint c = some bytes) :
    1 ≤ bytes.length := by
  simp only [encodePoint] at encoded
  repeat' split at encoded
  all_goals cases encoded
  all_goals simp

theorem encode_sanitizeServerText {utf8 : Bytes} (valid : Utf8.encode s = .ok utf8) :
    ∃ shown, Utf8.encode (sanitizeServerText s) = .ok shown ∧ shown.length ≤ utf8.length ∧
      s.length ≤ utf8.length ∧ ((0 : UInt8) ∉ utf8 → (0 : UInt8) ∉ shown) := by
  induction s generalizing utf8 with
  | nil =>
      cases valid
      exact ⟨[], rfl, le_rfl, le_rfl, fun clean => clean⟩
  | cons c s ih =>
      rw [Utf8.encode] at valid
      cases pointed : encodePoint c with
      | none =>
          rw [pointed] at valid
          cases valid
      | some first =>
          rw [pointed] at valid
          cases later : Utf8.encode s with
          | error position =>
              rw [later] at valid
              cases valid
          | ok rest =>
              rw [later] at valid
              cases valid
              have positive := encodePoint_length pointed
              obtain ⟨shown, encoded, shorter, counted, clean⟩ := ih later
              rw [sanitizeServerText, List.map_cons, Utf8.encode]
              rw [sanitizeServerText] at encoded
              by_cases control : isControlChar c = true
              · have mark : encodePoint questionMark = some [0x3F] := by decide
                refine ⟨0x3F :: shown, ?_, ?_, ?_, ?_⟩
                · simp only [control, if_true, mark, encoded, List.singleton_append]
                · simp only [List.length_cons, List.length_append]
                  omega
                · simp only [List.length_cons, List.length_append]
                  omega
                · intro absent
                  simp only [List.mem_append, not_or] at absent
                  simp [clean absent.2]
              · refine ⟨first ++ shown, ?_, ?_, ?_, ?_⟩
                · simp only [control, Bool.false_eq_true, if_false, pointed, encoded]
                · simp only [List.length_append]
                  omega
                · simp only [List.length_cons, List.length_append]
                  omega
                · intro absent
                  simp only [List.mem_append, not_or] at absent ⊢
                  exact ⟨absent.1, clean absent.2⟩

theorem encodeText_sanitizeServerText {bytes : Bytes} (encoded : encodeText s (some cap) label = .ok bytes) :
    s.length ≤ cap ∧ ∃ shown, encodeText (sanitizeServerText s) (some cap) label = .ok shown ∧
      shown.length ≤ bytes.length := by
  obtain ⟨utf8, valid, small, clean, length⟩ := encodeText_parts encoded
  obtain ⟨short, shown, shorter, counted, kept⟩ := encode_sanitizeServerText valid
  obtain ⟨bytes', written, length'⟩ := encodeText_of_parts shown (shorter.trans small) (kept clean) label
  refine ⟨counted.trans small, bytes', written, ?_⟩
  rw [length, length']
  exact paddedLength_mono shorter

end Encoded

section Cap

end Cap

namespace FailureResponse

variable {data : Bytes} {schema : Nat} {m : FailureResponse}

theorem trailingRecord_text {count code offset : Nat} {message : Str}
    (found : trailingRecord data count = .ok (some (code, message, offset))) :
    ∃ bytes, encodeText message (some maxFailureMessageSize) "Failure message" = .ok bytes ∧
      8 + bytes.length ≤ offset := by
  obtain ⟨start, _, tail⟩ := bind_eq_ok.mp found
  split at tail
  · cases tail
  · obtain ⟨_, _, tail⟩ := bind_eq_ok.mp tail
    obtain ⟨⟨text, consumed⟩, read, last⟩ := bind_eq_ok.mp tail
    cases last
    obtain ⟨bytes, written, rewrites⟩ := decodeText_rewrites read "Failure message"
    refine ⟨bytes, written, ?_⟩
    rw [rewrites.length_eq]
    omega

theorem recoverTrailingFailureRecord_text {count code : Nat} {message : Str}
    (recovered : recoverTrailingFailureRecord data count = .ok (some (code, message))) :
    code < 256 ^ 8 ∧ ∃ bytes, encodeText message (some maxFailureMessageSize) "Failure message" = .ok bytes ∧
      8 + bytes.length ≤ data.length := by
  refine ⟨recoverTrailingFailureRecord_code recovered, ?_⟩
  unfold recoverTrailingFailureRecord at recovered
  split at recovered
  · cases recovered
  · split at recovered
    · cases recovered
    · cases recovered
    · cases recovered
    · rename_i offset found
      split at recovered
      · cases recovered
      · rename_i finish
        cases recovered
        rw [← not_not.mp finish]
        exact trailingRecord_text found

theorem decodeBody_text (decoded : decodeBody data schema = .ok m) :
    schema = 0 ∧ ∃ (n : Nat) (s : Str) (bytes : Bytes), n < 256 ^ 8 ∧ m = ⟨n, sanitizeServerText s⟩ ∧
      encodeText s (some maxFailureMessageSize) "Failure message" = .ok bytes ∧
      8 + bytes.length ≤ data.length := by
  obtain ⟨_, versioned, tail⟩ := bind_eq_ok.mp decoded
  obtain ⟨_, long, tail⟩ := bind_eq_ok.mp tail
  obtain ⟨code, word, tail⟩ := bind_eq_ok.mp tail
  obtain ⟨⟨message, consumed⟩, read, tail⟩ := bind_eq_ok.mp tail
  have bound := (decodeWord_ok word).2.1
  have room := not_lt.mp (raiseIf_eq_ok.mp long)
  obtain ⟨bytes, written, rewrites⟩ := decodeText_rewrites read "Failure message"
  have inside := rewrites.inside
  rw [List.length_drop] at inside
  have fits : 8 + bytes.length ≤ data.length := by
    rw [rewrites.length_eq]
    omega
  refine ⟨not_not.mp (raiseIf_eq_ok.mp versioned), ?_⟩
  simp only at tail
  split at tail
  · obtain ⟨record, recovered, built⟩ := bind_eq_ok.mp tail
    cases record with
    | none =>
        rw [new_ok bound] at built
        cases built
        exact ⟨code, message, bytes, bound, rfl, written, fits⟩
    | some record =>
        obtain ⟨code', message'⟩ := record
        obtain ⟨bound', bytes', written', fits'⟩ := recoverTrailingFailureRecord_text recovered
        simp only at built
        rw [new_ok bound'] at built
        cases built
        exact ⟨code', message', bytes', bound', rfl, written', fits'⟩
  · rw [new_ok bound] at tail
    cases tail
    exact ⟨code, message, bytes, bound, rfl, written, fits⟩

end FailureResponse

open MessageDecoder

section Shown

variable {config : Config} {streams : List (List RowsResponse)} {d : MessageDecoder} {text : Str}

end Shown

end DqliteWire
