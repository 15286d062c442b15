import DqliteWire.Lib.Utf8Strict

/-! How a text lies in its bytes: where valid UTF-8 can be cut, and how long a text can get when the
malformed parts of its bytes are rewritten. -/

namespace WireLib.Utf8

section Cuts

theorem encode_cons {c : CodePoint} {s : Str} {bytes : Bytes} :
    encode (c :: s) = .ok bytes ↔
      ∃ point more, encodePoint c = some point ∧ encode s = .ok more ∧ point ++ more = bytes := by
  simp only [encode]
  cases encodePoint c with
  | none => simp
  | some point =>
      cases encode s with
      | error position => simp
      | ok more => simp

theorem encode_append {first rest : Str} {bytes : Bytes} :
    encode (first ++ rest) = .ok bytes ↔
      ∃ u v, encode first = .ok u ∧ encode rest = .ok v ∧ u ++ v = bytes := by
  induction first generalizing bytes with
  | nil => simp [encode]
  | cons c first ih =>
      rw [List.cons_append, encode_cons]
      constructor
      · rintro ⟨point, more, pointed, spelt, rfl⟩
        obtain ⟨u, v, head, last, rfl⟩ := ih.mp spelt
        exact ⟨point ++ u, v, encode_cons.mpr ⟨point, u, pointed, head, rfl⟩, last, by simp⟩
      · rintro ⟨u, v, head, last, rfl⟩
        obtain ⟨point, more, pointed, spelt, rfl⟩ := encode_cons.mp head
        exact ⟨point, more ++ v, pointed, ih.mpr ⟨more, v, spelt, last, rfl⟩, by simp⟩

theorem encode_injective {s s' : Str} {bytes : Bytes} (first : encode s = .ok bytes)
    (second : encode s' = .ok bytes) : s = s' := by
  have read := decode_encode .strict s bytes first
  rw [decode_encode .strict s' bytes second] at read
  exact (Except.ok.inj read).symm

theorem encodePoint_shape {c : CodePoint} {bytes : Bytes} (encoded : encodePoint c = some bytes) :
    ∃ lead tails, bytes = lead :: tails ∧ ¬ IsTail lead ∧ ∀ b ∈ tails, IsTail b := by
  have bound := c.inRange
  simp only [encodePoint] at encoded
  split at encoded
  · cases encoded
    refine ⟨_, [], rfl, ?_, by simp⟩
    rw [IsTail, UInt8.toNat_ofNat']
    omega
  · split at encoded
    · cases encoded
      refine ⟨_, [tail c.val], rfl, ?_, by simp [tail_isTail]⟩
      rw [IsTail, UInt8.toNat_ofNat']
      omega
    · split at encoded
      · cases encoded
      · split at encoded
        · cases encoded
          refine ⟨_, [tail (c.val / 64), tail c.val], rfl, ?_, by simp [tail_isTail]⟩
          rw [IsTail, UInt8.toNat_ofNat']
          omega
        · cases encoded
          refine ⟨_, [tail (c.val / 4096), tail (c.val / 64), tail c.val], rfl, ?_,
            by simp [tail_isTail]⟩
          rw [IsTail, UInt8.toNat_ofNat']
          omega

theorem encode_head {s : Str} {b : UInt8} {bytes : Bytes} (encoded : encode s = .ok (b :: bytes)) :
    ¬ IsTail b := by
  cases s with
  | nil => cases encoded
  | cons c s =>
      obtain ⟨point, more, pointed, _, same⟩ := encode_cons.mp encoded
      obtain ⟨lead, tails, rfl, plain, _⟩ := encodePoint_shape pointed
      cases same
      exact plain

/-- Valid UTF-8 that ends in valid UTF-8 is cut between two characters. -/
theorem encode_split {s rest : Str} {u v : Bytes} (whole : encode s = .ok (u ++ v))
    (last : encode rest = .ok v) : ∃ first, s = first ++ rest ∧ encode first = .ok u := by
  induction s generalizing u with
  | nil =>
      obtain ⟨rfl, rfl⟩ := List.append_eq_nil_iff.mp (Except.ok.inj whole).symm
      exact ⟨[], encode_injective whole last, rfl⟩
  | cons c s ih =>
      cases u with
      | nil => exact ⟨[], encode_injective whole last, rfl⟩
      | cons b u =>
          obtain ⟨point, more, pointed, encoded, same⟩ := encode_cons.mp whole
          obtain ⟨lead, tails, rfl, _, continued⟩ := encodePoint_shape pointed
          simp only [List.cons_append, List.cons.injEq] at same
          obtain ⟨rfl, same⟩ := same
          rcases List.append_eq_append_iff.mp same with ⟨u', rfl, rfl⟩ | ⟨inside, rfl, rfl⟩
          · -- the cut comes behind the first character
            obtain ⟨first, rfl, spelt⟩ := ih encoded
            exact ⟨c :: first, rfl, encode_cons.mpr ⟨_, u', pointed, spelt, rfl⟩⟩
          · cases inside with
            | nil => 
                obtain ⟨first, rfl, spelt⟩ := ih (u := []) encoded
                exact ⟨c :: first, rfl, encode_cons.mpr ⟨_, [], pointed, spelt, by simp⟩⟩
            | cons b inside =>
                -- what is behind the cut begins with a continuation
                exact absurd (continued b (by simp)) (encode_head last)

end Cuts

section Growth

/-- How many code points an error handler makes of one byte at most. -/
def Handler.growth : Handler → Nat
  | .backslashreplace => 4
  | _ => 1

variable {handler : Handler} {start : Nat}

theorem Handler.growth_pos (handler : Handler) : 1 ≤ handler.growth := by
  cases handler <;> decide

theorem backslashEscape_length (bytes : Bytes) : (bytes.flatMap backslashEscape).length = 4 * bytes.length := by
  induction bytes with
  | nil => rfl
  | cons b bytes ih =>
      rw [List.flatMap_cons, List.length_append, ih, List.length_cons]
      simp only [backslashEscape, List.length_cons, List.length_nil]
      omega

theorem onMalformed_length {bytes : Bytes} {reason : Reason} {s : Str} (filled : 1 ≤ bytes.length)
    (rewritten : onMalformed handler start bytes reason = .ok s) :
    s.length ≤ handler.growth * bytes.length := by
  cases handler with
  | strict | surrogatepass | xmlcharrefreplace | namereplace => cases rewritten
  | replace =>
      cases rewritten
      simpa [Handler.growth] using filled
  | ignore =>
      cases rewritten
      exact Nat.zero_le _
  | backslashreplace =>
      cases rewritten
      exact (backslashEscape_length bytes).le
  | surrogateescape =>
      cases rewritten
      simp [Handler.growth]

theorem mapM_onMalformed_length {bytes : Bytes} {reason : Reason} {parts : List Str}
    (rewritten : (bytes.mapM fun b => onMalformed handler start [b] reason) = .ok parts) :
    parts.flatten.length ≤ handler.growth * bytes.length := by
  induction bytes generalizing parts with
  | nil =>
      cases rewritten
      exact Nat.zero_le _
  | cons b bytes ih =>
      rw [List.mapM_cons] at rewritten
      cases head : onMalformed handler start [b] reason with
      | error fault =>
          rw [head] at rewritten
          cases rewritten
      | ok first =>
          cases rest : bytes.mapM fun b => onMalformed handler start [b] reason with
          | error fault =>
              rw [head, rest] at rewritten
              cases rewritten
          | ok others =>
              rw [head, rest] at rewritten
              cases rewritten
              have one := onMalformed_length (by simp) head
              have more := ih rest
              simp only [List.flatten_cons, List.length_append, List.length_cons, List.length_nil] at one ⊢
              rw [Nat.mul_succ]
              omega

theorem onSurrogate_length {c : CodePoint} {bytes : Bytes} {s : Str}
    (rewritten : onSurrogate handler start c bytes = .ok s) :
    s.length ≤ handler.growth * bytes.length := by
  cases bytes with
  | nil =>
      cases rewritten
      exact Nat.zero_le _
  | cons first others =>
      have positive := handler.growth_pos
      rw [List.length_cons, Nat.mul_succ]
      simp only [onSurrogate] at rewritten
      split at rewritten
      · cases rewritten
        simp only [List.length_cons, List.length_nil]
        omega
      · split at rewritten
        · cases rewritten
        · rename_i head one
          split at rewritten
          · cases rewritten
          · rename_i more rest
            cases rewritten
            have short := onMalformed_length (by simp) one
            have others := mapM_onMalformed_length rest
            simp only [List.length_append, List.length_cons, List.length_nil] at short ⊢
            omega

theorem resolve_length {p : Piece} (sound : p.Sound) {s : Str} (resolved : resolve handler start p = .ok s) :
    s.length ≤ handler.growth * p.bytes.length := by
  cases p with
  | scalar c bytes =>
      cases resolved
      obtain ⟨lead, tails, rfl, _⟩ := encodePoint_shape sound
      have positive := handler.growth_pos
      simp only [Piece.bytes, List.length_cons, List.length_nil]
      exact Nat.mul_pos positive (Nat.succ_pos _)
  | surrogate c bytes => exact onSurrogate_length resolved
  | malformed bytes reason => exact onMalformed_length (List.length_pos_of_ne_nil sound) resolved

theorem resolveAll_length {pieces : List Piece} {s : Str} (sound : ∀ p ∈ pieces, p.Sound)
    (resolved : resolveAll handler start pieces = .ok s) :
    s.length ≤ handler.growth * (pieces.flatMap Piece.bytes).length := by
  induction pieces generalizing start s with
  | nil =>
      cases resolved
      exact Nat.zero_le _
  | cons p pieces ih =>
      obtain ⟨first, others⟩ := List.forall_mem_cons.mp sound
      rw [resolveAll] at resolved
      split at resolved
      · cases resolved
      · rename_i head one
        split at resolved
        · cases resolved
        · rename_i more rest
          cases resolved
          have short := resolve_length first one
          have later := ih others rest
          rw [List.flatMap_cons, List.length_append, List.length_append, Nat.mul_add]
          omega

theorem decode_length {bytes : Bytes} {s : Str} (decoded : decode handler bytes = .ok s) :
    s.length ≤ handler.growth * bytes.length := by
  have short := resolveAll_length (scan_sound bytes) decoded
  rwa [scan_bytes] at short

end Growth

end WireLib.Utf8
