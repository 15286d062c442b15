import DqliteWire.Lib.Utf8

/-! What strict decoding says of its input: the bytes are the encoding of the text it returns, and
no error handler would have read them differently. -/

namespace WireLib.Utf8

def Piece.Sound : Piece → Prop
  | .scalar c bytes => encodePoint c = some bytes
  | .surrogate _ bytes | .malformed bytes _ => bytes ≠ []

theorem scan_bytes (bytes : Bytes) : (scan bytes).flatMap Piece.bytes = bytes := by
  fun_induction scan bytes <;> simp_all [Piece.bytes]

theorem byte_of_value {n : Nat} {a : UInt8} (value : n = a.toNat) : UInt8.ofNat n = a := by
  rw [value, UInt8.ofNat_toNat]

theorem tail_of_value {n : Nat} {b : UInt8} (held : IsTail b) (value : n % 64 = b.toNat - 0x80) :
    tail n = b := by
  obtain ⟨low, high⟩ := held
  exact byte_of_value (by omega)

theorem encodePoint_one (a : UInt8) (low : a.toNat < 0x80) (inRange : a.toNat < 0x110000) :
    encodePoint ⟨a.toNat, inRange⟩ = some [a] := by
  rw [encodePoint, if_pos low, byte_of_value rfl]

theorem encodePoint_two (a b : UInt8) (low : 0xC2 ≤ a.toNat) (lead : a.toNat < 0xE0)
    (second : IsTail b) :
    encodePoint ⟨spell (a.toNat - 0xC0) [b], two_inRange a b lead second⟩ = some [a, b] := by
  obtain ⟨above, below⟩ := second
  have value : spell (a.toNat - 0xC0) [b] = (a.toNat - 0xC0) * 64 + (b.toNat - 0x80) := rfl
  simp only [encodePoint, value]
  rw [if_neg (by omega), if_pos (by omega), byte_of_value (a := a) (by omega),
    tail_of_value ⟨above, below⟩ (by omega)]

theorem encodePoint_three (a b c : UInt8) (low : 0xE0 ≤ a.toNat) (lead : a.toNat < 0xF0)
    (second : SecondOfThree a b) (third : IsTail c) :
    encodePoint ⟨spell (a.toNat - 0xE0) [b, c], three_inRange a b c lead second.1.2 third⟩ =
      some [a, b, c] := by
  obtain ⟨⟨above, below⟩, overlong, surrogate⟩ := second
  obtain ⟨above', below'⟩ := third
  have value : spell (a.toNat - 0xE0) [b, c] =
      ((a.toNat - 0xE0) * 64 + (b.toNat - 0x80)) * 64 + (c.toNat - 0x80) := rfl
  have valid : ¬ IsSurrogate (((a.toNat - 0xE0) * 64 + (b.toNat - 0x80)) * 64 + (c.toNat - 0x80)) := by
    simp only [IsSurrogate]
    by_cases last : a.toNat = 0xED
    · have bound := surrogate last
      omega
    · omega
  have enough : ¬ ((a.toNat - 0xE0) * 64 + (b.toNat - 0x80)) * 64 + (c.toNat - 0x80) < 0x800 := by
    by_cases first : a.toNat = 0xE0
    · have bound := overlong first
      omega
    · omega
  simp only [encodePoint, value]
  rw [if_neg (by omega), if_neg enough, if_neg valid, if_pos (by omega),
    byte_of_value (a := a) (by omega), tail_of_value ⟨above, below⟩ (by omega),
    tail_of_value ⟨above', below'⟩ (by omega)]

theorem encodePoint_four (a b c d : UInt8) (low : 0xF0 ≤ a.toNat) (lead : a.toNat < 0xF5)
    (second : SecondOfFour a b) (third : IsTail c) (fourth : IsTail d) :
    encodePoint ⟨spell (a.toNat - 0xF0) [b, c, d], four_inRange a b c d lead second third fourth⟩ =
      some [a, b, c, d] := by
  obtain ⟨⟨above, below⟩, overlong, _⟩ := second
  obtain ⟨above', below'⟩ := third
  obtain ⟨above'', below''⟩ := fourth
  have value : spell (a.toNat - 0xF0) [b, c, d] =
      (((a.toNat - 0xF0) * 64 + (b.toNat - 0x80)) * 64 + (c.toNat - 0x80)) * 64 +
        (d.toNat - 0x80) := rfl
  have enough : 0x10000 ≤ (((a.toNat - 0xF0) * 64 + (b.toNat - 0x80)) * 64 + (c.toNat - 0x80)) * 64 +
      (d.toNat - 0x80) := by
    by_cases first : a.toNat = 0xF0
    · have bound := overlong first
      omega
    · omega
  simp only [encodePoint, value]
  rw [if_neg (by omega), if_neg (by omega), if_neg (by simp only [IsSurrogate]; omega),
    if_neg (by omega), byte_of_value (a := a) (by omega), tail_of_value ⟨above, below⟩ (by omega),
    tail_of_value ⟨above', below'⟩ (by omega), tail_of_value ⟨above'', below''⟩ (by omega)]

theorem scan_sound (bytes : Bytes) : ∀ p ∈ scan bytes, p.Sound := by
  fun_induction scan bytes <;> simp_all [Piece.Sound]
  case case2 => exact encodePoint_one _ ‹_› _
  case case5 => exact encodePoint_two _ _ ‹_› ‹_› ‹_›
  case case10 => exact encodePoint_three _ _ _ ‹_› ‹_› ‹_› ‹_›
  case case20 => exact encodePoint_four _ _ _ _ ‹_› ‹_› ‹_› ‹_› ‹_›

theorem resolve_strict {start : Nat} {p : Piece} {s : Str} (sound : p.Sound)
    (resolved : resolve .strict start p = .ok s) : ∃ c bytes, p = .scalar c bytes ∧ s = [c] := by
  cases p with
  | scalar c bytes =>
      cases resolved
      exact ⟨c, bytes, rfl, rfl⟩
  | surrogate c bytes =>
      cases bytes with
      | nil => exact absurd rfl sound
      | cons first others => simp [resolve, onSurrogate, onMalformed] at resolved
  | malformed bytes reason => simp [resolve, onMalformed] at resolved

theorem resolveAll_strict {pieces : List Piece} {start : Nat} {s : Str}
    (sound : ∀ p ∈ pieces, p.Sound) (resolved : resolveAll .strict start pieces = .ok s)
    (handler : Handler) :
    encode s = .ok (pieces.flatMap Piece.bytes) ∧ resolveAll handler start pieces = .ok s := by
  induction pieces generalizing start s with
  | nil =>
      cases resolved
      exact ⟨rfl, rfl⟩
  | cons p pieces ih =>
      obtain ⟨first, others⟩ := List.forall_mem_cons.mp sound
      rw [resolveAll] at resolved
      cases head : resolve .strict start p with
      | error fault => simp [head] at resolved
      | ok t =>
          obtain ⟨c, bytes, rfl, rfl⟩ := resolve_strict first head
          simp only [head] at resolved
          cases rest : resolveAll .strict (start + (Piece.scalar c bytes).bytes.length) pieces with
          | error fault => simp [rest] at resolved
          | ok more =>
              simp only [rest, Except.ok.injEq] at resolved
              subst resolved
              obtain ⟨spelt, same⟩ := ih others rest
              have point : encodePoint c = some bytes := first
              refine ⟨?_, ?_⟩
              · simp [encode, point, spelt, Piece.bytes]
              · simp [resolveAll, resolve, same]

theorem encode_decode {bytes : Bytes} {s : Str} (decoded : decode .strict bytes = .ok s) :
    encode s = .ok bytes := by
  have spelt := (resolveAll_strict (scan_sound bytes) decoded .strict).1
  rwa [scan_bytes] at spelt

theorem decode_of_strict {bytes : Bytes} {s : Str} (decoded : decode .strict bytes = .ok s)
    (handler : Handler) : decode handler bytes = .ok s :=
  (resolveAll_strict (scan_sound bytes) decoded handler).2

/-- The handlers that only know how to treat encoding errors. -/
def Handler.RefusesDecoding (handler : Handler) : Prop :=
  handler = .xmlcharrefreplace ∨ handler = .namereplace

instance (handler : Handler) : Decidable handler.RefusesDecoding :=
  inferInstanceAs (Decidable (_ ∨ _))

theorem onMalformed_refuses {handler : Handler} {start : Nat} {bytes : Bytes} {reason : Reason} :
    onMalformed handler start bytes reason = .error .handlerRefusesDecoding ↔
      handler.RefusesDecoding := by
  cases handler <;> simp [onMalformed, Handler.RefusesDecoding]

theorem mapM_error {α β ε : Type} {f : α → Except ε β} {e : ε} {l : List α}
    (raised : l.mapM f = .error e) : ∃ a ∈ l, f a = .error e := by
  induction l with
  | nil => cases raised
  | cons a l ih =>
      rw [List.mapM_cons] at raised
      cases head : f a with
      | error e' =>
          rw [head] at raised
          cases raised
          exact ⟨a, List.mem_cons_self, head⟩
      | ok b =>
          rw [head] at raised
          cases tail : l.mapM f with
          | ok others =>
              rw [tail] at raised
              cases raised
          | error e' =>
              rw [tail] at raised
              cases raised
              obtain ⟨a', member, same⟩ := ih tail
              exact ⟨a', List.mem_cons_of_mem _ member, same⟩

theorem onSurrogate_refuses {handler : Handler} {start : Nat} {c : CodePoint} {bytes : Bytes}
    (raised : onSurrogate handler start c bytes = .error .handlerRefusesDecoding) :
    handler.RefusesDecoding := by
  cases bytes with
  | nil => cases raised
  | cons first others =>
      by_cases pass : handler = .surrogatepass
      · simp [onSurrogate, pass] at raised
      · simp only [onSurrogate, if_neg pass] at raised
        cases head : onMalformed handler start [first] .invalidContinuation with
        | error fault =>
            rw [head] at raised
            cases raised
            exact onMalformed_refuses.mp head
        | ok s =>
            simp only [head] at raised
            cases rest : others.mapM fun b => onMalformed handler start [b] .invalidStart with
            | ok more =>
                rw [rest] at raised
                cases raised
            | error fault =>
                rw [rest] at raised
                cases raised
                obtain ⟨b, _, bad⟩ := mapM_error rest
                exact onMalformed_refuses.mp bad

theorem resolveAll_refuses {handler : Handler} {start : Nat} {pieces : List Piece}
    (raised : resolveAll handler start pieces = .error .handlerRefusesDecoding) :
    handler.RefusesDecoding := by
  induction pieces generalizing start with
  | nil => cases raised
  | cons p pieces ih =>
      unfold resolveAll at raised
      split at raised
      · rename_i head
        cases raised
        cases p with
        | scalar c bytes => cases head
        | surrogate c bytes => exact onSurrogate_refuses head
        | malformed bytes reason => exact onMalformed_refuses.mp head
      · split at raised
        · rename_i rest
          cases raised
          exact ih rest
        · cases raised

theorem decode_refuses {handler : Handler} {bytes : Bytes}
    (raised : decode handler bytes = .error .handlerRefusesDecoding) : handler.RefusesDecoding :=
  resolveAll_refuses raised

theorem resolveAll_malformed {handler : Handler} (refuses : handler.RefusesDecoding)
    {pieces : List Piece} {start : Nat} (sound : ∀ p ∈ pieces, p.Sound)
    (bad : ∀ s, resolveAll .strict start pieces ≠ .ok s) :
    resolveAll handler start pieces = .error .handlerRefusesDecoding := by
  induction pieces generalizing start with
  | nil => exact absurd rfl (bad [])
  | cons p pieces ih =>
      obtain ⟨first, others⟩ := List.forall_mem_cons.mp sound
      have refused (bytes : Bytes) (reason : Reason) :
          onMalformed handler start bytes reason = .error .handlerRefusesDecoding :=
        onMalformed_refuses.mpr refuses
      cases p with
      | scalar c bytes =>
          have later : resolveAll handler (start + bytes.length) pieces =
              .error .handlerRefusesDecoding := by
            apply ih others
            intro s same
            apply bad (c :: s)
            simp [resolveAll, resolve, Piece.bytes, same]
          simp [resolveAll, resolve, Piece.bytes, later]
      | surrogate c bytes =>
          cases bytes with
          | nil => exact absurd rfl first
          | cons byte more =>
              have able : handler ≠ .surrogatepass := by
                rintro rfl
                exact absurd refuses (by decide)
              simp [resolveAll, resolve, onSurrogate, able, refused]
      | malformed bytes reason => simp [resolveAll, resolve, refused]

theorem decode_malformed {handler : Handler} (refuses : handler.RefusesDecoding) {bytes : Bytes}
    (bad : ∀ s, decode .strict bytes ≠ .ok s) :
    decode handler bytes = .error .handlerRefusesDecoding :=
  resolveAll_malformed refuses (scan_sound bytes) bad

end WireLib.Utf8
