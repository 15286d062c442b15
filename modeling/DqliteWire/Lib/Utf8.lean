import DqliteWire.Lib.LittleEndian

/-! UTF-8 over strings that may hold lone surrogates. A byte string is first scanned into
pieces; strict decoding accepts only scalar pieces, and an error handler rewrites the others. -/

namespace WireLib.Utf8

structure CodePoint where
  val : Nat
  inRange : val < 0x110000
  deriving DecidableEq, Repr

abbrev Str := List CodePoint

def IsSurrogate (n : Nat) : Prop := 0xD800 ≤ n ∧ n < 0xE000

instance (n : Nat) : Decidable (IsSurrogate n) := inferInstanceAs (Decidable (_ ∧ _))

def tail (n : Nat) : UInt8 := UInt8.ofNat (0x80 + n % 64)

/-- The bytes of one scalar value; a surrogate has none. -/
def encodePoint (c : CodePoint) : Option Bytes :=
  let n := c.val
  if n < 0x80 then some [UInt8.ofNat n]
  else if n < 0x800 then some [UInt8.ofNat (0xC0 + n / 64), tail n]
  else if IsSurrogate n then none
  else if n < 0x10000 then some [UInt8.ofNat (0xE0 + n / 4096), tail (n / 64), tail n]
  else some [UInt8.ofNat (0xF0 + n / 262144), tail (n / 4096), tail (n / 64), tail n]

/-- Strict encoding: the bytes, or the position of the first surrogate. -/
def encode : Str → Except Nat Bytes
  | [] => .ok []
  | c :: rest =>
      match encodePoint c with
      | none => .error 0
      | some bytes =>
          match encode rest with
          | .error position => .error (position + 1)
          | .ok more => .ok (bytes ++ more)

inductive Reason
  | invalidStart
  | invalidContinuation
  | unexpectedEnd
  deriving DecidableEq, Repr

/-- A maximal piece of the input: a scalar value, a three-byte surrogate, or a malformed run. -/
inductive Piece
  | scalar (c : CodePoint) (bytes : Bytes)
  | surrogate (c : CodePoint) (bytes : Bytes)
  | malformed (bytes : Bytes) (reason : Reason)
  deriving DecidableEq, Repr

def Piece.bytes : Piece → Bytes
  | .scalar _ bytes => bytes
  | .surrogate _ bytes => bytes
  | .malformed bytes _ => bytes

def IsTail (b : UInt8) : Prop := 0x80 ≤ b.toNat ∧ b.toNat < 0xC0

instance (b : UInt8) : Decidable (IsTail b) := inferInstanceAs (Decidable (_ ∧ _))

/-- The value a lead byte and its tails spell: `lead` is the lead's payload. -/
def spell (lead : Nat) (tails : List UInt8) : Nat :=
  tails.foldl (fun value b => value * 64 + (b.toNat - 0x80)) lead

theorem two_inRange (a b : UInt8) (lead : a.toNat < 0xE0) (tail : IsTail b) :
    spell (a.toNat - 0xC0) [b] < 0x110000 := by
  obtain ⟨low, high⟩ := tail
  simp only [spell, List.foldl_cons, List.foldl_nil]
  omega

theorem three_inRange (a b c : UInt8) (lead : a.toNat < 0xF0)
    (second : b.toNat < 0xC0) (third : IsTail c) :
    spell (a.toNat - 0xE0) [b, c] < 0x110000 := by
  obtain ⟨low, high⟩ := third
  simp only [spell, List.foldl_cons, List.foldl_nil]
  omega

/-- The second byte of a three-byte form: no overlong form, no surrogate. -/
def SecondOfThree (a b : UInt8) : Prop :=
  IsTail b ∧ (a.toNat = 0xE0 → 0xA0 ≤ b.toNat) ∧ (a.toNat = 0xED → b.toNat < 0xA0)

instance (a b : UInt8) : Decidable (SecondOfThree a b) := inferInstanceAs (Decidable (_ ∧ _))

/-- The second byte of a four-byte form: no overlong form, nothing past U+10FFFF. -/
def SecondOfFour (a b : UInt8) : Prop :=
  IsTail b ∧ (a.toNat = 0xF0 → 0x90 ≤ b.toNat) ∧ (a.toNat = 0xF4 → b.toNat < 0x90)

instance (a b : UInt8) : Decidable (SecondOfFour a b) := inferInstanceAs (Decidable (_ ∧ _))

theorem four_inRange (a b c d : UInt8) (lead : a.toNat < 0xF5)
    (second : SecondOfFour a b) (third : IsTail c) (fourth : IsTail d) :
    spell (a.toNat - 0xF0) [b, c, d] < 0x110000 := by
  obtain ⟨⟨_, secondHigh⟩, _, last⟩ := second
  obtain ⟨_, thirdHigh⟩ := third
  obtain ⟨_, fourthHigh⟩ := fourth
  simp only [spell, List.foldl_cons, List.foldl_nil]
  by_cases top : a.toNat = 0xF4
  · have bound := last top
    omega
  · omega

def scan : Bytes → List Piece
  | [] => []
  | a :: rest =>
    if h1 : a.toNat < 0x80 then .scalar ⟨a.toNat, by omega⟩ [a] :: scan rest
    else if a.toNat < 0xC2 then .malformed [a] .invalidStart :: scan rest
    else if h2 : a.toNat < 0xE0 then
      match rest with
      | [] => [.malformed [a] .unexpectedEnd]
      | b :: rest' =>
        if hb : IsTail b then
          .scalar ⟨spell (a.toNat - 0xC0) [b], two_inRange a b h2 hb⟩ [a, b] :: scan rest'
        else .malformed [a] .invalidContinuation :: scan (b :: rest')
    else if h3 : a.toNat < 0xF0 then
      match rest with
      | [] => [.malformed [a] .unexpectedEnd]
      | [b] =>
        if SecondOfThree a b then [.malformed [a, b] .unexpectedEnd]
        else .malformed [a] .invalidContinuation :: scan [b]
      | b :: c :: rest' =>
        if hb : SecondOfThree a b then
          if hc : IsTail c then
            .scalar ⟨spell (a.toNat - 0xE0) [b, c], three_inRange a b c h3 hb.1.2 hc⟩ [a, b, c] ::
              scan rest'
          else .malformed [a, b] .invalidContinuation :: scan (c :: rest')
        -- three bytes spelling a surrogate; one error byte at a time unless passed through
        else if hs : a.toNat = 0xED ∧ IsTail b ∧ IsTail c then
          .surrogate ⟨spell (a.toNat - 0xE0) [b, c], three_inRange a b c h3 hs.2.1.2 hs.2.2⟩
            [a, b, c] :: scan rest'
        else .malformed [a] .invalidContinuation :: scan (b :: c :: rest')
    else if h4 : a.toNat < 0xF5 then
      match rest with
      | [] => [.malformed [a] .unexpectedEnd]
      | [b] =>
        if SecondOfFour a b then [.malformed [a, b] .unexpectedEnd]
        else .malformed [a] .invalidContinuation :: scan [b]
      | [b, c] =>
        if SecondOfFour a b then
          if IsTail c then [.malformed [a, b, c] .unexpectedEnd]
          else .malformed [a, b] .invalidContinuation :: scan [c]
        else .malformed [a] .invalidContinuation :: scan [b, c]
      | b :: c :: d :: rest' =>
        if hb : SecondOfFour a b then
          if hc : IsTail c then
            if hd : IsTail d then
              .scalar ⟨spell (a.toNat - 0xF0) [b, c, d], four_inRange a b c d h4 hb hc hd⟩
                [a, b, c, d] :: scan rest'
            else .malformed [a, b, c] .invalidContinuation :: scan (d :: rest')
          else .malformed [a, b] .invalidContinuation :: scan (c :: d :: rest')
        else .malformed [a] .invalidContinuation :: scan (b :: c :: d :: rest')
    else .malformed [a] .invalidStart :: scan rest

/-- The error handlers a decoder can be given by name. -/
inductive Handler
  | strict
  | replace
  | ignore
  | backslashreplace
  | surrogateescape
  | surrogatepass
  | xmlcharrefreplace
  | namereplace
  deriving DecidableEq, Repr

inductive Fault
  | invalid (start : Nat) (bytes : Bytes) (reason : Reason)
  | handlerRefusesDecoding
  deriving DecidableEq, Repr

def hexDigit (n : Nat) : Nat := if n < 10 then 0x30 + n else 0x57 + n

def CodePoint.ofByte (base : Nat) (b : UInt8) (bound : base ≤ 0x10FF00) : CodePoint :=
  ⟨base + b.toNat, by have low := b.toNat_lt; omega⟩

theorem hexDigit_inRange (n : Nat) (bound : n < 16) : hexDigit n < 0x110000 := by
  simp only [hexDigit]
  split <;> omega

def backslashEscape (b : UInt8) : Str :=
  [⟨0x5C, by decide⟩, ⟨0x78, by decide⟩,
   ⟨hexDigit (b.toNat / 16), hexDigit_inRange _ (by have low := b.toNat_lt; omega)⟩,
   ⟨hexDigit (b.toNat % 16), hexDigit_inRange _ (by omega)⟩]

def onMalformed (handler : Handler) (start : Nat) (bytes : Bytes) (reason : Reason) :
    Except Fault Str :=
  match handler with
  | .strict | .surrogatepass => .error (.invalid start bytes reason)
  | .replace => .ok [⟨0xFFFD, by decide⟩]
  | .ignore => .ok []
  | .backslashreplace => .ok (bytes.flatMap backslashEscape)
  | .surrogateescape => .ok (bytes.map fun b => CodePoint.ofByte 0xDC00 b (by decide))
  -- these two handlers only know how to treat encoding errors
  | .xmlcharrefreplace | .namereplace => .error .handlerRefusesDecoding

/-- A surrogate's bytes are three errors: a bad continuation, then two bad starts. -/
def onSurrogate (handler : Handler) (start : Nat) (c : CodePoint) :
    Bytes → Except Fault Str
  | [] => .ok []
  | first :: others =>
    if handler = .surrogatepass then .ok [c]
    else
      match onMalformed handler start [first] .invalidContinuation with
      | .error fault => .error fault
      | .ok head =>
        match others.mapM fun b => onMalformed handler start [b] .invalidStart with
        | .error fault => .error fault
        | .ok more => .ok (head ++ more.flatten)

def resolve (handler : Handler) (start : Nat) : Piece → Except Fault Str
  | .scalar c _ => .ok [c]
  | .surrogate c bytes => onSurrogate handler start c bytes
  | .malformed bytes reason => onMalformed handler start bytes reason

def resolveAll (handler : Handler) : Nat → List Piece → Except Fault Str
  | _, [] => .ok []
  | start, piece :: rest =>
    match resolve handler start piece with
    | .error fault => .error fault
    | .ok head =>
      match resolveAll handler (start + piece.bytes.length) rest with
      | .error fault => .error fault
      | .ok more => .ok (head ++ more)

def decode (handler : Handler) (bytes : Bytes) : Except Fault Str :=
  resolveAll handler 0 (scan bytes)

theorem tail_toNat (n : Nat) : (tail n).toNat = 0x80 + n % 64 := by
  simp only [tail, UInt8.toNat_ofNat']
  omega

theorem tail_isTail (n : Nat) : IsTail (tail n) := by
  have value := tail_toNat n
  constructor <;> omega

theorem scan_two (n : Nat) (low : 0x80 ≤ n) (high : n < 0x800) (inRange : n < 0x110000)
    (rest : Bytes) :
    scan (UInt8.ofNat (0xC0 + n / 64) :: tail n :: rest) =
      .scalar ⟨n, inRange⟩ [UInt8.ofNat (0xC0 + n / 64), tail n] :: scan rest := by
  have lead : (UInt8.ofNat (0xC0 + n / 64)).toNat = 0xC0 + n / 64 := by
    simp only [UInt8.toNat_ofNat']
    omega
  have value : spell ((UInt8.ofNat (0xC0 + n / 64)).toNat - 0xC0) [tail n] = n := by
    simp only [spell, List.foldl_cons, List.foldl_nil, lead, tail_toNat]
    omega
  rw [scan, dif_neg (by omega), if_neg (by omega), dif_pos (by omega)]
  simp only [dif_pos (tail_isTail n), value]

theorem scan_three (n : Nat) (low : 0x800 ≤ n) (high : n < 0x10000) (valid : ¬ IsSurrogate n)
    (inRange : n < 0x110000) (rest : Bytes) :
    scan (UInt8.ofNat (0xE0 + n / 4096) :: tail (n / 64) :: tail n :: rest) =
      .scalar ⟨n, inRange⟩ [UInt8.ofNat (0xE0 + n / 4096), tail (n / 64), tail n] :: scan rest := by
  have lead : (UInt8.ofNat (0xE0 + n / 4096)).toNat = 0xE0 + n / 4096 := by
    simp only [UInt8.toNat_ofNat']
    omega
  have value : spell ((UInt8.ofNat (0xE0 + n / 4096)).toNat - 0xE0) [tail (n / 64), tail n] = n := by
    simp only [spell, List.foldl_cons, List.foldl_nil, lead, tail_toNat]
    omega
  have second : SecondOfThree (UInt8.ofNat (0xE0 + n / 4096)) (tail (n / 64)) := by
    simp only [IsSurrogate, not_and, not_lt] at valid
    refine ⟨tail_isTail _, ?_, ?_⟩
    · rw [lead, tail_toNat]
      omega
    · rw [lead, tail_toNat]
      omega
  rw [scan, dif_neg (by omega), if_neg (by omega), dif_neg (by omega), dif_pos (by omega)]
  simp only [dif_pos second, dif_pos (tail_isTail n), value]

theorem scan_four (n : Nat) (low : 0x10000 ≤ n) (inRange : n < 0x110000) (rest : Bytes) :
    scan (UInt8.ofNat (0xF0 + n / 262144) :: tail (n / 4096) :: tail (n / 64) :: tail n :: rest) =
      .scalar ⟨n, inRange⟩
        [UInt8.ofNat (0xF0 + n / 262144), tail (n / 4096), tail (n / 64), tail n] :: scan rest := by
  have lead : (UInt8.ofNat (0xF0 + n / 262144)).toNat = 0xF0 + n / 262144 := by
    simp only [UInt8.toNat_ofNat']
    omega
  have value : spell ((UInt8.ofNat (0xF0 + n / 262144)).toNat - 0xF0)
      [tail (n / 4096), tail (n / 64), tail n] = n := by
    simp only [spell, List.foldl_cons, List.foldl_nil, lead, tail_toNat]
    omega
  have second : SecondOfFour (UInt8.ofNat (0xF0 + n / 262144)) (tail (n / 4096)) := by
    refine ⟨tail_isTail _, ?_, ?_⟩
    · rw [lead, tail_toNat]
      omega
    · rw [lead, tail_toNat]
      omega
  rw [scan, dif_neg (by omega), if_neg (by omega), dif_neg (by omega), dif_neg (by omega),
    dif_pos (by omega)]
  simp only [dif_pos second, dif_pos (tail_isTail _), value]

theorem scan_encodePoint (c : CodePoint) (bytes rest : Bytes)
    (encoded : encodePoint c = some bytes) :
    scan (bytes ++ rest) = .scalar c bytes :: scan rest := by
  obtain ⟨n, inRange⟩ := c
  simp only [encodePoint] at encoded
  split at encoded
  · rename_i one
    obtain rfl := Option.some.inj encoded
    have value : (UInt8.ofNat n).toNat = n := by
      simp only [UInt8.toNat_ofNat']
      omega
    rw [List.singleton_append, scan, dif_pos (by omega)]
    simp only [value]
  · split at encoded
    · rename_i one two
      obtain rfl := Option.some.inj encoded
      exact scan_two n (by omega) two inRange rest
    · split at encoded
      · cases encoded
      · split at encoded
        · rename_i one two valid three
          obtain rfl := Option.some.inj encoded
          exact scan_three n (by omega) three valid inRange rest
        · rename_i one two valid three
          obtain rfl := Option.some.inj encoded
          exact scan_four n (by omega) inRange rest

/-- Every handler reads back what strict encoding wrote: it is consulted on errors only. -/
theorem decode_encode (handler : Handler) (s : Str) (bytes : Bytes) (encoded : encode s = .ok bytes) :
    decode handler bytes = .ok s := by
  suffices all : ∀ start, resolveAll handler start (scan bytes) = .ok s from all 0
  induction s generalizing bytes with
  | nil =>
      obtain rfl := Except.ok.inj encoded
      intro start
      rfl
  | cons c rest ih =>
      intro start
      simp only [encode] at encoded
      cases point : encodePoint c with
      | none => simp [point] at encoded
      | some head =>
          cases others : encode rest with
          | error position => simp [point, others] at encoded
          | ok more =>
              simp only [point, others, Except.ok.injEq] at encoded
              subst encoded
              rw [scan_encodePoint c head more point]
              simp only [resolveAll, resolve, ih more others]
              rfl

end WireLib.Utf8
