import DqliteWire.Lib.LittleEndian

/-! Byte strings compared under a mask. A format with bytes that a reader ignores is written back
up to those bytes; where they are all zero it is written back exactly. -/

namespace WireLib

def masked (mask data : Bytes) : Bytes := List.zipWith (· &&& ·) data mask

def ones (n : Nat) : Bytes := List.replicate n 0xFF

def blanks (n : Nat) : Bytes := List.replicate n 0

@[simp] theorem ones_length (n : Nat) : (ones n).length = n := List.length_replicate

@[simp] theorem blanks_length (n : Nat) : (blanks n).length = n := List.length_replicate

theorem masked_append {mask data : Bytes} (width : mask.length = data.length)
    (mask' data' : Bytes) :
    masked (mask ++ mask') (data ++ data') = masked mask data ++ masked mask' data' :=
  List.zipWith_append width.symm

theorem masked_blanks (data : Bytes) : masked (blanks data.length) data = blanks data.length := by
  induction data with
  | nil => rfl
  | cons byte rest ih =>
      rw [blanks, List.length_cons, List.replicate_succ, masked, List.zipWith_cons_cons, UInt8.and_zero]
      exact congrArg _ ih

theorem masked_comm (mask mask' data : Bytes) :
    masked mask (masked mask' data) = masked mask' (masked mask data) := by
  induction data generalizing mask mask' with
  | nil => simp [masked]
  | cons byte rest ih =>
      cases mask with
      | nil => simp [masked]
      | cons first mask =>
          cases mask' with
          | nil => simp [masked]
          | cons second mask' =>
              simp only [masked, List.zipWith_cons_cons, List.cons.injEq]
              refine ⟨?_, ih mask mask'⟩
              rw [UInt8.and_assoc, UInt8.and_comm second, UInt8.and_assoc]

/-- The first `n` bytes of `data` written back as `written`: they agree where the mask says so, and
are the same when the mask cuts nothing off. -/
structure Rewrites (mask data : Bytes) (n : Nat) (written : Bytes) : Prop where
  inside : n ≤ data.length
  mask_length : mask.length = n
  length_eq : written.length = n
  agree : masked mask written = masked mask (data.take n)
  exact_ : masked mask (data.take n) = data.take n → written = data.take n

namespace Rewrites

variable {mask data written mask' written' : Bytes} {n n' : Nat}

theorem nil (data : Bytes) : Rewrites [] data 0 [] where
  inside := Nat.zero_le _
  mask_length := rfl
  length_eq := rfl
  agree := by simp [masked]
  exact_ := fun _ => by simp

theorem append (first : Rewrites mask data n written)
    (second : Rewrites mask' (data.drop n) n' written') :
    Rewrites (mask ++ mask') data (n + n') (written ++ written') := by
  have inside := first.inside
  have more := second.inside
  rw [List.length_drop] at more
  have whole : data.take (n + n') = data.take n ++ (data.drop n).take n' := List.take_add
  have width : (data.take n).length = n := by rw [List.length_take, min_eq_left inside]
  have width' : ((data.drop n).take n').length = n' := by
    rw [List.length_take, List.length_drop, min_eq_left more]
  have left_ := first.mask_length.trans width.symm
  have cut : masked (mask ++ mask') (data.take (n + n')) =
      masked mask (data.take n) ++ masked mask' ((data.drop n).take n') := by
    rw [whole, masked_append left_]
  refine ⟨by omega, by rw [List.length_append, first.mask_length, second.mask_length],
    by rw [List.length_append, first.length_eq, second.length_eq], ?_, fun same => ?_⟩
  · rw [cut, masked_append (first.mask_length.trans first.length_eq.symm), first.agree, second.agree]
  · rw [cut, whole] at same
    have length : (masked mask (data.take n)).length = (data.take n).length := by
      rw [masked, List.length_zipWith, left_, min_self]
    obtain ⟨same, same'⟩ := List.append_inj same length
    rw [whole, first.exact_ same, second.exact_ same']

theorem same (inside : n ≤ data.length) : Rewrites (ones n) data n (data.take n) where
  inside := inside
  mask_length := ones_length n
  length_eq := by rw [List.length_take, min_eq_left inside]
  agree := rfl
  exact_ := fun _ => rfl

theorem of_eq (inside : n ≤ data.length) (equal : data.take n = written) :
    Rewrites (ones n) data n written := equal ▸ same inside

theorem padding (inside : n ≤ data.length) : Rewrites (blanks n) data n (blanks n) := by
  have width : (data.take n).length = n := by rw [List.length_take, min_eq_left inside]
  have cut : masked (blanks n) (data.take n) = blanks n := by
    have cleared := masked_blanks (data.take n)
    rwa [width] at cleared
  have cut' : masked (blanks n) (blanks n) = blanks n := by
    have cleared := masked_blanks (blanks n)
    rwa [blanks_length] at cleared
  exact ⟨inside, blanks_length n, blanks_length n, by rw [cut, cut'], fun same => by rw [← same, cut]⟩

theorem replaced (inside : n ≤ data.length) (length : written.length = n)
    (dirty : data.take n ≠ blanks n) : Rewrites (blanks n) data n written := by
  have width : (data.take n).length = n := by rw [List.length_take, min_eq_left inside]
  have cut : masked (blanks n) (data.take n) = blanks n := by
    have cleared := masked_blanks (data.take n)
    rwa [width] at cleared
  have cut' : masked (blanks n) written = blanks n := by
    have cleared := masked_blanks written
    rwa [length] at cleared
  refine ⟨inside, blanks_length n, length, by rw [cut, cut'], fun same => ?_⟩
  rw [cut] at same
  exact absurd same.symm dirty

theorem nibble {byte : UInt8} {rest : Bytes} (shape : data = byte :: rest)
    (low : written = [byte &&& 0x0F]) : Rewrites [0x0F] data 1 written := by
  have first : data.take 1 = [byte] := by rw [shape]; rfl
  have twice : byte &&& 0x0F &&& 0x0F = byte &&& 0x0F := by rw [UInt8.and_assoc]; rfl
  refine ⟨by rw [shape]; simp, rfl, by rw [low]; rfl, ?_, fun same => ?_⟩
  · rw [first, low]
    simp only [masked, List.zipWith_cons_cons, List.zipWith_nil_left, twice]
  · rw [first] at same ⊢
    rw [low]
    exact same

end Rewrites

end WireLib
