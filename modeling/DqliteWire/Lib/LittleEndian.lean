import Mathlib.Tactic

/-! Unsigned little-endian words of any width over byte lists. -/

namespace WireLib

abbrev Bytes := List UInt8

def fromLE : Bytes → Nat
  | [] => 0
  | byte :: rest => byte.toNat + 256 * fromLE rest

def toLE : Nat → Nat → Bytes
  | 0, _ => []
  | width + 1, value => UInt8.ofNat value :: toLE width (value / 256)

@[simp] theorem toLE_length (width value : Nat) : (toLE width value).length = width := by
  induction width generalizing value with
  | zero => rfl
  | succ width ih => simp only [toLE, List.length_cons, ih]

theorem fromLE_lt (bytes : Bytes) : fromLE bytes < 256 ^ bytes.length := by
  induction bytes with
  | nil => simp [fromLE]
  | cons byte rest ih =>
      have low : byte.toNat < 256 := byte.toNat_lt
      simp only [fromLE, List.length_cons, Nat.pow_succ]
      omega

theorem fromLE_toLE (width value : Nat) (bound : value < 256 ^ width) :
    fromLE (toLE width value) = value := by
  induction width generalizing value with
  | zero =>
      simp only [Nat.pow_zero] at bound
      simp only [toLE, fromLE]
      omega
  | succ width ih =>
      have high : value / 256 < 256 ^ width := by
        rw [Nat.div_lt_iff_lt_mul (by decide)]
        simpa only [Nat.pow_succ] using bound
      simp only [toLE, fromLE, ih _ high, UInt8.toNat_ofNat']
      omega

theorem toLE_fromLE (bytes : Bytes) : toLE bytes.length (fromLE bytes) = bytes := by
  induction bytes with
  | nil => rfl
  | cons byte rest ih =>
      have low : byte.toNat < 256 := byte.toNat_lt
      have high : (byte.toNat + 256 * fromLE rest) / 256 = fromLE rest := by omega
      have head : UInt8.ofNat (byte.toNat + 256 * fromLE rest) = byte := by
        apply UInt8.toNat_inj.mp
        simp only [UInt8.toNat_ofNat']
        omega
      simp only [List.length_cons, toLE, fromLE, high, head, ih]

end WireLib
