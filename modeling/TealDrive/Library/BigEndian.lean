import Mathlib.Data.List.Induction
import Mathlib.Tactic.Ring

/-!
# Numbers as bytes, the most significant byte first

Unsigned and signed fields of a fixed width, and the way back.  A number that
does not fit is taken modulo the width, as a machine does that stores it.
-/

namespace BigEndian

/-- The last bytes of a number. -/
def toBytes : Nat -> Nat -> List UInt8
  | 0, _ => []
  | width + 1, value => toBytes width (value / 256) ++ [UInt8.ofNat value]

/-- The number some bytes stand for. -/
def ofBytes (bytes : List UInt8) : Nat :=
  bytes.foldl (fun value byte => value * 256 + byte.toNat) 0

@[simp] theorem length_toBytes (width value : Nat) : (toBytes width value).length = width := by
  induction width generalizing value with
  | zero => rfl
  | succ width ih => simp [toBytes, ih]

@[simp] theorem ofBytes_concat (bytes : List UInt8) (last : UInt8) :
    ofBytes (bytes ++ [last]) = ofBytes bytes * 256 + last.toNat := by
  simp [ofBytes]

/-- Reading a field gives the number that was written, modulo the width. -/
theorem ofBytes_toBytes (width value : Nat) : ofBytes (toBytes width value) = value % 256 ^ width := by
  induction width generalizing value with
  | zero => simp [toBytes, ofBytes, Nat.mod_one]
  | succ width ih =>
      rw [toBytes, ofBytes_concat, ih]
      have low : (UInt8.ofNat value).toNat = value % 256 := by simp
      rw [low, Nat.pow_succ, Nat.mul_comm (256 ^ width) 256, Nat.mod_mul, Nat.mul_comm]
      exact Nat.add_comm _ _

theorem ofBytes_toBytes_of_lt {width value : Nat} (fits : value < 256 ^ width) :
    ofBytes (toBytes width value) = value := by
  rw [ofBytes_toBytes, Nat.mod_eq_of_lt fits]

theorem ofBytes_lt (bytes : List UInt8) : ofBytes bytes < 256 ^ bytes.length := by
  induction bytes using List.reverseRecOn with
  | nil => simp [ofBytes]
  | append_singleton front last ih =>
      have small := last.toNat_lt
      rw [ofBytes_concat, List.length_append, List.length_singleton, Nat.pow_succ]
      omega

/-- Writing the number that was read gives the bytes of the field. -/
theorem toBytes_ofBytes (bytes : List UInt8) : toBytes bytes.length (ofBytes bytes) = bytes := by
  induction bytes using List.reverseRecOn with
  | nil => rfl
  | append_singleton front last ih =>
      have small := last.toNat_lt
      have high : (ofBytes front * 256 + last.toNat) / 256 = ofBytes front := by omega
      have low : UInt8.ofNat (ofBytes front * 256 + last.toNat) = last := by
        apply UInt8.toNat_inj.mp
        simp
      rw [ofBytes_concat, List.length_append, List.length_singleton, toBytes, high, low, ih]

theorem toBytes_ofBytes_of_length {bytes : List UInt8} {width : Nat} (size : bytes.length = width) :
    toBytes width (ofBytes bytes) = bytes := by
  rw [← size, toBytes_ofBytes]

/-- The unsigned number a signed field holds for an integer. -/
def ofSigned (width : Nat) (value : Int) : Nat := (value % (256 ^ width : Nat)).toNat

/-- The integer an unsigned number stands for in a signed field. -/
def toSigned (width : Nat) (value : Nat) : Int :=
  if 2 * value < 256 ^ width then value else (value : Int) - (256 ^ width : Nat)

/-- A signed field keeps what is within half its width of zero. -/
theorem toSigned_ofSigned {width : Nat} {value : Int}
    (least : -((256 ^ width : Nat) : Int) ≤ 2 * value)
    (most : 2 * value < ((256 ^ width : Nat) : Int)) :
    toSigned width (ofSigned width value) = value := by
  have positive : 0 < 256 ^ width := Nat.pow_pos (by decide)
  unfold toSigned ofSigned
  generalize 256 ^ width = size at *
  by_cases negative : value < 0
  · have wrapped : value % (size : Int) = value + size := by
      rw [← Int.add_emod_right]
      exact Int.emod_eq_of_lt (by omega) (by omega)
    rw [wrapped]
    split
    · omega
    · omega
  · have kept : value % (size : Int) = value := Int.emod_eq_of_lt (by omega) (by omega)
    rw [kept]
    split
    · omega
    · omega

theorem ofSigned_lt (width : Nat) (value : Int) : ofSigned width value < 256 ^ width := by
  have positive : 0 < 256 ^ width := Nat.pow_pos (by decide)
  unfold ofSigned
  generalize 256 ^ width = size at *
  have above := Int.emod_nonneg value (show (size : Int) ≠ 0 by omega)
  have below := Int.emod_lt_of_pos value (show (0 : Int) < size by omega)
  omega

end BigEndian
