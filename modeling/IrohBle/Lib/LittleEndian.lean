import Mathlib.Data.Nat.Basic
import Mathlib.Tactic.Ring

/-! # Lib.LittleEndian: numbers as bytes, the lowest first

* `encode w n`: the `w` lowest bytes of `n`. `decode` reads a number from any list of bytes.
* `decode_encode`, `encode_decode`: one undoes the other below `256 ^ w`, and on lists of `w` bytes.
-/

namespace Lib.LittleEndian

/-- The `w` lowest bytes of a number, the lowest first. -/
def encode : ℕ → ℕ → List UInt8
  | 0, _ => []
  | w + 1, n => UInt8.ofNat (n % 256) :: encode w (n / 256)

/-- The number that the bytes stand for. -/
def decode : List UInt8 → ℕ
  | [] => 0
  | b :: bs => b.toNat + 256 * decode bs

/-- Every number has exactly `w` bytes. -/
theorem length_encode (w n : ℕ) : (encode w n).length = w := by
  induction w generalizing n with
  | zero => rfl
  | succ w ih =>
      change (encode w (n / 256)).length + 1 = w + 1
      rw [ih]

/-- Bytes stand for a number that fits them. -/
theorem decode_lt (bs : List UInt8) : decode bs < 256 ^ bs.length := by
  induction bs with
  | nil => exact Nat.one_pos
  | cons b bs ih =>
      have hb : b.toNat < 256 := b.toNat_lt
      have hpow : 256 ^ (b :: bs).length = 256 * 256 ^ bs.length := by
        rw [List.length_cons, pow_succ]
        ring
      rw [hpow, decode]
      omega

/-- A number that fits is read back. -/
theorem decode_encode {w n : ℕ} (h : n < 256 ^ w) : decode (encode w n) = n := by
  induction w generalizing n with
  | zero =>
      have hn : n = 0 := by
        rw [pow_zero] at h
        omega
      subst hn
      rfl
  | succ w ih =>
      have hrest : n / 256 < 256 ^ w := by
        apply Nat.div_lt_of_lt_mul
        rw [pow_succ] at h
        omega
      have hlow : (UInt8.ofNat (n % 256)).toNat = n % 256 := by
        rw [UInt8.toNat_ofNat']
        omega
      rw [encode, decode, ih hrest, hlow]
      omega

/-- Bytes are written back. -/
theorem encode_decode (bs : List UInt8) : encode bs.length (decode bs) = bs := by
  induction bs with
  | nil => rfl
  | cons b bs ih =>
      have hb : b.toNat < 256 := b.toNat_lt
      have hlow : (b.toNat + 256 * decode bs) % 256 = b.toNat := by omega
      have hrest : (b.toNat + 256 * decode bs) / 256 = decode bs := by omega
      rw [List.length_cons, decode, encode, hlow, hrest, ih, UInt8.ofNat_toNat]

end Lib.LittleEndian
