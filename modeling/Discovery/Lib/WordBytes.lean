import Mathlib.Algebra.Order.Ring.Nat
import Mathlib.Data.List.Basic
import Mathlib.Tactic.Ring

/-!
# Fixed-width words as bytes

Numbers below `256 ^ w` correspond to the strings of `w` bytes, least
significant byte first.
-/

namespace Discovery.Lib

def wordBytes : ℕ → ℕ → List UInt8
  | 0, _ => []
  | w + 1, n => UInt8.ofNat n :: wordBytes w (n / 256)

def wordValue : List UInt8 → ℕ
  | [] => 0
  | b :: bs => b.toNat + wordValue bs * 256

@[simp] theorem length_wordBytes (w n : ℕ) : (wordBytes w n).length = w := by
  induction w generalizing n with
  | zero => rfl
  | succ w ih => rw [wordBytes, List.length_cons, ih]

theorem wordValue_lt (bs : List UInt8) : wordValue bs < 256 ^ bs.length := by
  induction bs with
  | nil => decide
  | cons b bs ih =>
      have hb := b.toNat_lt
      rw [wordValue, List.length_cons, pow_succ]
      omega

theorem wordValue_wordBytes {w n : ℕ} (h : n < 256 ^ w) : wordValue (wordBytes w n) = n := by
  induction w generalizing n with
  | zero =>
      rw [pow_zero] at h
      rw [wordBytes, wordValue]
      omega
  | succ w ih =>
      rw [pow_succ] at h
      rw [wordBytes, wordValue, ih (by omega), UInt8.toNat_ofNat']
      omega

theorem wordBytes_wordValue (bs : List UInt8) : wordBytes bs.length (wordValue bs) = bs := by
  induction bs with
  | nil => rfl
  | cons b bs ih =>
      have hb := b.toNat_lt
      have hdiv : (b.toNat + wordValue bs * 256) / 256 = wordValue bs := by omega
      rw [List.length_cons, wordValue, wordBytes, hdiv, ih]
      congr 1
      apply UInt8.toNat_inj.mp
      rw [UInt8.toNat_ofNat']
      omega

end Discovery.Lib
