import Discovery.Lib.ExactReader
import Discovery.Lib.WordBytes
import Discovery.Core

/-!
# The store's serializer

`softadastra::store::utils::Serializer` is not part of the repository.  It is a
parameter of the model, and `Serializer.Lawful` states what the codecs rely on:
fixed-width codings that are inverse to each other, and an exact bounds test.
-/

namespace Discovery

open Lib

structure Serializer where
  appendU16 : Bytes → UInt16 → Bytes
  appendU32 : Bytes → UInt32 → Bytes
  appendI64 : Bytes → Int64 → Bytes
  canRead : Bytes → ℕ → ℕ → Bool
  readU16 : Reader UInt8 UInt16
  readU32 : Reader UInt8 UInt32
  readI64 : Reader UInt8 Int64

/-- `append` writes exactly `width` bytes, from which `read` recovers the value
and nothing else. -/
structure FixedWidth {α : Type} (append : Bytes → α → Bytes) (read : Reader UInt8 α)
    (width : ℕ) : Prop where
  append_eq : ∀ buffer v, append buffer v = buffer ++ append [] v
  length_append : ∀ v, (append [] v).length = width
  exact : Exact read (fun _ ↦ True) (append [])

structure Serializer.Lawful (ser : Serializer) : Prop where
  u16 : FixedWidth ser.appendU16 ser.readU16 2
  u32 : FixedWidth ser.appendU32 ser.readU32 4
  i64 : FixedWidth ser.appendI64 ser.readI64 8
  canRead : ∀ data offset n, ser.canRead data offset n = true ↔ offset + n ≤ data.length

/-! ## A concrete lawful serializer -/

def readWord {α : Type} (w : ℕ) (ofNat : ℕ → α) : Reader UInt8 α := fun data offset ↦
  if offset + w ≤ data.length then
    some (ofNat (wordValue ((data.drop offset).take w)), offset + w)
  else none

theorem fixedWidth_word {α : Type} {w : ℕ} {toNat : α → ℕ} {ofNat : ℕ → α} (hw : 0 < w)
    (hlt : ∀ v, toNat v < 256 ^ w) (hof : ∀ v, ofNat (toNat v) = v)
    (hto : ∀ n < 256 ^ w, toNat (ofNat n) = n) :
    FixedWidth (fun buffer v ↦ buffer ++ wordBytes w (toNat v)) (readWord w ofNat) w where
  append_eq := by simp
  length_append := by simp
  exact := by
    intro data off v next
    simp only [readWord, List.nil_append, length_wordBytes, true_and]
    constructor
    · intro h
      split at h
      next hle =>
        obtain ⟨rfl, rfl⟩ := Prod.mk.inj (Option.some.inj h)
        have hlen : ((data.drop off).take w).length = w := by
          simp only [List.length_take, List.length_drop]
          omega
        have hval := wordValue_lt ((data.drop off).take w)
        have hback := wordBytes_wordValue ((data.drop off).take w)
        rw [hlen] at hval hback
        rw [hto _ hval, hback]
        exact ⟨List.take_prefix _ _, rfl⟩
      next => cases h
    · rintro ⟨hp, rfl⟩
      have hle := hp.length_le
      rw [length_wordBytes, List.length_drop] at hle
      have htake := List.prefix_iff_eq_take.mp hp
      rw [length_wordBytes] at htake
      rw [if_pos (by omega), ← htake, wordValue_wordBytes (hlt v), hof]

def Serializer.littleEndian : Serializer where
  appendU16 buffer v := buffer ++ wordBytes 2 v.toNat
  appendU32 buffer v := buffer ++ wordBytes 4 v.toNat
  appendI64 buffer v := buffer ++ wordBytes 8 v.toUInt64.toNat
  canRead data offset n := decide (offset + n ≤ data.length)
  readU16 := readWord 2 UInt16.ofNat
  readU32 := readWord 4 UInt32.ofNat
  readI64 := readWord 8 fun n ↦ (UInt64.ofNat n).toInt64

theorem Serializer.littleEndian_lawful : Serializer.littleEndian.Lawful where
  u16 := fixedWidth_word (by decide) UInt16.toNat_lt (by simp)
    fun n hn ↦ UInt16.toNat_ofNat_of_lt' hn
  u32 := fixedWidth_word (by decide) UInt32.toNat_lt (by simp)
    fun n hn ↦ UInt32.toNat_ofNat_of_lt' hn
  i64 := @fixedWidth_word Int64 8 (fun v ↦ v.toUInt64.toNat) (fun n ↦ (UInt64.ofNat n).toInt64)
    (by decide) (fun v ↦ v.toUInt64.toNat_lt) (by simp)
    fun n hn ↦ by simpa using UInt64.toNat_ofNat_of_lt' hn
  canRead := by simp [littleEndian]

end Discovery
