import Mathlib.Data.List.Basic
import Mathlib.Data.Nat.Basic
import Mathlib.Logic.Equiv.Defs

/-!
# Readers that are exact for an encoding

A reader looks at a buffer from an offset and returns a value with the offset
behind it.  It is exact for an encoding when it succeeds precisely where the
encoding of a value of its domain stands.  Exact readers compose along
concatenation, and a whole-buffer decoder built from one accepts the canonical
encodings only, no two of which are prefixes of each other.
-/

namespace Discovery.Lib

variable {β α γ ℓ : Type*}

/-- Reads one value of `data` at an offset and returns the offset after it. -/
abbrev Reader (β α : Type*) := List β → ℕ → Option (α × ℕ)

/-- `read` succeeds exactly where the encoding of a value of `dom` stands. -/
def Exact (read : Reader β α) (dom : α → Prop) (enc : α → List β) : Prop :=
  ∀ data off v next, read data off = some (v, next) ↔
    dom v ∧ enc v <+: data.drop off ∧ next = off + (enc v).length

theorem append_prefix_drop_iff (a b l : List β) (n : ℕ) :
    a ++ b <+: l.drop n ↔ a <+: l.drop n ∧ b <+: l.drop (n + a.length) := by
  constructor
  · rintro ⟨t, ht⟩
    have ha : a <+: l.drop n := ⟨b ++ t, by simpa using ht⟩
    refine ⟨ha, t, ?_⟩
    rw [← List.drop_drop, ← ht]
    simp
  · rintro ⟨⟨s, hs⟩, t, ht⟩
    rw [← List.drop_drop, ← hs, List.drop_left] at ht
    exact ⟨t, by rw [← hs, ← ht, List.append_assoc]⟩

namespace Exact

variable {read : Reader β α} {dom : α → Prop} {enc : α → List β}

theorem read_of_prefix (h : Exact read dom enc) (off : ℕ) {data : List β} {v : α}
    (hv : dom v) (hp : enc v <+: data.drop off) :
    read data off = some (v, off + (enc v).length) :=
  (h data off v _).mpr ⟨hv, hp, rfl⟩

theorem unique (h : Exact read dom enc) {l : List β} {v w : α} (hv : dom v) (hw : dom w)
    (hvl : enc v <+: l) (hwl : enc w <+: l) : v = w := by
  have h₁ := h.read_of_prefix 0 hv (by simpa using hvl)
  have h₂ := h.read_of_prefix 0 hw (by simpa using hwl)
  rw [h₁] at h₂
  exact congrArg Prod.fst (Option.some.inj h₂)

end Exact

/-! ## Composition -/

def Reader.andThen (r : Reader β α) (s : Reader β γ) : Reader β (α × γ) := fun data off ↦
  (r data off).bind fun a ↦ (s data a.2).bind fun c ↦ some ((a.1, c.1), c.2)

theorem Exact.andThen {r : Reader β α} {s : Reader β γ} {d : α → Prop} {e : γ → Prop}
    {f : α → List β} {g : γ → List β} (hr : Exact r d f) (hs : Exact s e g) :
    Exact (r.andThen s) (fun p ↦ d p.1 ∧ e p.2) (fun p ↦ f p.1 ++ g p.2) := by
  rintro data off ⟨a, c⟩ next
  simp only [Reader.andThen, Option.bind_eq_some_iff, Option.some.injEq, Prod.mk.injEq,
    append_prefix_drop_iff, List.length_append]
  constructor
  · rintro ⟨⟨a', m⟩, ha, ⟨c', k⟩, hc, ⟨rfl, rfl⟩, rfl⟩
    obtain ⟨hda, hpa, rfl⟩ := (hr _ _ _ _).mp ha
    obtain ⟨hdc, hpc, rfl⟩ := (hs _ _ _ _).mp hc
    exact ⟨⟨hda, hdc⟩, ⟨hpa, hpc⟩, by dsimp only; omega⟩
  · rintro ⟨⟨hda, hdc⟩, ⟨hpa, hpc⟩, rfl⟩
    refine ⟨_, hr.read_of_prefix _ hda hpa, _, hs.read_of_prefix _ hdc hpc, ⟨rfl, rfl⟩, ?_⟩
    exact Nat.add_assoc _ _ _

def Reader.via (r : Reader β α) (e : α ≃ γ) : Reader β γ := fun data off ↦
  (r data off).bind fun a ↦ some (e a.1, a.2)

theorem Exact.via {r : Reader β α} {d : α → Prop} {f : α → List β} (h : Exact r d f)
    (e : α ≃ γ) : Exact (r.via e) (fun c ↦ d (e.symm c)) (fun c ↦ f (e.symm c)) := by
  intro data off c next
  simp only [Reader.via, Option.bind_eq_some_iff, Option.some.injEq, Prod.mk.injEq]
  constructor
  · rintro ⟨⟨a, m⟩, ha, rfl, rfl⟩
    simpa using (h _ _ _ _).mp ha
  · intro hc
    exact ⟨(e.symm c, next), (h _ _ _ _).mpr hc, e.apply_symm_apply c, rfl⟩

def Reader.sized (r : Reader β ℓ) (toNat : ℓ → ℕ) : Reader β (List β) := fun data off ↦
  (r data off).bind fun n ↦
    if n.2 + toNat n.1 ≤ data.length then
      some ((data.drop n.2).take (toNat n.1), n.2 + toNat n.1)
    else none

/-- A nonempty length word that represents exactly the numbers below `bound`
prefixes exactly the strings shorter than `bound`. -/
theorem Exact.sized {r : Reader β ℓ} {enc : ℓ → List β} (h : Exact r (fun _ ↦ True) enc)
    {toNat : ℓ → ℕ} {ofNat : ℕ → ℓ} {bound : ℕ} (hpos : ∀ n, 0 < (enc n).length)
    (hlt : ∀ n, toNat n < bound) (hto : ∀ n < bound, toNat (ofNat n) = n)
    (hof : ∀ n, ofNat (toNat n) = n) :
    Exact (r.sized toNat) (fun s ↦ s.length < bound)
      (fun s ↦ enc (ofNat s.length) ++ s) := by
  intro data off s next
  simp only [Reader.sized, Option.bind_eq_some_iff, append_prefix_drop_iff, List.length_append]
  constructor
  · rintro ⟨⟨n, m⟩, hn, hs⟩
    obtain ⟨-, hpre, rfl⟩ := (h _ _ _ _).mp hn
    dsimp only at hs
    split at hs
    next hle =>
      obtain ⟨rfl, rfl⟩ := Prod.mk.inj (Option.some.inj hs)
      have hlen : ((data.drop (off + (enc n).length)).take (toNat n)).length = toNat n := by
        simp only [List.length_take, List.length_drop]
        omega
      rw [hlen, hof]
      exact ⟨hlt n, ⟨hpre, List.take_prefix _ _⟩, by omega⟩
    next => cases hs
  · rintro ⟨hs, ⟨hpre, hbody⟩, rfl⟩
    refine ⟨_, h.read_of_prefix _ trivial hpre, ?_⟩
    have hword := hpre.length_le
    have hroom := hbody.length_le
    have hp := hpos (ofNat s.length)
    simp only [List.length_drop] at hword hroom
    simp only [hto _ hs]
    rw [if_pos (by omega), ← List.prefix_iff_eq_take.mp hbody, Nat.add_assoc]

/-! ## Decoding a whole buffer -/

/-- Reads from the start and insists that nothing is left over. -/
def Reader.whole (r : Reader β α) (data : List β) : Option α :=
  (r data 0).bind fun a ↦ if a.2 = data.length then some a.1 else none

/-- `decode` accepts the encodings of the values of `dom` and nothing else. -/
def Canonical (decode : List β → Option α) (dom : α → Prop) (enc : α → List β) : Prop :=
  ∀ data v, decode data = some v ↔ dom v ∧ enc v = data

/-- No accepted buffer is a proper prefix of another one. -/
def PrefixFree (decode : List β → Option α) : Prop :=
  ∀ ⦃a b : List β⦄, a <+: b → (decode a).isSome → (decode b).isSome → a = b

theorem Exact.canonical {r : Reader β α} {dom : α → Prop} {enc : α → List β}
    (h : Exact r dom enc) : Canonical r.whole dom enc := by
  intro data v
  simp only [Reader.whole, Option.bind_eq_some_iff]
  constructor
  · rintro ⟨⟨w, next⟩, hr, hw⟩
    split at hw
    next hend =>
      obtain rfl := Option.some.inj hw
      obtain ⟨hd, hp, hn⟩ := (h _ _ _ _).mp hr
      rw [List.drop_zero] at hp
      exact ⟨hd, hp.eq_of_length (by dsimp only at hend; omega)⟩
    next => cases hw
  · rintro ⟨hd, rfl⟩
    exact ⟨_, h.read_of_prefix 0 hd (by simp), by simp⟩

namespace Canonical

variable {decode : List β → Option α} {dom : α → Prop} {enc : α → List β}

theorem enc_of_decode (h : Canonical decode dom enc) {data : List β} {v : α}
    (hd : decode data = some v) : enc v = data :=
  ((h _ _).mp hd).2

/-- Narrowing a canonical decoder by a check on the value narrows its domain. -/
theorem filter (h : Canonical decode dom enc) (p : α → Bool) :
    Canonical (fun data ↦ (decode data).filter p) (fun v ↦ dom v ∧ p v = true) enc := by
  intro data v
  simp only [Option.filter_eq_some_iff, h data v]
  tauto

end Canonical

theorem Exact.prefixFree {r : Reader β α} {dom : α → Prop} {enc : α → List β}
    (h : Exact r dom enc) {decode : List β → Option α} {p : α → Prop}
    (hc : Canonical decode (fun v ↦ dom v ∧ p v) enc) : PrefixFree decode := by
  intro a b hab ha hb
  obtain ⟨v, hv⟩ := Option.isSome_iff_exists.mp ha
  obtain ⟨w, hw⟩ := Option.isSome_iff_exists.mp hb
  obtain ⟨⟨hdv, -⟩, rfl⟩ := (hc _ _).mp hv
  obtain ⟨⟨hdw, -⟩, rfl⟩ := (hc _ _).mp hw
  rw [h.unique hdv hdw hab (List.prefix_refl _)]

namespace PrefixFree

variable {decode : List β → Option α}

theorem decode_eq_none_of_prefix (h : PrefixFree decode) {a b : List β}
    (hb : (decode b).isSome) (hab : a <+: b) (hne : a ≠ b) : decode a = none := by
  by_contra hcon
  exact hne (h hab (Option.isSome_iff_ne_none.mpr hcon) hb)

theorem decode_eq_none_of_extension (h : PrefixFree decode) {a b : List β}
    (ha : (decode a).isSome) (hab : a <+: b) (hne : a ≠ b) : decode b = none := by
  by_contra hcon
  exact hne (h hab ha (Option.isSome_iff_ne_none.mpr hcon))

theorem take_eq_self (h : PrefixFree decode) {a : List β} {n : ℕ} (ha : (decode a).isSome)
    (ht : (decode (a.take n)).isSome) : a.take n = a :=
  h (List.take_prefix n a) ht ha

end PrefixFree

end Discovery.Lib
