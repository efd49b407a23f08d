import Mathlib.Algebra.Order.Group.Multiset
import Mathlib.Data.Finset.Basic
import Mathlib.Logic.Equiv.Basic

/-!
# Exclusive ownership

A bank hands out resources and takes them back, and holders own at most one
resource each.  The books are in order when the resources that are out are
exactly those that are held, each by a single holder, and when nothing was ever
handed back that was not out.
-/

namespace Discovery.Lib

variable {ι H : Type*}

/-- `live` are the resources that are out.  `acquired` and `released` list all
that was handed out and handed back so far, and `faults` counts the resources
that were handed back without being out. -/
structure Bank (H : Type*) where
  live : Finset H := ∅
  acquired : Multiset H := 0
  released : Multiset H := 0
  faults : ℕ := 0

namespace Bank

variable [DecidableEq H]

def acquire (x : H) (bank : Bank H) : Bank H :=
  { bank with live := insert x bank.live, acquired := x ::ₘ bank.acquired }

def release (x : H) (bank : Bank H) : Bank H :=
  { bank with
    live := bank.live.erase x
    released := x ::ₘ bank.released
    faults := if x ∈ bank.live then bank.faults else bank.faults + 1 }

end Bank

structure Owned (held : ι → Option H) (bank : Bank H) : Prop where
  live : ∀ x, x ∈ bank.live ↔ ∃ i, held i = some x
  unique : ∀ i j x, held i = some x → held j = some x → i = j
  balance : bank.acquired = bank.released + bank.live.val
  faults : bank.faults = 0

namespace Owned

variable {held : ι → Option H} {bank : Bank H} {i j : ι} {x : H}

theorem empty : Owned (fun _ : ι ↦ none) ({} : Bank H) :=
  ⟨by simp, by simp, rfl, rfl⟩

/-- Nothing is out once nobody holds anything, and all of it was handed back. -/
theorem settled (h : Owned held bank) (hnone : ∀ i, held i = none) :
    bank.live = ∅ ∧ bank.acquired = bank.released := by
  have hlive : bank.live = ∅ := by
    apply Finset.eq_empty_of_forall_notMem
    intro x hx
    obtain ⟨i, hi⟩ := (h.live x).mp hx
    rw [hnone] at hi
    cases hi
  refine ⟨hlive, ?_⟩
  rw [h.balance, hlive, Finset.empty_val, add_zero]

/-- Renaming the holders changes nothing. -/
theorem comp_perm (h : Owned held bank) (e : Equiv.Perm ι) : Owned (held ∘ e) bank where
  live x := by
    rw [h.live]
    exact ⟨fun ⟨i, hi⟩ ↦ ⟨e.symm i, by simpa using hi⟩, fun ⟨i, hi⟩ ↦ ⟨e i, hi⟩⟩
  unique i j x hi hj := e.injective (h.unique _ _ x hi hj)
  balance := h.balance
  faults := h.faults

variable [DecidableEq ι]

theorem transfer (h : Owned held bank) (hj : held j = none) :
    Owned (Function.update (Function.update held j (held i)) i none) bank := by
  have hswap : Function.update (Function.update held j (held i)) i none =
      held ∘ Equiv.swap i j := by
    funext a
    by_cases hi : a = i
    · subst hi
      simp [hj]
    · by_cases hja : a = j
      · subst hja
        simp [hi]
      · simp [hi, hja, Equiv.swap_apply_of_ne_of_ne]
  rw [hswap]
  exact h.comp_perm _

variable [DecidableEq H]

theorem acquire (h : Owned held bank) (hi : held i = none) (hx : x ∉ bank.live) :
    Owned (Function.update held i (some x)) (bank.acquire x) where
  live y := by
    rw [Bank.acquire, Finset.mem_insert, h.live]
    constructor
    · rintro (rfl | ⟨j, hj⟩)
      · exact ⟨i, Function.update_self ..⟩
      · have hne : j ≠ i := fun heq ↦ by rw [heq, hi] at hj; cases hj
        exact ⟨j, by rwa [Function.update_of_ne hne]⟩
    · rintro ⟨j, hj⟩
      by_cases hji : j = i
      · rw [hji, Function.update_self, Option.some.injEq] at hj
        exact .inl hj.symm
      · rw [Function.update_of_ne hji] at hj
        exact .inr ⟨j, hj⟩
  unique a b y ha hb := by
    have hout (c : ι) : held c ≠ some x := fun hc ↦ hx ((h.live x).mpr ⟨c, hc⟩)
    by_cases hai : a = i <;> by_cases hbi : b = i
    · rw [hai, hbi]
    · rw [hai, Function.update_self, Option.some.injEq] at ha
      rw [Function.update_of_ne hbi, ← ha] at hb
      exact absurd hb (hout b)
    · rw [hbi, Function.update_self, Option.some.injEq] at hb
      rw [Function.update_of_ne hai, ← hb] at ha
      exact absurd ha (hout a)
    · rw [Function.update_of_ne hai] at ha
      rw [Function.update_of_ne hbi] at hb
      exact h.unique a b y ha hb
  balance := by
    simp only [Bank.acquire, Finset.insert_val_of_notMem hx, Multiset.add_cons, h.balance]
  faults := h.faults

theorem release (h : Owned held bank) (hi : held i = some x) :
    Owned (Function.update held i none) (bank.release x) := by
  have hlive : x ∈ bank.live := (h.live x).mpr ⟨i, hi⟩
  refine ⟨fun y ↦ ?_, fun a b y ha hb ↦ ?_, ?_, ?_⟩
  · rw [Bank.release, Finset.mem_erase, h.live]
    constructor
    · rintro ⟨hne, j, hj⟩
      have hji : j ≠ i := fun heq ↦ by
        rw [heq, hi, Option.some.injEq] at hj
        exact hne hj.symm
      exact ⟨j, by rwa [Function.update_of_ne hji]⟩
    · rintro ⟨j, hj⟩
      have hji : j ≠ i := fun heq ↦ by
        rw [heq, Function.update_self] at hj
        cases hj
      rw [Function.update_of_ne hji] at hj
      exact ⟨fun heq ↦ hji (h.unique j i x (by rw [hj, heq]) hi), j, hj⟩
  · have hai : a ≠ i := fun heq ↦ by rw [heq, Function.update_self] at ha; cases ha
    have hbi : b ≠ i := fun heq ↦ by rw [heq, Function.update_self] at hb; cases hb
    rw [Function.update_of_ne hai] at ha
    rw [Function.update_of_ne hbi] at hb
    exact h.unique a b y ha hb
  · have hval : bank.live.val = x ::ₘ bank.live.val.erase x := (Multiset.cons_erase hlive).symm
    simp only [Bank.release, Finset.erase_val, Multiset.cons_add]
    rw [h.balance, hval, Multiset.add_cons, Multiset.erase_cons_head]
  · simp [Bank.release, hlive, h.faults]

omit [DecidableEq ι] in
/-- To hand back what is not out any more is a fault. -/
theorem faults_of_release_twice (h : Owned held bank) (hi : held i = some x) :
    ((bank.release x).release x).faults = 1 := by
  have hlive : x ∈ bank.live := (h.live x).mpr ⟨i, hi⟩
  simp [Bank.release, hlive, h.faults]

end Owned

end Discovery.Lib
