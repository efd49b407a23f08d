import Mathlib.Data.List.Infix
import Mathlib.Order.Lattice

/-!
# Retries

An attempt is repeated until it is not interrupted.  The attempts are numbered,
and a loop without a bound is a loop with enough fuel.  One loop after the other
leaves a tape of the attempts that counted.
-/

namespace Discovery.Lib

variable {α β : Type*}

/-- The result of the first attempt from `n` on that has one, and the number of
the attempt after it. -/
def retry (attempt : ℕ → Option α) : ℕ → ℕ → Option (α × ℕ)
  | 0, _ => none
  | fuel + 1, n =>
    match attempt n with
    | some a => some (a, n + 1)
    | none => retry attempt fuel (n + 1)

variable {attempt : ℕ → Option α} {fuel fuel' n k : ℕ} {a : α}

/-- More fuel does not change the result of a loop that ended. -/
theorem retry_mono (hfuel : fuel ≤ fuel') (h : retry attempt fuel n = some (a, k)) :
    retry attempt fuel' n = some (a, k) := by
  induction fuel generalizing fuel' n with
  | zero => cases h
  | succ fuel ih =>
      obtain ⟨more, rfl⟩ := Nat.exists_eq_add_of_le' hfuel
      rw [← Nat.add_assoc, retry]
      rw [retry] at h
      cases hfirst : attempt n with
      | some b =>
          rw [hfirst] at h
          exact h
      | none =>
          rw [hfirst] at h
          exact ih (Nat.le_add_left _ _) h

/-- A loop that ends took the first attempt that was not interrupted. -/
theorem attempt_of_retry (h : retry attempt fuel n = some (a, k)) :
    ∃ m, n ≤ m ∧ k = m + 1 ∧ attempt m = some a ∧ ∀ j, n ≤ j → j < m → attempt j = none := by
  induction fuel generalizing n with
  | zero => cases h
  | succ fuel ih =>
      rw [retry] at h
      cases hfirst : attempt n with
      | some b =>
          rw [hfirst] at h
          obtain ⟨rfl, rfl⟩ := Prod.mk.inj (Option.some.inj h)
          exact ⟨n, le_rfl, rfl, hfirst, fun j hj hjm ↦ absurd hjm (not_lt.mpr hj)⟩
      | none =>
          rw [hfirst] at h
          obtain ⟨m, hm, hk, hresult, hbefore⟩ := ih h
          refine ⟨m, Nat.le_of_succ_le hm, hk, hresult, fun j hj hjm ↦ ?_⟩
          rcases Nat.eq_or_lt_of_le hj with rfl | hlater
          · exact hfirst
          · exact hbefore j hlater hjm

variable (attempt) in
/-- The loop ends as soon as some attempt is not interrupted. -/
theorem exists_retry (h : ∃ m < fuel, (attempt (n + m)).isSome = true) :
    ∃ a k, retry attempt fuel n = some (a, k) := by
  obtain ⟨m, hm, hresult⟩ := h
  induction fuel generalizing n m with
  | zero => omega
  | succ fuel ih =>
      rw [retry]
      cases hfirst : attempt n with
      | some b => exact ⟨b, n + 1, rfl⟩
      | none =>
          cases m with
          | zero => simp [hfirst] at hresult
          | succ m =>
              refine ih m (Nat.lt_of_succ_lt_succ hm) ?_
              rwa [Nat.add_right_comm, Nat.add_assoc]

/-! ## Loops one after the other -/

/-- For each input in turn, the attempts are interrupted up to one that counts.
The tape starts at the attempt `n` and ends before `k`. -/
inductive Tape (attempt : ℕ → β → Option α) : ℕ → List β → List ℕ → ℕ → Prop where
  | nil (n : ℕ) : Tape attempt n [] [] n
  | cons {n m k : ℕ} {b : β} {inputs : List β} {picks : List ℕ} (hm : n ≤ m)
      (hbefore : ∀ j, n ≤ j → j < m → attempt j b = none) (hpick : (attempt m b).isSome = true)
      (h : Tape attempt (m + 1) inputs picks k) :
      Tape attempt n (b :: inputs) (m :: picks) k

namespace Tape

variable {attempt : ℕ → β → Option α} {n m k : ℕ} {b : β} {inputs inputs' : List β}
  {picks picks' : List ℕ}

/-- A loop that ends is a tape of one pick. -/
theorem of_retry (h : retry (attempt · b) fuel n = some (a, k)) :
    ∃ m, attempt m b = some a ∧ k = m + 1 ∧ Tape attempt n [b] [m] k := by
  obtain ⟨m, hm, rfl, hresult, hbefore⟩ := attempt_of_retry h
  exact ⟨m, hresult, rfl, .cons hm hbefore (by rw [hresult]; rfl) (.nil _)⟩

theorem append (h : Tape attempt n inputs picks m) (h' : Tape attempt m inputs' picks' k) :
    Tape attempt n (inputs ++ inputs') (picks ++ picks') k := by
  induction h with
  | nil n => exact h'
  | cons hm hbefore hpick _ ih => exact .cons hm hbefore hpick (ih h')

theorem le (h : Tape attempt n inputs picks k) : n ≤ k := by
  induction h with
  | nil n => exact le_rfl
  | cons hm _ _ _ ih => omega

theorem range (h : Tape attempt n inputs picks k) : ∀ m ∈ picks, n ≤ m ∧ m < k := by
  induction h with
  | nil n => simp
  | cons hm _ _ hrest ih =>
      intro j hj
      have hle := hrest.le
      rcases List.mem_cons.mp hj with rfl | hj
      · omega
      · have hlater := ih j hj
        omega

theorem pairwise (h : Tape attempt n inputs picks k) : picks.Pairwise (· < ·) := by
  induction h with
  | nil n => exact .nil
  | cons _ _ _ hrest ih => exact .cons (fun j hj ↦ (hrest.range j hj).1) ih

end Tape

end Discovery.Lib
