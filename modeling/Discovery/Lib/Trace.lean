import Mathlib.Data.List.Induction

/-!
# Runs that record where a step is taken

A run alternates between one recorded operation and moves that are not
recorded.  The trace lists the states in which the operation was taken.
-/

namespace Discovery.Lib

variable {σ : Type*}

/-- From `init`, after taking `step` in the states of the list, the run is in
the last state. -/
inductive Trace (idle : σ → σ → Prop) (step : σ → σ) (init : σ) : List σ → σ → Prop where
  | idle {s : σ} : idle init s → Trace idle step init [] s
  | step {l : List σ} {t s : σ} : Trace idle step init l t → idle (step t) s →
      Trace idle step init (l ++ [t]) s

namespace Trace

variable {idle : σ → σ → Prop} {step : σ → σ} {init s s' t : σ} {l l' : List σ}

theorem move (htrans : ∀ a b c, idle a b → idle b c → idle a c)
    (h : Trace idle step init l s) (hs : idle s s') : Trace idle step init l s' := by
  cases h with
  | idle h => exact .idle (htrans _ _ _ h hs)
  | step ht h => exact .step ht (htrans _ _ _ h hs)

theorem of_concat (h : Trace idle step init (l ++ [t]) s) :
    Trace idle step init l t ∧ idle (step t) s := by
  generalize hl : l ++ [t] = l₀ at h
  cases h with
  | idle _ => simp at hl
  | step ht hs =>
      obtain ⟨rfl, h⟩ := List.append_inj' hl rfl
      obtain rfl := List.singleton_inj.mp h
      exact ⟨ht, hs⟩

theorem of_append (h : Trace idle step init (l ++ t :: l') s) : Trace idle step init l t := by
  induction l' using List.reverseRecOn generalizing s with
  | nil => exact h.of_concat.1
  | append_singleton l' u ih =>
      have h' : Trace idle step init ((l ++ t :: l') ++ [u]) s := by simpa using h
      exact ih h'.of_concat.1

theorem getElem (h : Trace idle step init l s) {i : ℕ} (hi : i < l.length) :
    Trace idle step init (l.take i) l[i] := by
  have hl : l = l.take i ++ l[i] :: l.drop (i + 1) := by
    rw [← List.drop_eq_getElem_cons hi, List.take_append_drop]
  rw [hl] at h
  exact h.of_append

/-- Each recorded state is reached by moves from where the step before it led. -/
theorem adjacent (h : Trace idle step init l s) {i : ℕ} (hi : i + 1 < l.length) :
    idle (step l[i]) l[i + 1] := by
  have hnext := h.getElem hi
  rw [List.take_succ_eq_append_getElem (Nat.lt_of_succ_lt hi)] at hnext
  exact hnext.of_concat.2

/-- An invariant that the recorded step and all other moves keep. -/
theorem invariant {P : σ → Prop} (h : Trace idle step init l s) (hinit : P init)
    (hidle : ∀ a b, P a → idle a b → P b) (hstep : ∀ a, P a → P (step a)) : P s := by
  induction h with
  | idle h => exact hidle _ _ hinit h
  | step _ h ih => exact hidle _ _ (hstep _ ih) h

end Trace

end Discovery.Lib
