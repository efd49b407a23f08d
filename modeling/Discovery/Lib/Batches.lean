import Mathlib.Algebra.BigOperators.Group.List.Basic
import Mathlib.Algebra.Ring.Nat
import Mathlib.Data.List.Infix

/-!
# A queue that is read in batches

A batch reads a queue until it has accepted its limit, and stops behind the first
item that is not accepted.  How long an item waits is bounded by what is ahead of
it, whatever comes in behind.
-/

namespace Discovery.Lib

variable {α : Type*} (accepted : α → Bool)

/-- The number of items accepted, and the queue that is left. -/
def batch : ℕ → List α → ℕ × List α
  | 0, queue => (0, queue)
  | _ + 1, [] => (0, [])
  | limit + 1, a :: queue =>
    if accepted a then
      let (count, rest) := batch limit queue
      (count + 1, rest)
    else (0, queue)

/-- Batches one after the other.  Before each of them some items come in. -/
def batches : List (List α × ℕ) → List α → List ℕ × List α
  | [], queue => ([], queue)
  | (arrived, limit) :: rounds, queue =>
    let (count, rest) := batch accepted limit (queue ++ arrived)
    let (counts, rest) := batches rounds rest
    (count :: counts, rest)

/-- A bound on the batches that stop before they are past `ahead`. -/
def rank (limit : ℕ) (ahead : List α) : ℕ :=
  ahead.countP (!accepted ·) + ahead.countP accepted / limit

variable {accepted} {a : α} {ahead behind queue tail : List α} {limit : ℕ}

theorem batch_cons_of_accepted (ha : accepted a = true) (limit : ℕ) (queue : List α) :
    batch accepted (limit + 1) (a :: queue) =
      ((batch accepted limit queue).1 + 1, (batch accepted limit queue).2) := by
  rw [batch, if_pos ha]

theorem batch_cons_of_rejected (ha : accepted a = false) (limit : ℕ) (queue : List α) :
    batch accepted (limit + 1) (a :: queue) = (0, queue) := by
  rw [batch, ha, if_neg Bool.false_ne_true]

/-! ## What is read -/

variable (accepted) in
/-- A batch reads from the front of the queue, and counts what it accepts. -/
theorem exists_batch_taken (limit : ℕ) (queue : List α) : ∃ taken,
    queue = taken ++ (batch accepted limit queue).2 ∧
      (batch accepted limit queue).1 = taken.countP accepted := by
  induction queue generalizing limit with
  | nil =>
      cases limit with
      | zero => exact ⟨[], rfl, rfl⟩
      | succ limit => exact ⟨[], rfl, rfl⟩
  | cons a queue ih =>
      cases limit with
      | zero => exact ⟨[], rfl, rfl⟩
      | succ limit =>
          cases ha : accepted a with
          | false =>
              rw [batch_cons_of_rejected ha]
              exact ⟨[a], rfl, by simp [ha]⟩
          | true =>
              obtain ⟨taken, hqueue, hcount⟩ := ih limit
              rw [batch_cons_of_accepted ha, hcount]
              exact ⟨a :: taken, congrArg (a :: ·) hqueue, by rw [List.countP_cons_of_pos ha]⟩

variable (accepted) in
theorem exists_batches_taken (rounds : List (List α × ℕ)) (queue : List α) : ∃ taken,
    queue ++ rounds.flatMap Prod.fst = taken ++ (batches accepted rounds queue).2 ∧
      (batches accepted rounds queue).1.sum = taken.countP accepted := by
  induction rounds generalizing queue with
  | nil => exact ⟨[], by simp [batches], rfl⟩
  | cons round rounds ih =>
      obtain ⟨taken, hqueue, hcount⟩ := exists_batch_taken accepted round.2 (queue ++ round.1)
      obtain ⟨later, hrest, hcounts⟩ := ih (batch accepted round.2 (queue ++ round.1)).2
      refine ⟨taken ++ later, ?_, ?_⟩
      · rw [List.flatMap_cons, ← List.append_assoc, hqueue, List.append_assoc, hrest,
          List.append_assoc]
        rfl
      · rw [List.countP_append, ← hcount, ← hcounts]
        rfl

/-! ## How long an item waits -/

/-- A batch that does not come to `a` reads its limit, or stops behind an item
that it does not accept. -/
theorem batch_before (limit : ℕ) (ahead behind : List α) :
    (batch accepted limit (ahead ++ a :: behind)).2 <:+ behind ∨
      ∃ taken left, ahead = taken ++ left ∧
        (batch accepted limit (ahead ++ a :: behind)).2 = left ++ a :: behind ∧
        (0 < taken.countP (!accepted ·) ∨ taken.countP accepted = limit) := by
  induction ahead generalizing limit with
  | nil =>
      cases limit with
      | zero => exact .inr ⟨[], [], rfl, rfl, .inr rfl⟩
      | succ limit =>
          left
          rw [List.nil_append]
          cases ha : accepted a with
          | false =>
              rw [batch_cons_of_rejected ha]
          | true =>
              obtain ⟨taken, hbehind, -⟩ := exists_batch_taken accepted limit behind
              rw [batch_cons_of_accepted ha]
              exact ⟨taken, hbehind.symm⟩
  | cons b ahead ih =>
      cases limit with
      | zero => exact .inr ⟨[], b :: ahead, rfl, rfl, .inr rfl⟩
      | succ limit =>
          rw [List.cons_append]
          cases hb : accepted b with
          | false =>
              rw [batch_cons_of_rejected hb]
              exact .inr ⟨[b], ahead, rfl, rfl, .inl (by simp [hb])⟩
          | true =>
              rw [batch_cons_of_accepted hb]
              rcases ih limit with hread | ⟨taken, left, hahead, hrest, hstop⟩
              · exact .inl hread
              · refine .inr ⟨b :: taken, left, congrArg (b :: ·) hahead, hrest, ?_⟩
                rw [List.countP_cons_of_pos hb, List.countP_cons_of_neg (by simp [hb])]
                exact hstop.imp_right (congrArg (· + 1))

/-- Each batch comes to `a`, or lowers the rank of what is ahead of it. -/
theorem batch_rank {least : ℕ} (hleast : 0 < least) (hlimit : least ≤ limit)
    (ahead behind : List α) :
    (batch accepted limit (ahead ++ a :: behind)).2 <:+ behind ∨
      ∃ left, (batch accepted limit (ahead ++ a :: behind)).2 = left ++ a :: behind ∧
        rank accepted least left < rank accepted least ahead := by
  rcases batch_before limit ahead behind with hread | ⟨taken, left, rfl, hrest, hstop⟩
  · exact .inl hread
  · refine .inr ⟨left, hrest, ?_⟩
    rw [rank, rank, List.countP_append, List.countP_append]
    rcases hstop with hrejected | hfull
    · have hdiv : left.countP accepted / least ≤
          (taken.countP accepted + left.countP accepted) / least :=
        Nat.div_le_div_right (Nat.le_add_left _ _)
      omega
    · have hdiv : left.countP accepted / least + 1 ≤
          (taken.countP accepted + left.countP accepted) / least := by
        rw [← Nat.add_div_right _ hleast]
        exact Nat.div_le_div_right (by omega)
      omega

variable (a behind) in
/-- Once there were more batches than the rank of what was ahead of `a`, it was
read. -/
theorem batches_reach {least : ℕ} (hleast : 0 < least) (rounds : List (List α × ℕ))
    (hlimits : ∀ round ∈ rounds, least ≤ round.2)
    (hmany : rank accepted least ahead < rounds.length) :
    (batches accepted rounds (ahead ++ a :: behind)).2 <:+
      behind ++ rounds.flatMap Prod.fst := by
  induction rounds generalizing ahead behind with
  | nil => cases hmany
  | cons round rounds ih =>
      have hlater (r : List α × ℕ) (hr : r ∈ rounds) := hlimits r (List.mem_cons_of_mem _ hr)
      have hbatches : (batches accepted (round :: rounds) (ahead ++ a :: behind)).2 =
          (batches accepted rounds
            (batch accepted round.2 (ahead ++ a :: (behind ++ round.1))).2).2 := by
        rw [← List.cons_append, ← List.append_assoc]
        rfl
      rw [hbatches, List.flatMap_cons, ← List.append_assoc]
      rcases batch_rank hleast (hlimits round List.mem_cons_self) ahead (behind ++ round.1) with
        ⟨read, hread⟩ | ⟨left, hrest, hrank⟩
      · obtain ⟨taken, hqueue, -⟩ := exists_batches_taken accepted rounds
          (batch accepted round.2 (ahead ++ a :: (behind ++ round.1))).2
        exact ⟨read ++ taken, by rw [List.append_assoc, ← hqueue, ← List.append_assoc, hread]⟩
      · rw [hrest]
        rw [List.length_cons] at hmany
        exact ih _ hlater (by omega)

/-- A batch reads at most one item that it does not accept. -/
theorem batch_rejected (hahead : 0 < ahead.countP (!accepted ·)) (limit : ℕ) (tail : List α) :
    ∃ left, (batch accepted limit (ahead ++ tail)).2 = left ++ tail ∧
      ahead.countP (!accepted ·) ≤ left.countP (!accepted ·) + 1 := by
  induction ahead generalizing limit with
  | nil => cases hahead
  | cons b ahead ih =>
      cases limit with
      | zero => exact ⟨b :: ahead, rfl, Nat.le_succ _⟩
      | succ limit =>
          rw [List.cons_append]
          cases hb : accepted b with
          | false =>
              rw [batch_cons_of_rejected hb, List.countP_cons_of_pos (by simp [hb])]
              exact ⟨ahead, rfl, le_rfl⟩
          | true =>
              rw [List.countP_cons_of_neg (by simp [hb])] at hahead ⊢
              rw [batch_cons_of_accepted hb]
              exact ih hahead limit

/-- As long as there were no more batches than rejected items, all that is behind
these waits. -/
theorem batches_wait (rounds : List (List α × ℕ))
    (hfew : rounds.length ≤ ahead.countP (!accepted ·)) (tail : List α) :
    tail ++ rounds.flatMap Prod.fst <:+ (batches accepted rounds (ahead ++ tail)).2 := by
  induction rounds generalizing ahead tail with
  | nil => exact ⟨ahead, by simp [batches]⟩
  | cons round rounds ih =>
      rw [List.length_cons] at hfew
      obtain ⟨left, hrest, hleft⟩ := batch_rejected (Nat.zero_lt_of_lt hfew) round.2
        (tail ++ round.1)
      have hbatches : (batches accepted (round :: rounds) (ahead ++ tail)).2 =
          (batches accepted rounds (left ++ (tail ++ round.1))).2 := by
        rw [← hrest, ← List.append_assoc]
        rfl
      rw [hbatches, List.flatMap_cons, ← List.append_assoc]
      exact ih (by omega) (tail ++ round.1)

end Discovery.Lib
