import Discovery.Lib.ExactReader
import Mathlib.Algebra.Ring.Nat

/-!
# Readers over raw memory

A reader as a machine runs it.  The offset is a word of a fixed width, an access
outside the buffer is a fault of its own, and a log keeps every access, every
sum of words, every value the offset takes and every read that succeeds.  Such
a program refines a reader when it stays in range and computes the same.
-/

namespace Discovery.Lib

/-- A program stops because it rejects its input or because it left the buffer. -/
inductive Stop where
  | reject
  | outOfRange
deriving DecidableEq

inductive Touch where
  | access (first last : ℕ)
  | sum (a b : ℕ)
  | moved (offset : ℕ)
  | read (before after : ℕ)
deriving DecidableEq

/-- Accesses and offsets stay inside the buffer, sums below the range of a word,
and a read takes something. -/
def Touch.InRange (width size : ℕ) : Touch → Prop
  | .access first last => first ≤ last ∧ last ≤ size
  | .sum a b => a + b < 2 ^ width
  | .moved offset => offset ≤ size
  | .read before after => before < after ∧ after ≤ size

structure Cursor where
  offset : ℕ := 0
  log : List Touch := []

structure Cursor.InRange (width size : ℕ) (c : Cursor) : Prop where
  offset : c.offset ≤ size
  log : ∀ t ∈ c.log, t.InRange width size

/-- A program over a buffer.  What it did up to a failure is kept. -/
abbrev Scan (α : Type) := EStateM Stop Cursor α

namespace Scan

variable {α β γ : Type}

def record (t : Touch) : Scan Unit := modify fun c ↦ { c with log := c.log ++ [t] }

def position : Scan ℕ := return (← get).offset

/-- The sum of two words. -/
def add (width a b : ℕ) : Scan ℕ := do
  record (.sum a b)
  return (a + b) % 2 ^ width

def moveTo (offset : ℕ) : Scan Unit := do
  record (.moved offset)
  modify fun c ↦ { c with offset }

def byteAt (data : List β) (index : ℕ) : Scan β := do
  record (.access index (index + 1))
  match data[index]? with
  | some b => return b
  | none => throw .outOfRange

def copy (data : List β) (first last : ℕ) : Scan (List β) := do
  record (.access first last)
  if first ≤ last ∧ last ≤ data.length then return (data.drop first).take (last - first)
  else throw .outOfRange

/-- A reader whose inside is not modelled. -/
def external (r : Reader β α) (data : List β) : Scan α := do
  match r data (← position) with
  | some (v, next) => do
      moveTo next
      return v
  | none => throw .reject

/-- Logs where `m` began and ended, if it succeeds. -/
def reading (m : Scan α) : Scan α := do
  let before ← position
  let v ← m
  record (.read before (← position))
  return v

theorem run_reading (m : Scan α) (c : Cursor) :
    (reading m).run c = match m.run c with
      | .ok v c' => .ok v { c' with log := c'.log ++ [.read c.offset c'.offset] }
      | .error e c' => .error e c' := by
  change EStateM.run (m >>= _) c = _
  rw [EStateM.run_bind]
  cases m.run c <;> rfl

theorem run_external (r : Reader β α) (data : List β) (c : Cursor) :
    (external r data).run c = match r data c.offset with
      | some (v, next) => .ok v { offset := next, log := c.log ++ [.moved next] }
      | none => .error .reject c := by
  unfold external
  rw [EStateM.run_bind]
  change EStateM.run (match r data c.offset with | some (v, next) => _ | none => _) c = _
  cases r data c.offset <;> rfl

/-- What a run from the start of the buffer returns. -/
def outcome (m : Scan α) : Except Stop α :=
  match m.run {} with
  | .ok v _ => .ok v
  | .error e _ => .error e

/-- Where a run from the start of the buffer ends, and what it did. -/
def final (m : Scan α) : Cursor :=
  match m.run {} with
  | .ok _ c => c
  | .error _ c => c

end Scan

/-! ## Refinement -/

/-- From every cursor in range `m` stays in range, and it succeeds or rejects as
`r` does. -/
def Refines (width size : ℕ) {α : Type} (m : Scan α) (r : ℕ → Option (α × ℕ)) : Prop :=
  ∀ c : Cursor, c.InRange width size →
    match m.run c with
    | .ok v c' => r c.offset = some (v, c'.offset) ∧ c'.InRange width size
    | .error e c' => e = .reject ∧ r c.offset = none ∧ c'.InRange width size

theorem Cursor.InRange.append {width size : ℕ} {c : Cursor} (h : c.InRange width size)
    {t : Touch} (ht : t.InRange width size) :
    Cursor.InRange width size { c with log := c.log ++ [t] } where
  offset := h.offset
  log u hu := by
    rcases List.mem_append.mp hu with hu | hu
    · exact h.log u hu
    · rwa [List.mem_singleton.mp hu]

namespace Refines

variable {α β γ : Type} {width size : ℕ}

theorem pure (v : α) : Refines width size (pure v) fun off ↦ some (v, off) :=
  fun _ hc ↦ ⟨rfl, hc⟩

theorem reject : Refines width size (throw Stop.reject : Scan α) fun _ ↦ none :=
  fun _ hc ↦ ⟨rfl, rfl, hc⟩

/-- The continuation has to be followed for the values that `r` can return. -/
theorem bind_of_reads {m : Scan α} {r : ℕ → Option (α × ℕ)} {f : α → Scan γ}
    {s : α → ℕ → Option (γ × ℕ)} (hm : Refines width size m r)
    (hf : ∀ a off next, r off = some (a, next) → Refines width size (f a) (s a)) :
    Refines width size (m >>= f) fun off ↦ (r off).bind fun p ↦ s p.1 p.2 := by
  intro c hc
  have hrun := hm c hc
  rw [EStateM.run_bind]
  cases h : m.run c with
  | error e c' =>
      rw [h] at hrun
      obtain ⟨he, hr, hc'⟩ := hrun
      exact ⟨he, by simp only [hr, Option.bind_none], hc'⟩
  | ok a c' =>
      rw [h] at hrun
      obtain ⟨hr, hc'⟩ := hrun
      simpa only [hr, Option.bind_some] using hf a _ _ hr c' hc'

theorem bind {m : Scan α} {r : ℕ → Option (α × ℕ)} {f : α → Scan γ}
    {s : α → ℕ → Option (γ × ℕ)} (hm : Refines width size m r)
    (hf : ∀ a, Refines width size (f a) (s a)) :
    Refines width size (m >>= f) fun off ↦ (r off).bind fun p ↦ s p.1 p.2 :=
  hm.bind_of_reads fun a _ _ _ ↦ hf a

/-- After a step whose value is known, only that value has to be continued. -/
theorem step {m : Scan α} {v : α} {next : ℕ → ℕ} {f : α → Scan γ} {s : ℕ → Option (γ × ℕ)}
    (hm : Refines width size m fun off ↦ some (v, next off)) (hf : Refines width size (f v) s) :
    Refines width size (m >>= f) fun off ↦ s (next off) := by
  refine hm.bind_of_reads (s := fun _ ↦ s) fun a off next hr ↦ ?_
  obtain ⟨rfl, -⟩ := Prod.mk.inj (Option.some.inj hr)
  exact hf

theorem ite {m m' : Scan α} {r r' : ℕ → Option (α × ℕ)} {p : Prop} [Decidable p]
    (hm : p → Refines width size m r) (hm' : ¬p → Refines width size m' r') :
    Refines width size (if p then m else m') fun off ↦ if p then r off else r' off := by
  by_cases h : p
  · simpa only [if_pos h] using hm h
  · simpa only [if_neg h] using hm' h

theorem record {t : Touch} (ht : t.InRange width size) :
    Refines width size (Scan.record t) fun off ↦ some ((), off) :=
  fun _ hc ↦ ⟨rfl, hc.append ht⟩

theorem position : Refines width size Scan.position fun off ↦ some (off, off) :=
  fun _ hc ↦ ⟨rfl, hc⟩

theorem add {a b : ℕ} (h : a + b < 2 ^ width) :
    Refines width size (Scan.add width a b) fun off ↦ some (a + b, off) := by
  intro c hc
  refine ⟨?_, hc.append h⟩
  change some (a + b, c.offset) = some ((a + b) % 2 ^ width, c.offset)
  rw [Nat.mod_eq_of_lt h]

theorem moveTo {offset : ℕ} (h : offset ≤ size) :
    Refines width size (Scan.moveTo offset) fun _ ↦ some ((), offset) :=
  fun _ hc ↦ ⟨rfl, h, (hc.append (t := .moved offset) h).log⟩

theorem byteAt {data : List β} {index : ℕ} {b : β} (hb : data[index]? = some b) :
    Refines width data.length (Scan.byteAt data index) fun off ↦ some (b, off) := by
  have hlt : index + 1 ≤ data.length := (List.getElem?_eq_some_iff.mp hb).1
  have hlog : Touch.InRange width data.length (.access index (index + 1)) :=
    ⟨Nat.le_succ index, hlt⟩
  unfold Scan.byteAt
  rw [hb]
  exact (record hlog).step (pure b)

theorem copy {data : List β} {first last : ℕ} (h : first ≤ last) (hlast : last ≤ data.length) :
    Refines width data.length (Scan.copy data first last) fun off ↦
      some ((data.drop first).take (last - first), off) := by
  have hlog : Touch.InRange width data.length (.access first last) := ⟨h, hlast⟩
  unfold Scan.copy
  rw [if_pos ⟨h, hlast⟩]
  exact (record hlog).step (pure _)

theorem external {r : Reader β α} {data : List β}
    (h : ∀ off v next, r data off = some (v, next) → next ≤ data.length) :
    Refines width data.length (Scan.external r data) (r data) := by
  intro c hc
  rw [Scan.run_external]
  cases hr : r data c.offset with
  | none => exact ⟨rfl, rfl, hc⟩
  | some p =>
      have hnext := h _ _ _ hr
      exact ⟨rfl, hnext, (hc.append (t := .moved p.2) hnext).log⟩

/-- A read that takes at least one element may be logged as one. -/
theorem reading {m : Scan α} {r : ℕ → Option (α × ℕ)} (hm : Refines width size m r)
    (hpos : ∀ off v next, r off = some (v, next) → off < next) :
    Refines width size (Scan.reading m) r := by
  intro c hc
  have hrun := hm c hc
  rw [Scan.run_reading]
  cases h : m.run c with
  | error e c' => rwa [h] at hrun
  | ok v c' =>
      rw [h] at hrun
      obtain ⟨hr, hc'⟩ := hrun
      exact ⟨hr, hc'.append ⟨hpos _ _ _ hr, hc'.offset⟩⟩

theorem congr {m : Scan α} {r r' : ℕ → Option (α × ℕ)} (hm : Refines width size m r)
    (h : ∀ off, r off = r' off) : Refines width size m r' :=
  funext h ▸ hm

theorem outcome_eq {m : Scan α} {r : ℕ → Option (α × ℕ)} (hm : Refines width size m r) :
    m.outcome = match r 0 with
      | some (v, _) => .ok v
      | none => .error .reject := by
  have hrun := hm {} ⟨Nat.zero_le _, by simp⟩
  unfold Scan.outcome
  cases h : m.run {} with
  | ok v c =>
      rw [h] at hrun
      rw [hrun.1]
  | error e c =>
      rw [h] at hrun
      rw [hrun.1, hrun.2.1]

theorem final_inRange {m : Scan α} {r : ℕ → Option (α × ℕ)} (hm : Refines width size m r) :
    m.final.InRange width size := by
  have hrun := hm {} ⟨Nat.zero_le _, by simp⟩
  unfold Scan.final
  cases h : m.run {} with
  | ok v c =>
      rw [h] at hrun
      exact hrun.2
  | error e c =>
      rw [h] at hrun
      exact hrun.2.2

end Refines

end Discovery.Lib
