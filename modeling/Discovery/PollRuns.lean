import Discovery.Drain
import Discovery.Lib.Trace
import Discovery.Registration

/-!
# Runs of a started engine

A run between a start and the next stop is a list of calls and changes of the
environment.  Its trace lists the states in which `poll_once` was entered, by
itself or from `poll_many`.
-/

namespace Discovery

open Lib

namespace DiscoveryEngine

variable {T : Type} {deps : External T} {os : Os} {s s' s'' t : Runtime T} {c : DiscoveryConfig}

inductive Event (T : Type) where
  | announceNow
  | probeNow
  | pollOnce
  | pollMany (maxMessages : ℕ)
  | environment (inbox : List Arrival) (transport : T → T) (readings : ℕ)

/-- The states in which `poll_many` enters `poll_once`. -/
def pollManyEntries (deps : External T) (os : Os) : ℕ → Runtime T → List (Runtime T)
  | 0, _ => []
  | rounds + 1, s =>
    let (ok, s') := pollOnce deps os s
    s :: if ok then pollManyEntries deps os rounds s' else []

/-- The states in which an operation enters `poll_once`. -/
def Op.entries (deps : External T) (os : Os) : Op → Runtime T → List (Runtime T)
  | pollOnce, s => [s]
  | pollMany maxMessages, s => pollManyEntries deps os maxMessages s
  | _, _ => []

/-- What every `poll_once` keeps, along with the list of its entries, is kept by a
whole `poll_many`. -/
theorem pollManyEntries_induction {P : List (Runtime T) → Runtime T → Prop}
    (hpoll : ∀ l s, P l s → P (l ++ [s]) (pollOnce deps os s).2) (maxMessages : ℕ)
    {l : List (Runtime T)} (h : P l s) :
    P (l ++ pollManyEntries deps os maxMessages s) (pollMany deps os maxMessages s).2 := by
  suffices ∀ processed l s, P l s →
      P (l ++ pollManyEntries deps os maxMessages s)
        (pollManyLoop deps os maxMessages processed s).2 from this 0 l s h
  induction maxMessages with
  | zero => exact fun _ l s h ↦ by simpa [pollManyEntries, pollManyLoop] using h
  | succ rounds ih =>
      intro processed l s h
      have hnext := hpoll l s h
      cases hok : (pollOnce deps os s).1 with
      | false =>
          rw [pollManyLoop_of_false hok]
          simpa [pollManyEntries, hok] using hnext
      | true =>
          rw [pollManyLoop_of_true hok]
          simpa [pollManyEntries, hok] using ih (processed + 1) _ _ hnext

namespace Event

def apply (deps : External T) (os : Os) : Event T → Runtime T → Runtime T
  | announceNow, s => (DiscoveryEngine.announceNow deps os s).2
  | probeNow, s => (DiscoveryEngine.probeNow deps os s).2
  | pollOnce, s => (DiscoveryEngine.pollOnce deps os s).2
  | pollMany maxMessages, s => (DiscoveryEngine.pollMany deps os maxMessages s).2
  | environment inbox transport readings, s =>
    DiscoveryEngine.environment inbox transport readings s

def entries (deps : External T) (os : Os) : Event T → Runtime T → List (Runtime T)
  | pollOnce, s => [s]
  | pollMany maxMessages, s => pollManyEntries deps os maxMessages s
  | _, _ => []

end Event

def after (deps : External T) (os : Os) : List (Event T) → Runtime T → Runtime T
  | [], s => s
  | e :: events, s => after deps os events (e.apply deps os s)

/-- The states in which a run enters `poll_once`. -/
def polls (deps : External T) (os : Os) : List (Event T) → Runtime T → List (Runtime T)
  | [], _ => []
  | e :: events, s => e.entries deps os s ++ polls deps os events (e.apply deps os s)

/-- A move that keeps the registry and whatever makes the engine run. -/
structure Idle (s s' : Runtime T) : Prop extends Kept s s' where
  registry : s'.engine.registry = s.engine.registry

theorem Idle.refl (s : Runtime T) : Idle s s := ⟨.refl s, rfl⟩

theorem Idle.trans (h : Idle s s') (h' : Idle s' s'') : Idle s s'' :=
  ⟨h.toKept.trans h'.toKept, h'.registry.trans h.registry⟩

theorem Quiet.idle (h : Quiet s s') : Idle s s' := ⟨h.kept, h.registry⟩

theorem environment_idle (inbox : List Arrival) (transport : T → T) (readings : ℕ)
    (s : Runtime T) : Idle s (environment inbox transport readings s) :=
  ⟨environment_kept inbox transport readings s, rfl⟩

abbrev PollTrace (deps : External T) (os : Os) : Runtime T → List (Runtime T) → Runtime T → Prop :=
  Trace Idle fun s ↦ (pollOnce deps os s).2

variable {l : List (Runtime T)}

theorem PollTrace.poll (h : PollTrace deps os s l t) :
    PollTrace deps os s (l ++ [t]) (pollOnce deps os t).2 :=
  .step h (.refl _)

theorem PollTrace.pollMany (h : PollTrace deps os s l t) (maxMessages : ℕ) :
    PollTrace deps os s (l ++ pollManyEntries deps os maxMessages t)
      (pollMany deps os maxMessages t).2 :=
  pollManyEntries_induction (fun _ _ ↦ PollTrace.poll) maxMessages h

theorem PollTrace.move (h : PollTrace deps os s l t) (hi : Idle t s') : PollTrace deps os s l s' :=
  Trace.move (fun _ _ _ ↦ Idle.trans) h hi

theorem PollTrace.event (h : PollTrace deps os s l t) (e : Event T) :
    PollTrace deps os s (l ++ e.entries deps os t) (e.apply deps os t) := by
  cases e with
  | announceNow =>
      have hmove := PollTrace.move h (announceNow_quiet deps os t).idle
      simpa [Event.entries, Event.apply] using hmove
  | probeNow =>
      have hmove := PollTrace.move h (probeNow_quiet deps os t).idle
      simpa [Event.entries, Event.apply] using hmove
  | pollOnce => exact h.poll
  | pollMany maxMessages => exact h.pollMany maxMessages
  | environment inbox transport readings =>
      have hmove := PollTrace.move h (environment_idle inbox transport readings t)
      simpa [Event.entries, Event.apply] using hmove

variable (deps os) in
theorem Event.trace (e : Event T) (s : Runtime T) :
    PollTrace deps os s (e.entries deps os s) (e.apply deps os s) := by
  have htrace : PollTrace deps os s [] s := .idle (.refl s)
  exact htrace.event e

variable (deps os) in
theorem pollTrace_polls (events : List (Event T)) (s : Runtime T) :
    PollTrace deps os s (polls deps os events s) (after deps os events s) := by
  suffices ∀ l t, PollTrace deps os s l t →
      PollTrace deps os s (l ++ polls deps os events t) (after deps os events t) by
    simpa using this [] s (.idle (.refl s))
  induction events with
  | nil => exact fun l t h ↦ by simpa [polls, after] using h
  | cons e events ih =>
      intro l t h
      have hrest := ih _ _ (h.event e)
      rwa [List.append_assoc] at hrest

/-! ## What holds along a trace -/

theorem PollTrace.kept (h : PollTrace deps os s l t) (hs : Sound s) : Sound t ∧ Kept s t := by
  refine Trace.invariant (P := fun t ↦ Sound t ∧ Kept s t) h ⟨hs, .refl s⟩ ?_ ?_
  · intro a b ha hidle
    exact ⟨ha.1.of_kept hidle.toKept fun _ ↦ hidle.registry, ha.2.trans hidle.toKept⟩
  · intro a ha
    exact ⟨ha.1.pollOnce, ha.2.trans ha.1.pollOnce_kept⟩

theorem PollTrace.live (h : PollTrace deps os s l t) (hs : Live s c) : Live t c :=
  Trace.invariant (P := fun t ↦ Live t c) h hs (fun _ _ ha hidle ↦ ha.of_kept hidle.toKept)
    fun _ ha ↦ ha.of_kept (pollOnce_spec _ _ ha).kept

theorem Registered.of_idle (h : Registered os c s) (hi : Idle s s') : Registered os c s' := by
  obtain ⟨hkeys, hothers, hvalid, hseen⟩ := h
  rw [← hi.registry] at hkeys hothers hvalid hseen
  refine ⟨hkeys, hothers, hvalid, fun n p hp ↦ ?_⟩
  obtain ⟨k, hk, hclock⟩ := hseen n p hp
  exact ⟨k, hk.trans_le hi.ticks, hclock⟩

theorem PollTrace.registered (h : PollTrace deps os s l t) (hs : Live s c)
    (hr : Registered os c s) : Registered os c t := by
  refine (Trace.invariant (P := fun t ↦ Live t c ∧ Registered os c t) h ⟨hs, hr⟩
    (fun _ _ ha hidle ↦ ⟨ha.1.of_kept hidle.toKept, ha.2.of_idle hidle⟩) fun _ ha ↦ ?_).2
  exact ⟨ha.1.of_kept (pollOnce_spec _ _ ha.1).kept, ha.2.of_heard (pollOnce_heard ha.1)⟩

/-- On a monotone clock a later poll refreshes at a later time. -/
theorem refreshTime_mono (hmono : os.ClockMonotone) (h : Live s c)
    (hi : Idle (pollOnce deps os s).2 t) :
    (refreshTime deps os s).millis.toInt ≤ (refreshTime deps os t).millis.toInt := by
  have hticks := timeDriven_ticks deps os h.config
  have hpoll := (pollOnce_spec deps os h).refreshed
  have hidle := hi.ticks
  have hquiet := (maybeAnnounce_quiet deps os t).ticks
  exact hmono _ _ (by omega)

end DiscoveryEngine

end Discovery
