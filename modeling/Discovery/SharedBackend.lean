import Discovery.ServiceLifecycle

/-!
# An engine over a backend it does not own

The owner of the backend may start and stop it directly, and the engine keeps a
status of its own.  Both the fast path of a start and the destructor look at
this status alone: a start may succeed over a stopped backend, and an engine
moved from stops the backend of its successor.
-/

namespace Discovery

namespace DiscoveryEngine

variable {T : Type} {deps : External T} {os : Os} {s : Runtime T}

/-! ## Runs with the owner of the backend -/

/-- A call on the engine, a call of the owner on the backend, or a change outside. -/
inductive Turn (T : Type) where
  | engine (op : Op)
  | backendStart
  | backendStop
  | environment (inbox : List Arrival) (transport : T → T) (readings : ℕ)

def Turn.apply (deps : External T) (os : Os) : Turn T → Runtime T → Runtime T
  | engine op, s => exec deps os op s
  | backendStart, s =>
    let (_, backend, world) := s.backend.start os s.world
    { s with backend, world }
  | backendStop, s => { s with backend := s.backend.stop }
  | environment inbox transport readings, s =>
    DiscoveryEngine.environment inbox transport readings s

def afterTurns (deps : External T) (os : Os) : List (Turn T) → Runtime T → Runtime T
  | [], s => s
  | t :: turns, s => afterTurns deps os turns (t.apply deps os s)

/-- Every start of the run that returns true leaves the engine running. -/
def StartsTruthful (deps : External T) (os : Os) (turns : List (Turn T)) (s : Runtime T) : Prop :=
  ∀ earlier later, turns = earlier ++ .engine .start :: later →
    (start os (afterTurns deps os earlier s)).1 = true →
      isRunning (start os (afterTurns deps os earlier s)).2 = true

/-- Every start of the run that finds the status running finds the backend running. -/
def StartsInStep (deps : External T) (os : Os) (turns : List (Turn T)) (s : Runtime T) : Prop :=
  ∀ earlier later, turns = earlier ++ .engine .start :: later →
    (afterTurns deps os earlier s).engine.status.isRunning = true →
      (afterTurns deps os earlier s).backend.running = true

/-! ## One start -/

theorem backendStart_running {b : UdpDiscoveryBackend} {w : World}
    (h : (b.start os w).1 = true) : (b.start os w).2.1.running = true := by
  unfold UdpDiscoveryBackend.start at h ⊢
  dsimp only at h ⊢
  split_ifs at h ⊢ with hrunning
  · exact hrunning
  · rfl

variable (os) in
/-- A start tells the truth if it does not take the fast path over a stopped backend. -/
theorem truthful_iff (s : Runtime T) :
    ((start os s).1 = true → isRunning (start os s).2 = true) ↔
      (s.engine.status.isRunning = true → s.backend.running = true) := by
  rcases start_cases os s with ⟨hstatus, heq⟩ | ⟨hstatus, hslow⟩
  · rw [heq]
    simp [isRunning, hstatus]
  · have hvacuous : s.engine.status.isRunning = true → s.backend.running = true := by simp [hstatus]
    refine iff_of_true (fun hok ↦ ?_) hvacuous
    rcases hslow with ⟨-, heq⟩ | ⟨-, -, heq⟩ | ⟨-, hstarted, heq⟩
    · rw [heq] at hok
      cases hok
    · rw [heq] at hok
      cases hok
    · rw [heq]
      exact Bool.and_eq_true_iff.mpr ⟨rfl, backendStart_running hstarted⟩

variable (deps os) in
/-- The starts of a run keep their promise if and only if none of them finds the
engine's status running over a backend that its owner has stopped. -/
theorem starts_truthful_iff_in_step (turns : List (Turn T)) (s : Runtime T) :
    StartsTruthful deps os turns s ↔ StartsInStep deps os turns s := by
  constructor
  · intro h earlier later hturns
    exact (truthful_iff os _).mp (h earlier later hturns)
  · intro h earlier later hturns
    exact (truthful_iff os _).mpr (h earlier later hturns)

open Simulation in
/-- The owner stops the backend of a running engine, whose next start succeeds. -/
theorem starts_untruthful_after_owner_stop :
    ¬ StartsTruthful listing (system (ticking 1000))
      [.engine .start, .backendStop, .engine .start] (node "node-b" 9400) := by
  intro h
  have hrunning := h [.engine .start, .backendStop] [] rfl (by decide)
  have hstopped : isRunning (start (system (ticking 1000)) (afterTurns listing
      (system (ticking 1000)) [.engine .start, .backendStop] (node "node-b" 9400))).2 = false := by
    decide
  rw [hstopped] at hrunning
  cases hrunning

/-! ## A restrained owner -/

/-- The owner stops the backend only while the engine's status is not running. -/
def Restrained (deps : External T) (os : Os) : List (Turn T) → Runtime T → Prop
  | [], _ => True
  | t :: turns, s =>
    (t = .backendStop → s.engine.status.isRunning = false) ∧
      Restrained deps os turns (t.apply deps os s)

theorem Sound.turn (h : Sound s) (t : Turn T)
    (hrestrained : t = .backendStop → s.engine.status.isRunning = false) :
    Sound (t.apply deps os s) := by
  cases t with
  | engine op => exact h.exec op
  | environment inbox transport readings => exact h.environment inbox transport readings
  | backendStop =>
      have hidle : ¬ s.engine.status.isRunning = true := by simp [hrestrained rfl]
      exact ⟨nofun, nofun, fun hr ↦ absurd hr hidle, h.context, h.idle⟩
  | backendStart =>
      obtain ⟨-, hstarted, hrun⟩ := backendStart_spec os s.world h.socket h.config
      refine ⟨fun hr ↦ (hrun hr).1, fun hr ↦ (hrun hr).2, fun hr ↦ ?_, h.context, h.idle⟩
      -- the backend of a running engine runs already
      have hbackend := h.coupled hr
      exact hstarted (by simp [UdpDiscoveryBackend.start, hbackend])

theorem Restrained.sound {earlier later : List (Turn T)} (h : Sound s)
    (hrestrained : Restrained deps os (earlier ++ later) s) :
    Sound (afterTurns deps os earlier s) := by
  induction earlier generalizing s with
  | nil => exact h
  | cons t earlier ih => exact ih (h.turn t hrestrained.1) hrestrained.2

/-- A restrained owner never makes a start lie. -/
theorem startsTruthful_of_restrained {turns : List (Turn T)} (h : Sound s)
    (hrestrained : Restrained deps os turns s) : StartsTruthful deps os turns s := by
  intro earlier later hturns
  rw [hturns] at hrestrained
  exact (truthful_iff os _).mpr (hrestrained.sound h).coupled

/-! ## Moving an engine -/

/-- The engine that the defaulted move constructor makes, and what it leaves of
its source.  The status and the time are copied, as are the references; the map
of the registry is moved, and `leftover` is what that leaves. -/
def moveConstruct (leftover : DiscoveryRegistry) (e : DiscoveryEngine) :
    DiscoveryEngine × DiscoveryEngine :=
  ({ registry := e.registry, status := e.status, lastAnnounceAt := e.lastAnnounceAt },
    { registry := leftover, status := e.status, lastAnnounceAt := e.lastAnnounceAt })

/-- The destructor. -/
def destroy (s : Runtime T) : Runtime T := stop s

/-- The runtime of the new engine once the one it was moved from is destroyed.
Both refer to the same objects. -/
def moveAndDestroy (leftover : DiscoveryRegistry) (s : Runtime T) : Runtime T :=
  let (moved, source) := moveConstruct leftover s.engine
  { destroy { s with engine := source } with engine := moved }

/-- The new engine has taken over: its data are those of the old one, and the
backend has not changed between running and stopped. -/
structure TakenOver (s s' : Runtime T) : Prop where
  status : s'.engine.status = s.engine.status
  registry : s'.engine.registry = s.engine.registry
  lastAnnounceAt : s'.engine.lastAnnounceAt = s.engine.lastAnnounceAt
  backend : s'.backend.running = s.backend.running
  isRunning : isRunning s' = isRunning s

theorem moveAndDestroy_of_stopped (leftover : DiscoveryRegistry)
    (h : s.engine.status = .stopped) : moveAndDestroy leftover s = s := by
  simp [moveAndDestroy, moveConstruct, destroy, stop, h]

theorem moveAndDestroy_of_ne_stopped (leftover : DiscoveryRegistry)
    (h : s.engine.status ≠ .stopped) :
    moveAndDestroy leftover s = { s with backend := s.backend.stop } := by
  simp [moveAndDestroy, moveConstruct, destroy, stop, h]

theorem takenOver_iff (leftover : DiscoveryRegistry) (s : Runtime T) :
    TakenOver s (moveAndDestroy leftover s) ↔
      s.engine.status = .stopped ∨ s.backend.running = false := by
  by_cases hstatus : s.engine.status = .stopped
  · rw [moveAndDestroy_of_stopped leftover hstatus]
    exact iff_of_true ⟨rfl, rfl, rfl, rfl, rfl⟩ (.inl hstatus)
  · rw [moveAndDestroy_of_ne_stopped leftover hstatus, or_iff_right hstatus]
    constructor
    · intro h
      exact h.backend.symm
    · intro hdown
      refine ⟨rfl, rfl, rfl, hdown.symm, ?_⟩
      simp [isRunning, UdpDiscoveryBackend.stop, hdown]

theorem Coherent.stopped_or_down_iff (h : Coherent s) :
    s.engine.status = .stopped ∨ s.backend.running = false ↔ s.engine.status ≠ .running := by
  constructor
  · rintro (hstopped | hdown) hrunning
    · rw [hstopped] at hrunning
      cases hrunning
    · rw [h.running.mp hrunning] at hdown
      cases hdown
  · intro hidle
    exact .inr (h.down hidle)

variable (deps os) in
/-- The destructor of the source leaves the backend as it is if and only if the
status that it keeps is stopped, or there is nothing to stop.  While nobody else
drives the backend, that is while the engine is not running. -/
theorem move_takes_over_iff (leftover : DiscoveryRegistry) (s : Runtime T) :
    (TakenOver s (moveAndDestroy leftover s) ↔
      s.engine.status = .stopped ∨ s.backend.running = false) ∧
    (Reachable deps os s →
      (TakenOver s (moveAndDestroy leftover s) ↔ s.engine.status ≠ .running)) := by
  have hiff := takenOver_iff leftover s
  exact ⟨hiff, fun hs ↦ hiff.trans hs.coherent.stopped_or_down_iff⟩

open Simulation in
theorem move_takes_over_idle :
    TakenOver (node "node-b" 9400) (moveAndDestroy {} (node "node-b" 9400)) :=
  ((move_takes_over_iff listing (system (ticking 1000)) {} (node "node-b" 9400)).2
    (reachable_node _ _ _)).mpr (by decide)

open Simulation in
theorem move_stops_backend_of_successor :
    Reachable listing (system (ticking 1000)) (started (system (ticking 1000)) "node-b" 9400) ∧
      ¬ TakenOver (started (system (ticking 1000)) "node-b" 9400)
        (moveAndDestroy {} (started (system (ticking 1000)) "node-b" 9400)) := by
  refine ⟨reachable_started _ _ _, fun h ↦ ?_⟩
  have hbefore : (started (system (ticking 1000)) "node-b" 9400).backend.running = true := by
    decide
  have hafter : (moveAndDestroy {}
      (started (system (ticking 1000)) "node-b" 9400)).backend.running = false := by
    decide
  have hkept := h.backend
  rw [hbefore, hafter] at hkept
  cases hkept

end DiscoveryEngine

end Discovery
