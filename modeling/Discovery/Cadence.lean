import Discovery.PollRuns
import Discovery.Simulation
import Mathlib.Data.List.Chain

/-!
# The cadence of announcements

The time of the last successful announcement is shared by those that a poll
sends and those that are sent by hand.  A poll announces when the interval has
passed since that time, and unless the send fails none is overdue afterwards.
-/

namespace Discovery

open Lib

namespace DiscoveryEngine

variable {T : Type} {deps : External T} {os : Os} {s t : Runtime T} {c : DiscoveryConfig}

/-! ## Announcements made by a run -/

/-- A successful announcement: the clock reading that triggered it, if a poll
sent it, and the reading made right after the send. -/
structure Announcement where
  trigger : Option Timestamp
  recorded : Timestamp
deriving DecidableEq

def announcedBy (deps : External T) (os : Os) (trigger : Option Timestamp) (s : Runtime T) :
    List Announcement :=
  if (announceNow deps os s).1 then
    [⟨trigger, os.clock ((announceNow deps os s).2.world.ticks - 1)⟩]
  else []

/-- The test of `maybe_announce`. -/
def Due (os : Os) (c : DiscoveryConfig) (s : Runtime T) : Prop :=
  !s.engine.lastAnnounceAt.isValid ∨
    (os.clock s.world.ticks).millis - s.engine.lastAnnounceAt.millis ≥ c.announceInterval.millis

instance (os : Os) (c : DiscoveryConfig) (s : Runtime T) : Decidable (Due os c s) :=
  inferInstanceAs (Decidable (_ ∨ _))

/-- The state in which a poll calls `announce_now`, having read the clock. -/
def triggered (s : Runtime T) : Runtime T := { s with world.ticks := s.world.ticks + 1 }

def announcedByPoll (deps : External T) (os : Os) (c : DiscoveryConfig) (s : Runtime T) :
    List Announcement :=
  if Due os c s then announcedBy deps os (some (os.clock s.world.ticks)) (triggered s) else []

def Event.announcements (deps : External T) (os : Os) (c : DiscoveryConfig) :
    Event T → Runtime T → List Announcement
  | .announceNow, s => announcedBy deps os none s
  | .pollOnce, s => announcedByPoll deps os c s
  | .pollMany maxMessages, s =>
    (pollManyEntries deps os maxMessages s).flatMap (announcedByPoll deps os c)
  | _, _ => []

/-! ## The recorded time -/

theorem maybeAnnounce_due (hc : s.context.configChecked = .ok c) :
    maybeAnnounce deps os s =
      if Due os c s then (announceNow deps os (triggered s)).2 else triggered s :=
  maybeAnnounce_cases hc

variable (deps os) in
theorem announceNow_lastAnnounceAt (s : Runtime T) :
    ((announceNow deps os s).1 = true →
      (announceNow deps os s).2.engine.lastAnnounceAt =
        os.clock ((announceNow deps os s).2.world.ticks - 1) ∧
      s.world.ticks ≤ (announceNow deps os s).2.world.ticks - 1) ∧
    ((announceNow deps os s).1 = false →
      (announceNow deps os s).2.engine.lastAnnounceAt = s.engine.lastAnnounceAt) := by
  cases hrunning : isRunning s with
  | false => simp [announceNow_of_not_running hrunning]
  | true =>
      cases hc : s.context.configChecked with
      | error e => simp [announceNow_of_error hc]
      | ok c =>
          have hsend := clientSend_spec deps.ser os s.backend
            (announceEnvelope deps.ser os c s.world.ticks)
            { s.world with ticks := s.world.ticks + 3 }
          have hticks := (Nat.le_add_right _ 3).trans hsend.ticks
          rw [announceNow_eq hrunning hc]
          dsimp only
          split_ifs with hsent
          · exact ⟨fun _ ↦ ⟨rfl, hticks⟩, fun h ↦ by cases h⟩
          · exact ⟨fun h ↦ (by cases h), fun _ ↦ rfl⟩

theorem refreshPeerStates_lastAnnounceAt (s : Runtime T) :
    (refreshPeerStates os s).engine.lastAnnounceAt = s.engine.lastAnnounceAt := by
  unfold refreshPeerStates World.now
  split <;> rfl

variable (deps os) in
theorem probeNow_lastAnnounceAt (s : Runtime T) :
    (probeNow deps os s).2.engine.lastAnnounceAt = s.engine.lastAnnounceAt := by
  unfold probeNow
  split_ifs
  · rfl
  · split <;> rfl

theorem pollOnce_lastAnnounceAt (h : Live s c) :
    (pollOnce deps os s).2.engine.lastAnnounceAt =
      (maybeAnnounce deps os s).engine.lastAnnounceAt := by
  have htimed : (timeDriven deps os s).engine.lastAnnounceAt =
      (maybeAnnounce deps os s).engine.lastAnnounceAt := refreshPeerStates_lastAnnounceAt _
  rw [← htimed]
  rcases pollOnce_cases deps os h with ⟨-, k, heq⟩ | ⟨a, -, heq⟩ | ⟨m, host, port, -, heq⟩
  · rw [heq]
    rfl
  · rw [heq, (integrateWithTransport_handOff _ _ _).engine]
    rfl
  · rw [heq]

/-! ## One poll -/

/-- With the times recorded by a positive clock the test of the interval is
exact. -/
theorem due_iff (hclock : os.ClockPositive) (hlast : s.engine.lastAnnounceAt.isValid = true) :
    Due os c s ↔ c.announceInterval.millis.toInt ≤
      (os.clock s.world.ticks).millis.toInt - s.engine.lastAnnounceAt.millis.toInt := by
  have hage := toInt_sub_of_pos ((Timestamp.isValid_iff _).mp (hclock s.world.ticks))
    ((Timestamp.isValid_iff _).mp hlast)
  simp only [Due, hlast, Bool.not_true, Bool.false_eq_true, false_or, ge_iff_le,
    Int64.le_iff_toInt_le, hage]

/-- Of two announcements in a row, a poll sends the second one only after the
interval. -/
def Spaced (c : DiscoveryConfig) (last next : Announcement) : Prop :=
  ∀ trigger, next.trigger = some trigger →
    c.announceInterval.millis.toInt ≤ trigger.millis.toInt - last.recorded.millis.toInt

/-- The engine remembers the latest announcement of the history `l`. -/
structure Remembers (os : Os) (c : DiscoveryConfig) (l : List Announcement) (s : Runtime T) :
    Prop where
  last : s.engine.lastAnnounceAt = (l.getLast?.map Announcement.recorded).getD {}
  recorded : ∀ a ∈ l, ∃ k, a.recorded = os.clock k
  spaced : l.IsChain (Spaced c)

variable {l : List Announcement}

theorem Remembers.of_eq (h : Remembers os c l s)
    (hlast : t.engine.lastAnnounceAt = s.engine.lastAnnounceAt) : Remembers os c l t :=
  ⟨hlast.trans h.last, h.recorded, h.spaced⟩

/-- A call of `announce_now` extends the history when it succeeds. -/
theorem Remembers.announce (h : Remembers os c l s) {trigger : Option Timestamp}
    (htrigger : ∀ last ∈ l.getLast?, ∀ now, trigger = some now →
      c.announceInterval.millis.toInt ≤ now.millis.toInt - last.recorded.millis.toInt) :
    Remembers os c (l ++ announcedBy deps os trigger s) (announceNow deps os s).2 := by
  obtain ⟨hsuccess, hfailure⟩ := announceNow_lastAnnounceAt deps os s
  unfold announcedBy
  cases hok : (announceNow deps os s).1 with
  | false => simpa using h.of_eq (hfailure hok)
  | true =>
      obtain ⟨hlast, -⟩ := hsuccess hok
      refine ⟨by simpa using hlast, fun a ha ↦ ?_, ?_⟩
      · rcases List.mem_append.mp ha with hold | hnew
        · exact h.recorded a hold
        · rw [if_pos rfl, List.mem_singleton] at hnew
          exact ⟨_, by rw [hnew]⟩
      · rw [if_pos rfl, List.isChain_append]
        refine ⟨h.spaced, List.isChain_singleton _, fun last hlast' next hnext ↦ ?_⟩
        obtain rfl : Announcement.mk trigger _ = next := by simpa using hnext
        exact htrigger last hlast'

theorem Remembers.lastAnnounceAt_of_mem (h : Remembers os c l s) {a : Announcement}
    (ha : a ∈ l.getLast?) : s.engine.lastAnnounceAt = a.recorded := by
  rw [h.last, Option.mem_def.mp ha]
  rfl

variable (deps) in
theorem Remembers.poll (hclock : os.ClockPositive) (h : Remembers os c l s) (hlive : Live s c) :
    Remembers os c (l ++ announcedByPoll deps os c s) (pollOnce deps os s).2 := by
  suffices Remembers os c (l ++ announcedByPoll deps os c s) (maybeAnnounce deps os s) from
    this.of_eq (pollOnce_lastAnnounceAt hlive)
  have htriggered : Remembers os c l (triggered s) := h.of_eq rfl
  rw [maybeAnnounce_due hlive.config, announcedByPoll]
  by_cases hdue : Due os c s
  · rw [if_pos hdue, if_pos hdue]
    refine htriggered.announce fun last hlast now hnow ↦ ?_
    obtain rfl := Option.some.inj hnow
    -- a recorded time is a reading of the clock, so the test met a valid one
    have hrecorded := h.lastAnnounceAt_of_mem hlast
    obtain ⟨k, hk⟩ := h.recorded last (List.mem_of_getLast? hlast)
    have hvalid : s.engine.lastAnnounceAt.isValid = true := by
      rw [hrecorded, hk]
      exact hclock k
    have hinterval := (due_iff hclock hvalid).mp hdue
    rwa [hrecorded] at hinterval
  · rw [if_neg hdue, if_neg hdue, List.append_nil]
    exact htriggered

theorem Remembers.pollMany (hclock : os.ClockPositive) (h : Remembers os c l s)
    (hlive : Live s c) (maxMessages : ℕ) :
    Remembers os c
      (l ++ (pollManyEntries deps os maxMessages s).flatMap (announcedByPoll deps os c))
      (pollMany deps os maxMessages s).2 := by
  refine (pollManyEntries_induction (P := fun entries t ↦ Live t c ∧
    Remembers os c (l ++ entries.flatMap (announcedByPoll deps os c)) t) ?_ maxMessages
    (l := []) ⟨hlive, by simpa using h⟩).2
  rintro entries t ⟨ht, hentries⟩
  refine ⟨ht.of_kept (pollOnce_spec deps os ht).kept, ?_⟩
  simpa using hentries.poll deps hclock ht

variable (deps) in
theorem Remembers.event (hclock : os.ClockPositive) (h : Remembers os c l s) (hlive : Live s c)
    (e : Event T) : Remembers os c (l ++ e.announcements deps os c s) (e.apply deps os s) := by
  cases e with
  | announceNow => exact h.announce fun _ _ _ hnow ↦ by cases hnow
  | probeNow =>
      simpa [Event.announcements, Event.apply] using
        h.of_eq (probeNow_lastAnnounceAt deps os s)
  | pollOnce => exact h.poll deps hclock hlive
  | pollMany maxMessages => exact h.pollMany hclock hlive maxMessages
  | environment inbox transport readings =>
      simpa [Event.announcements, Event.apply] using
        h.of_eq (t := environment inbox transport readings s) rfl

theorem announcedBy_of_not_running (hrunning : isRunning s = false) (trigger : Option Timestamp) :
    announcedBy deps os trigger s = [] := by
  simp [announcedBy, announceNow_of_not_running hrunning]

theorem announcedByPoll_of_not_running (hrunning : isRunning s = false) :
    announcedByPoll deps os c s = [] := by
  unfold announcedByPoll
  rw [announcedBy_of_not_running (s := triggered s) hrunning, ite_self]

theorem Event.announcements_of_not_running (hrunning : isRunning s = false) (e : Event T) :
    e.announcements deps os c s = [] := by
  cases e with
  | announceNow => exact announcedBy_of_not_running hrunning none
  | probeNow => rfl
  | pollOnce => exact announcedByPoll_of_not_running hrunning
  | pollMany maxMessages =>
      cases maxMessages with
      | zero => rfl
      | succ rounds =>
          simp [Event.announcements, pollManyEntries, pollOnce_of_not_running hrunning,
            announcedByPoll_of_not_running hrunning]
  | environment inbox transport readings => rfl

/-- What a session keeps. -/
structure Cadent (os : Os) (c : DiscoveryConfig) (l : List Announcement) (s : Runtime T) :
    Prop where
  sound : Sound s
  config : s.context.config = some c
  spaced : l.IsChain (Spaced c)
  remembers : isRunning s = true → Remembers os c l s

theorem Cadent.start (h : Cadent os c l s) :
    Cadent os c (if s.engine.status.isRunning then l else []) (DiscoveryEngine.start os s).2 := by
  have hsound : Sound (DiscoveryEngine.start os s).2 := h.sound.start
  have hconfig : (DiscoveryEngine.start os s).2.context.config = some c := by
    rw [start_context, h.config]
  rcases start_cases os s with ⟨hstatus, heq⟩ | ⟨hstatus, hrest⟩
  · rw [if_pos hstatus, heq]
    exact h
  · rw [if_neg (by simp [hstatus])]
    refine ⟨hsound, hconfig, .nil, fun hrunning ↦ ⟨?_, by simp, .nil⟩⟩
    rcases hrest with ⟨-, heq⟩ | ⟨-, -, heq⟩ | ⟨-, -, heq⟩
    · rw [heq] at hrunning
      cases hrunning
    · rw [heq] at hrunning
      cases hrunning
    · rw [heq]
      rfl

theorem Cadent.stop (h : Cadent os c l s) : Cadent os c l (DiscoveryEngine.stop s) where
  sound := h.sound.stop
  config := by rw [stop_context, h.config]
  spaced := h.spaced
  remembers hrunning := by
    rw [isRunning_stop] at hrunning
    cases hrunning

theorem Cadent.event (hclock : os.ClockPositive) (h : Cadent os c l s) (e : Event T) :
    Cadent os c (l ++ e.announcements deps os c s) (e.apply deps os s) := by
  obtain ⟨hsound, hkept⟩ := (e.trace deps os s).kept h.sound
  have hconfig := hkept.config.trans h.config
  cases hrunning : isRunning s with
  | false =>
      rw [e.announcements_of_not_running hrunning, List.append_nil]
      refine ⟨hsound, hconfig, h.spaced, fun hnext ↦ ?_⟩
      rw [hkept.isRunning, hrunning] at hnext
      cases hnext
  | true =>
      have hnext := (h.remembers hrunning).event deps hclock
        (h.sound.live hrunning h.config) e
      exact ⟨hsound, hconfig, hnext.spaced, fun _ ↦ hnext⟩

section Nodes

open Simulation

/-- The engine of `node-b` after a poll, an announcement by hand, a poll that
comes too early, one that announces, and another announcement by hand. -/
def polled : Runtime (List PeerInfo) :=
  after listing (system (ticking 1000))
    [.pollOnce, .announceNow, .pollOnce, .pollOnce, .announceNow]
    (started (system (ticking 1000)) "node-b" 9400)

end Nodes

end DiscoveryEngine

end Discovery
