import Mathlib.Data.List.DropRight
import Discovery.RecentPeers

/-!
# The registry as a function of the history

Since its start the engine holds exactly the nodes it accepted an announcement
of.  The entry of a node is the last one of these, and its state is counted off
from the later refreshes: alive or stale until the TTL has passed, and from then
on expired and stale in turn.
-/

namespace Discovery

open Lib

namespace DiscoveryEngine

variable {T : Type} {deps : External T} {os : Os} {s t : Runtime T} {c : DiscoveryConfig}
  {n : Bytes} {l : List (Runtime T)}

/-! ## The state of a silent peer -/

def age (seen now : Timestamp) : ℤ := now.millis.toInt - seen.millis.toInt

/-- The state of a peer that was heard at `seen`, after refreshes at `times`. -/
def timeline (ttl : ℤ) (seen : Timestamp) (times : List Timestamp) : DiscoveryPeerState :=
  let overdue := times.countP fun now ↦ ttl ≤ age seen now
  if overdue = 0 then
    if times.any fun now ↦ ttl / 2 ≤ age seen now then .stale else .alive
  else if overdue % 2 = 1 then .expired else .stale

section Timeline

variable {ttl : ℤ} {seen now : Timestamp} {times : List Timestamp}

theorem timeline_of_overdue (h : times.countP (fun now ↦ ttl ≤ age seen now) ≠ 0) :
    timeline ttl seen times =
      if times.countP (fun now ↦ ttl ≤ age seen now) % 2 = 1 then .expired else .stale := by
  simp only [timeline, h, if_false]

theorem timeline_of_recent (h : ∀ t ∈ times, age seen t < ttl) :
    timeline ttl seen times =
      if times.any (fun now ↦ ttl / 2 ≤ age seen now) then .stale else .alive := by
  have hnone : times.countP (fun now ↦ ttl ≤ age seen now) = 0 := by
    rw [List.countP_eq_zero]
    intro t ht
    have hlt := h t ht
    simp only [decide_eq_true_eq]
    omega
  simp only [timeline, hnone, if_true]

/-- A refresh that is not earlier than those before it moves the state on as the
registry does. -/
theorem timeline_concat (httl : 0 < ttl) (hlater : ∀ t ∈ times, age seen t ≤ age seen now) :
    timeline ttl seen (times ++ [now]) =
      refreshedState ttl (age seen now) (timeline ttl seen times) := by
  by_cases hover : ttl ≤ age seen now
  · have hcount : (times ++ [now]).countP (fun now ↦ ttl ≤ age seen now) =
        times.countP (fun now ↦ ttl ≤ age seen now) + 1 := by
      rw [List.countP_append, List.countP_singleton, if_pos (by simpa using hover)]
    have hhalf : ttl / 2 ≤ age seen now := by omega
    rw [timeline_of_overdue (by omega), hcount, refreshedState]
    simp only [hover, hhalf, true_and, if_true]
    by_cases hnone : times.countP (fun now ↦ ttl ≤ age seen now) = 0
    · have hstate : timeline ttl seen times ≠ .expired := by
        simp only [timeline, hnone, if_true]
        split_ifs <;> simp
      simp [hnone, hstate]
    · rw [timeline_of_overdue hnone]
      rcases Nat.mod_two_eq_zero_or_one (times.countP fun now ↦ ttl ≤ age seen now) with h | h
      · simp [h, Nat.succ_mod_two_eq_one_iff.mpr h]
      · simp [h, Nat.succ_mod_two_eq_zero_iff.mpr h]
  · have hrecent : ∀ t ∈ times, age seen t < ttl := fun t ht ↦ by
      have hle := hlater t ht
      omega
    rw [timeline_of_recent hrecent, timeline_of_recent fun t ht ↦ ?_, refreshedState]
    · have hnot : ¬ (ttl ≤ age seen now ∧
          (if times.any (fun now ↦ ttl / 2 ≤ age seen now) then DiscoveryPeerState.stale
            else .alive) ≠ .expired) := fun h ↦ hover h.1
      rw [if_neg hnot, List.any_append]
      by_cases hhalf : ttl / 2 ≤ age seen now <;> simp [hhalf]
    · rcases List.mem_append.mp ht with ht | ht
      · exact hrecent t ht
      · rw [List.mem_singleton.mp ht]
        omega

end Timeline

/-! ## The history of an entry -/

/-- The refreshes since an announcement of `n` was accepted. -/
def silentRefreshes (deps : External T) (os : Os) (c : DiscoveryConfig) (n : Bytes)
    (polls : List (Runtime T)) : List Timestamp :=
  (polls.rtakeWhile fun t ↦ (accepted deps os c n t).isNone).map (refreshTime deps os)

/-- What the history says about `n`: its last announcement, when that was
accepted, and how the refreshes since leave it. -/
def recalled (deps : External T) (os : Os) (c : DiscoveryConfig) (n : Bytes)
    (polls : List (Runtime T)) : Option DiscoveredPeer :=
  (lastAccepted deps os c n polls).map fun (announcement, seen) ↦
    { announcement
      state := timeline c.peerTtl.millis.toInt seen (silentRefreshes deps os c n polls)
      lastSeenAt := seen }

theorem recalled_of_accepted {a : DiscoveryAnnouncement} {time : Timestamp}
    (h : accepted deps os c n t = some (a, time)) :
    recalled deps os c n (l ++ [t]) =
      some { announcement := a, state := .alive, lastSeenAt := time } := by
  have hsilent : silentRefreshes deps os c n (l ++ [t]) = [] := by
    rw [silentRefreshes, List.rtakeWhile_concat_neg _ _ _ (by simp [h]), List.map_nil]
  rw [recalled, lastAccepted_concat, h, hsilent]
  rfl

theorem recalled_of_unheard (h : accepted deps os c n t = none) :
    recalled deps os c n (l ++ [t]) =
      (lastAccepted deps os c n l).map fun (announcement, seen) ↦
        { announcement
          state := timeline c.peerTtl.millis.toInt seen
            (silentRefreshes deps os c n l ++ [refreshTime deps os t])
          lastSeenAt := seen } := by
  have hsilent : silentRefreshes deps os c n (l ++ [t]) =
      silentRefreshes deps os c n l ++ [refreshTime deps os t] := by
    rw [silentRefreshes, List.rtakeWhile_concat_pos _ _ _ (by simp [h]), List.map_append]
    rfl
  rw [recalled, lastAccepted_concat, h, hsilent]
  rfl

/-- Every poll refreshed before the last reading of the clock. -/
def RefreshedBefore (deps : External T) (os : Os) (l : List (Runtime T)) (s : Runtime T) : Prop :=
  ∀ u ∈ l, (maybeAnnounce deps os u).world.ticks < s.world.ticks

theorem refreshedBefore_of_trace {s₀ : Runtime T} (htrace : PollTrace deps os s₀ l s)
    (hs₀ : Live s₀ c) : RefreshedBefore deps os l s := by
  induction htrace with
  | idle hidle => simp [RefreshedBefore]
  | @step l t s ht hidle ih =>
      have hlive := PollTrace.live ht hs₀
      have hticks := timeDriven_ticks deps os hlive.config
      have hpoll := (pollOnce_spec deps os hlive).refreshed
      have hmove := hidle.ticks
      have hbefore := (maybeAnnounce_quiet deps os t).ticks
      intro u hu
      rcases List.mem_append.mp hu with hu | hu
      · have hearlier := ih u hu
        omega
      · rw [List.mem_singleton.mp hu]
        omega

theorem refreshPeer_eq (now : Timestamp) (staleAfter expireAfter : Duration)
    (p : DiscoveredPeer) :
    (DiscoveryRegistry.refreshPeer now staleAfter expireAfter p).1 =
      { p with
        state := (DiscoveryRegistry.refreshPeer now staleAfter expireAfter p).1.state } := by
  unfold DiscoveryRegistry.refreshPeer
  dsimp only
  split_ifs <;> rfl

theorem available_refreshedState {ttl silence : ℤ} {state : DiscoveryPeerState} (httl : 0 < ttl) :
    (refreshedState ttl silence state).isAvailable = true ↔
      state.isAvailable = true ∧ silence < ttl / 2 := by
  unfold refreshedState
  split_ifs with h₁ h₂
  · have hnot : ¬ silence < ttl / 2 := by omega
    simp [DiscoveryPeerState.isAvailable, hnot]
  · have hnot : ¬ silence < ttl / 2 := by omega
    simp [DiscoveryPeerState.isAvailable, hnot]
  · have hless : silence < ttl / 2 := by omega
    simp [hless]

variable (deps) in
theorem get_of_unheard (hclock : os.ClockPositive) (h : Live s c) (hr : Registered os c s)
    (hn : ¬ Accepts deps c n s) {p : DiscoveredPeer} (hp : s.engine.registry.get n = some p) :
    (pollOnce deps os s).2.engine.registry.get n =
      some { p with
        state := refreshedState c.peerTtl.millis.toInt (silence deps os s p) p.state } := by
  obtain ⟨p', hp', -, -, hstate⟩ := unheard_entry deps hclock h hr hn hp
  have hnow : (refreshTime deps os s).isValid = true := hclock _
  have hget : (pollOnce deps os s).2.engine.registry.get n = _ :=
    get_pollOnce_of_not_accepts h hn
  rw [refreshedRegistry, DiscoveryRegistry.get_refreshStates, if_pos hnow, hp, Option.map_some,
    refreshPeer_eq] at hget
  obtain rfl := Option.some.inj (hp'.symm.trans hget)
  rw [hget, ← hstate]

/-- On a monotone clock no refresh is earlier than those before it. -/
theorem age_of_silentRefreshes {s₀ : Runtime T} (hmono : os.ClockMonotone)
    (htrace : PollTrace deps os s₀ l t) (hs₀ : Live s₀ c) (seen : Timestamp) :
    ∀ now ∈ silentRefreshes deps os c n l, age seen now ≤ age seen (refreshTime deps os t) := by
  intro now hnow
  obtain ⟨u, hu, rfl⟩ := List.mem_map.mp hnow
  have hbefore := refreshedBefore_of_trace htrace hs₀ u ((List.rtakeWhile_suffix _ _).subset hu)
  have hticks := (maybeAnnounce_quiet deps os t).ticks
  have hle := hmono (maybeAnnounce deps os u).world.ticks (maybeAnnounce deps os t).world.ticks
    (by omega)
  exact Int.sub_le_sub_right hle _

theorem recalled_errorCount {p : DiscoveredPeer} (h : recalled deps os c n l = some p) :
    p.errorCount = 0 := by
  obtain ⟨x, -, rfl⟩ := Option.map_eq_some_iff.mp h
  rfl

/-- The registry after a trace, entry by entry. -/
theorem get_eq_recalled {s₀ : Runtime T} (hclock : os.ClockPositive) (hmono : os.ClockMonotone)
    (htrace : PollTrace deps os s₀ l s) (hs₀ : Live s₀ c)
    (hempty : s₀.engine.registry = {}) (n : Bytes) :
    s.engine.registry.get n = recalled deps os c n l := by
  have hreg₀ : Registered os c s₀ := by
    constructor <;> simp [hempty, DiscoveryRegistry.KeysMatch]
  induction htrace with
  | idle hidle =>
      rw [hidle.registry, hempty]
      rfl
  | @step l t s ht hidle ih =>
      have hlive := PollTrace.live ht hs₀
      have hreg := PollTrace.registered ht hs₀ hreg₀
      rw [hidle.registry]
      cases hacc : accepted deps os c n t with
      | some x =>
          obtain ⟨a, time⟩ := x
          have hlast : lastAccepted deps os c n (l ++ [t]) = some (a, time) := by
            rw [lastAccepted_concat, hacc]
            rfl
          obtain ⟨-, hid, -⟩ := lastAccepted_spec hlast
          -- nothing the engine does counts errors, so the count taken over is zero
          have hcount : (((refreshedRegistry deps os c t).get a.nodeId).map
              DiscoveredPeer.errorCount).getD 0 = 0 := by
            have hnow : (refreshTime deps os t).isValid = true := hclock _
            rw [refreshedRegistry, DiscoveryRegistry.get_refreshStates, if_pos hnow, hid, ih]
            cases hrec : recalled deps os c n l with
            | none => rfl
            | some p =>
                rw [Option.map_some, Option.map_some, Option.getD_some, refreshPeer_eq]
                change p.errorCount = 0
                exact recalled_errorCount hrec
          rw [recalled_of_accepted hacc, get_of_accepted hlive hacc, DiscoveryRegistry.refreshed,
            hcount]
      | none =>
          have hnot : ¬ Accepts deps c n t := fun h ↦ by
            obtain ⟨a, time, ha⟩ := h.exists_accepted os
            rw [hacc] at ha
            cases ha
          rw [recalled_of_unheard hacc]
          cases hlast : lastAccepted deps os c n l with
          | none =>
              rw [recalled, hlast, Option.map_none] at ih
              exact unheard_none hlive hnot ih
          | some x =>
              obtain ⟨a, seen⟩ := x
              have htimeline := timeline_concat hlive.valid.peerTtl
                (age_of_silentRefreshes (n := n) hmono ht hs₀ seen)
              rw [recalled, hlast, Option.map_some] at ih
              rw [get_of_unheard deps hclock hlive hreg hnot ih, Option.map_some]
              dsimp only
              rw [htimeline]
              rfl

/-- In every run since a start, the registry of an engine is what its history
recalls: a node is known exactly if an announcement of it was accepted, under the
last of these, and its state is counted off from the refreshes since. -/
theorem registry_of_history (hclock : os.ClockPositive) (hmono : os.ClockMonotone)
    (hs : Reachable deps os s) (hstopped : isRunning s = false) (hstart : (start os s).1 = true)
    (hc : s.context.config = some c) (events : List (Event T)) (n : Bytes) :
    let s₀ := (start os s).2
    (after deps os events s₀).engine.registry.get n =
      recalled deps os c n (polls deps os events s₀) := by
  have hreach : Reachable deps os (start os s).2 := .exec .start hs
  have hrunning := hs.sound.isRunning_of_start hstart
  have hlive := hreach.live hrunning (by rw [start_context, hc])
  have hempty : (start os s).2.engine.registry = {} := by
    rw [start_registry, hs.sound.registry_of_not_running hstopped]
  exact get_eq_recalled hclock hmono (pollTrace_polls deps os events _) hlive hempty n

/-! ## Freshly heard nodes -/

/-- The node is alive and was heard since the reading `start` of the clock. -/
def Fresh (os : Os) (start : ℕ) (n : Bytes) (s : Runtime T) : Prop :=
  ∃ p, s.engine.registry.get n = some p ∧ p.state = .alive ∧
    ∃ k, start ≤ k ∧ p.lastSeenAt = os.clock k

variable (os) in
theorem Accepts.fresh {start : ℕ} (h : Live s c) (hstart : start ≤ s.world.ticks)
    (ha : Accepts deps c n s) : Fresh os start n (pollOnce deps os s).2 := by
  obtain ⟨a, hr, rfl⟩ := ha
  have hspec := pollOnce_spec deps os h
  obtain ⟨i, hi, -, hget⟩ := DiscoveryRegistry.get_upsertAnnouncement_self os.clock
    (isValid_of_nextReaction hr) (r := refreshedRegistry deps os c s)
    ((timeDriven deps os s).world.ticks + 2)
  have hticks := (timeDriven_steady deps os s).ticks
  refine ⟨(refreshedRegistry deps os c s).refreshed a (os.clock i), ?_, rfl, i, by omega, rfl⟩
  rw [hspec.registry, hr]
  exact hget

/-- A fresh node stays fresh as long as half the TTL has not passed. -/
theorem Fresh.pollOnce {start : ℕ} (hclock : os.ClockPositive) (hmono : os.ClockMonotone)
    (h : Live s c) (hr : Registered os c s) (hstart : start ≤ s.world.ticks)
    (hquick : (os.clock (pollOnce deps os s).2.world.ticks).millis.toInt -
      (os.clock start).millis.toInt < c.peerTtl.millis.toInt / 2)
    (hfresh : Fresh os start n s) : Fresh os start n (pollOnce deps os s).2 := by
  by_cases hacc : Accepts deps c n s
  · exact hacc.fresh os h hstart
  · obtain ⟨p, hp, hstate, k, hk, hseen⟩ := hfresh
    refine ⟨_, get_of_unheard deps hclock h hr hacc hp, ?_, k, hk, hseen⟩
    have hticks := timeDriven_ticks deps os h.config
    have hspec := (pollOnce_spec deps os h).refreshed
    have hrefresh := hmono (maybeAnnounce deps os s).world.ticks
      (DiscoveryEngine.pollOnce deps os s).2.world.ticks (by omega)
    have hheard := hmono start k hk
    rw [hstate]
    refine (refreshedState_eq_alive_iff h.valid.peerTtl .alive).mpr ⟨rfl, ?_⟩
    rw [silence, refreshTime, hseen]
    omega

section Nodes

open Simulation

/-- An announcement arrives, and is followed by silence. -/
def heardOnce (count : ℕ) : List (Event (List PeerInfo)) :=
  .environment [announced "node-a" 9500 9400] id 0 :: List.replicate count .pollOnce

def heardHistory (count : ℕ) : Option DiscoveredPeer :=
  recalled listing (system (ticking 1000)) (Simulation.config "node-b" 9400) (ascii "node-a")
    (polls listing (system (ticking 1000)) (heardOnce count)
      (started (system (ticking 1000)) "node-b" 9400))

/-- The silent node is expired after the fourth poll and stale again after the
fifth. -/
theorem registry_of_history_silent :
    (after listing (system (ticking 1000)) (heardOnce 5)
      (started (system (ticking 1000)) "node-b" 9400)).engine.registry.get (ascii "node-a") =
        heardHistory 5 ∧
      (heardHistory 4).map DiscoveredPeer.state = some .expired ∧
      (heardHistory 5).map DiscoveredPeer.state = some .stale := by
  refine ⟨?_, by decide +kernel, by decide +kernel⟩
  exact registry_of_history (clockPositive_ticking (by decide)) (clockMonotone_ticking 1000)
    (reachable_node _ _ _) (by decide) (by decide) rfl (heardOnce 5) (ascii "node-a")

end Nodes

end DiscoveryEngine

end Discovery
