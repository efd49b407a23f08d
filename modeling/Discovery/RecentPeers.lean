import Discovery.Expiry
import Discovery.Service

/-!
# The public peers are the recently heard nodes

The history of a run says which announcement of a node was accepted last, and
when.  The registry remembers just that, and a node is alive after a poll exactly
when it was heard in this poll or less than half the TTL before its refresh.
-/

namespace Discovery

open Lib

namespace DiscoveryEngine

variable {T : Type} {deps : External T} {os : Os} {s t : Runtime T} {c : DiscoveryConfig}
  {n : Bytes} {l : List (Runtime T)} {a : DiscoveryAnnouncement} {time : Timestamp}

/-! ## The history of a node -/

/-- The announcement of `n` that the poll entered in `s` accepts, with the last
reading of the clock in this poll. -/
def accepted (deps : External T) (os : Os) (c : DiscoveryConfig) (n : Bytes) (s : Runtime T) :
    Option (DiscoveryAnnouncement × Timestamp) :=
  match nextReaction deps c s with
  | .accept a =>
    if a.nodeId = n then some (a, os.clock ((pollOnce deps os s).2.world.ticks - 1)) else none
  | _ => none

/-- The announcement of `n` accepted last in the polls of a run. -/
def lastAccepted (deps : External T) (os : Os) (c : DiscoveryConfig) (n : Bytes)
    (polls : List (Runtime T)) : Option (DiscoveryAnnouncement × Timestamp) :=
  polls.foldl (fun last s ↦ (accepted deps os c n s).or last) none

theorem lastAccepted_concat (l : List (Runtime T)) (t : Runtime T) :
    lastAccepted deps os c n (l ++ [t]) =
      (accepted deps os c n t).or (lastAccepted deps os c n l) := by
  simp [lastAccepted, List.foldl_append]

theorem accepted_eq_none (h : ¬ Accepts deps c n s) : accepted deps os c n s = none := by
  unfold accepted
  split
  next a hr => exact if_neg fun hn ↦ h ⟨a, hr, hn⟩
  next => rfl

variable (os) in
theorem Accepts.exists_accepted (h : Accepts deps c n s) :
    ∃ a time, accepted deps os c n s = some (a, time) := by
  obtain ⟨a, hr, hn⟩ := h
  exact ⟨a, _, by rw [accepted, hr]; exact if_pos hn⟩

theorem get_of_accepted (h : Live s c) (ha : accepted deps os c n s = some (a, time)) :
    (pollOnce deps os s).2.engine.registry.get n =
      some ((refreshedRegistry deps os c s).refreshed a time) := by
  have hspec := pollOnce_spec deps os h
  unfold accepted at ha
  split at ha
  next a' hr =>
    split_ifs at ha with hn
    obtain ⟨rfl, htime⟩ := Prod.mk.inj (Option.some.inj ha)
    subst hn
    obtain ⟨i, -, hi, hget⟩ := DiscoveryRegistry.get_upsertAnnouncement_self os.clock
      (isValid_of_nextReaction hr) (r := refreshedRegistry deps os c s)
      ((timeDriven deps os s).world.ticks + 2)
    rw [hspec.upserted a' hr, hi, Nat.add_sub_cancel] at htime
    rw [hspec.registry, hr, ← htime]
    exact hget
  next => cases ha

/-! ## The registry as a chronicle -/

/-- After the polls `l`, the registry of `s` knows of `n` what was accepted last. -/
structure Chronicle (deps : External T) (os : Os) (c : DiscoveryConfig) (l : List (Runtime T))
    (s : Runtime T) (n : Bytes) : Prop where
  unheard : lastAccepted deps os c n l = none → s.engine.registry.get n = none
  heard : ∀ a time, lastAccepted deps os c n l = some (a, time) →
    ∃ p, s.engine.registry.get n = some p ∧ p.announcement = a ∧ p.lastSeenAt = time ∧
      (p.state = .alive ∨ p.state = .stale ∨ p.state = .expired) ∧
        ∀ l' t, l = l' ++ [t] → (p.state = .alive ↔ Accepts deps c n t ∨
          (refreshTime deps os t).millis.toInt - time.millis.toInt < c.peerTtl.millis.toInt / 2)

theorem refreshedState_eq_alive_iff {ttl silence : ℤ} (httl : 0 < ttl)
    (state : DiscoveryPeerState) :
    refreshedState ttl silence state = .alive ↔ state = .alive ∧ silence < ttl / 2 := by
  unfold refreshedState
  split_ifs with h₁ h₂
  · simp only [false_iff, not_and]
    omega
  · simp only [false_iff, not_and]
    omega
  · exact ⟨fun h ↦ ⟨h, by omega⟩, fun h ↦ h.1⟩

theorem refreshedState_known {ttl silence : ℤ} {state : DiscoveryPeerState}
    (h : state = .alive ∨ state = .stale ∨ state = .expired) :
    refreshedState ttl silence state = .alive ∨ refreshedState ttl silence state = .stale ∨
      refreshedState ttl silence state = .expired := by
  unfold refreshedState
  split_ifs <;> simp [h]

theorem Chronicle.poll {s₀ : Runtime T} (hclock : os.ClockPositive) (hmono : os.ClockMonotone)
    (htrace : PollTrace deps os s₀ l t) (hs₀ : Live s₀ c) (hreg₀ : Registered os c s₀)
    (h : Chronicle deps os c l t n) : Chronicle deps os c (l ++ [t]) (pollOnce deps os t).2 n := by
  have hlive := htrace.live hs₀
  have hreg := htrace.registered hs₀ hreg₀
  by_cases hacc : Accepts deps c n t
  · obtain ⟨a, time, ha⟩ := hacc.exists_accepted os
    have hlast : lastAccepted deps os c n (l ++ [t]) = some (a, time) := by
      rw [lastAccepted_concat, ha]
      rfl
    refine ⟨by simp [hlast], fun a' time' hsome ↦ ?_⟩
    obtain ⟨rfl, rfl⟩ := Prod.mk.inj (Option.some.inj (hlast.symm.trans hsome))
    refine ⟨_, get_of_accepted hlive ha, rfl, rfl, .inl rfl, fun l' t' hl ↦ ?_⟩
    obtain ⟨-, rfl⟩ := List.append_singleton_inj.mp hl
    exact ⟨fun _ ↦ .inl hacc, fun _ ↦ rfl⟩
  · have hlast : lastAccepted deps os c n (l ++ [t]) = lastAccepted deps os c n l := by
      rw [lastAccepted_concat, accepted_eq_none hacc]
      rfl
    constructor
    · intro hnone
      exact unheard_none hlive hacc (h.unheard (hlast.symm.trans hnone))
    · intro a time hsome
      rw [hlast] at hsome
      obtain ⟨p, hp, ha, hseen, hknown, hfresh⟩ := h.heard a time hsome
      obtain ⟨p', hp', ha', hseen', hstate⟩ := unheard_entry deps hclock hlive hreg hacc hp
      refine ⟨p', hp', ha'.trans ha, hseen'.trans hseen, ?_, fun l' t' hl ↦ ?_⟩
      · rw [hstate]
        exact refreshedState_known hknown
      obtain ⟨-, rfl⟩ := List.append_singleton_inj.mp hl
      rw [hstate, refreshedState_eq_alive_iff hlive.valid.peerTtl, silence, hseen]
      refine ⟨fun h ↦ .inr h.2, fun h ↦ ⟨?_, h.resolve_left hacc⟩⟩
      -- the poll before this one refreshed earlier, so it found the node as fresh
      have hless := h.resolve_left hacc
      obtain ⟨l₀, u, rfl⟩ : ∃ l₀ u, l = l₀ ++ [u] := by
        rcases List.eq_nil_or_concat l with rfl | ⟨l₀, u, hl⟩
        · cases hsome
        · exact ⟨l₀, u, by rw [hl, List.concat_eq_append]⟩
      obtain ⟨hbefore, hidle⟩ := Trace.of_concat htrace
      have hearlier := refreshTime_mono hmono (PollTrace.live hbefore hs₀) hidle
      exact (hfresh l₀ u rfl).mpr (.inr (by omega))

theorem chronicle_of_trace {s₀ : Runtime T} (hclock : os.ClockPositive)
    (hmono : os.ClockMonotone) (htrace : PollTrace deps os s₀ l s) (hs₀ : Live s₀ c)
    (hempty : s₀.engine.registry = {}) (n : Bytes) : Chronicle deps os c l s n := by
  have hreg₀ : Registered os c s₀ := by
    constructor <;> simp [hempty, DiscoveryRegistry.KeysMatch]
  induction htrace with
  | idle hidle =>
      refine ⟨fun _ ↦ by simp [hidle.registry, hempty], fun a time h ↦ ?_⟩
      cases h
  | step ht hidle ih =>
      obtain ⟨hunheard, hheard⟩ := Chronicle.poll hclock hmono ht hs₀ hreg₀ ih
      rw [← hidle.registry] at hunheard hheard
      exact ⟨hunheard, hheard⟩

theorem lastAccepted_spec (h : lastAccepted deps os c n l = some (a, time)) :
    a.isValid = true ∧ a.nodeId = n ∧ ∃ k, time = os.clock k := by
  induction l using List.reverseRecOn with
  | nil => cases h
  | append_singleton l t ih =>
      rw [lastAccepted_concat] at h
      cases hacc : accepted deps os c n t with
      | none =>
          rw [hacc] at h
          exact ih h
      | some x =>
          rw [hacc] at h
          obtain rfl : x = (a, time) := Option.some.inj h
          unfold accepted at hacc
          split at hacc
          next a' hr =>
            split_ifs at hacc with hn
            obtain ⟨rfl, htime⟩ := Prod.mk.inj (Option.some.inj hacc)
            exact ⟨isValid_of_nextReaction hr, hn, _, htime.symm⟩
          next => cases hacc

end DiscoveryEngine

namespace DiscoveryService

open DiscoveryEngine

variable {T : Type} {deps : External T} {os : Os} {sv : DiscoveryService T}

/-! ## The public view -/

theorem peers_eq (order : PeerOrder) (sv : DiscoveryService T) :
    (sv.peers os order).1 =
      ((sv.runtime.engine.registry.availablePeers order).map publicPeer).filter Peer.isValid := by
  simp [peers, publicPeers_eq]

theorem mem_peers_iff (order : PeerOrder) (P : Peer) :
    P ∈ (sv.peers os order).1 ↔ P.isValid = true ∧
      ∃ n p, sv.runtime.engine.registry.get n = some p ∧ p.available = true ∧ publicPeer p = P := by
  simp only [peers_eq, List.mem_filter, List.mem_map, DiscoveryRegistry.mem_availablePeers]
  constructor
  · rintro ⟨⟨p, ⟨hp, n, hn⟩, rfl⟩, hP⟩
    exact ⟨hP, n, p, hn, hp, rfl⟩
  · rintro ⟨hP, n, p, hn, hp, rfl⟩
    exact ⟨⟨p, ⟨hp, n, hn⟩, rfl⟩, hP⟩

theorem nodup_peers (order : PeerOrder) (h : sv.runtime.engine.registry.KeysMatch) :
    ((sv.peers os order).1.map Peer.nodeId).Nodup := by
  have hids : ((sv.runtime.engine.registry.availablePeers order).map publicPeer).map Peer.nodeId =
      (sv.runtime.engine.registry.availablePeers order).map DiscoveredPeer.nodeId := by
    rw [List.map_map]
    rfl
  rw [peers_eq]
  refine List.Nodup.sublist (List.filter_sublist.map _) ?_
  rw [hids]
  exact DiscoveryRegistry.nodup_availablePeers h order

theorem available_eq_true_iff {p : DiscoveredPeer}
    (h : p.state = .alive ∨ p.state = .stale ∨ p.state = .expired) :
    p.available = true ↔ p.state = .alive := by
  rcases h with h | h | h <;> simp [DiscoveredPeer.available, DiscoveryPeerState.isAvailable, h]

theorem publicPeer_isValid {p : DiscoveredPeer} (ha : p.announcement.isValid = true)
    (hseen : p.lastSeenAt.isValid = true) : (publicPeer p).isValid = true := by
  obtain ⟨hid, hhost, hport, -⟩ := (DiscoveryAnnouncement.isValid_iff _).mp ha
  have hpos := hseen
  simp only [Peer.isValid, publicPeer, Bool.and_eq_true, Bool.not_eq_true', bne_iff_ne,
    List.isEmpty_eq_false_iff]
  exact ⟨⟨⟨hid, hhost⟩, hport⟩, hpos⟩

/-- The peers of an engine are published as valid ones. -/
theorem publicPeer_isValid_of_mem {s : Runtime T} {c : DiscoveryConfig} {order : PeerOrder}
    (hclock : os.ClockPositive) (hreg : Registered os c s) :
    ∀ p ∈ s.engine.registry.availablePeers order, (publicPeer p).isValid = true := by
  intro p hp
  obtain ⟨-, n, hn⟩ := (DiscoveryRegistry.mem_availablePeers order p).mp hp
  obtain ⟨k, -, hseen⟩ := hreg.seen n p hn
  exact publicPeer_isValid (hreg.valid n p hn) (by rw [hseen]; exact hclock k)

theorem mem_peers_of_chronicle {c : DiscoveryConfig} {l : List (Runtime T)} {t : Runtime T}
    (hclock : os.ClockPositive) (hkeys : sv.runtime.engine.registry.KeysMatch)
    (h : ∀ n, Chronicle deps os c (l ++ [t]) sv.runtime n) (order : PeerOrder) (n : Bytes) :
    (n ∈ (sv.peers os order).1.map Peer.nodeId ↔ Accepts deps c n t ∨
      ∃ a time, lastAccepted deps os c n (l ++ [t]) = some (a, time) ∧
        (refreshTime deps os t).millis.toInt - time.millis.toInt < c.peerTtl.millis.toInt / 2) ∧
    ∀ P ∈ (sv.peers os order).1, P.nodeId = n →
      ∃ a time, lastAccepted deps os c n (l ++ [t]) = some (a, time) ∧
        P.host = a.host ∧ P.port = a.port ∧ P.lastSeenAt = time := by
  have hlisted : ∀ P ∈ (sv.peers os order).1, P.nodeId = n →
      ∃ p a time, sv.runtime.engine.registry.get n = some p ∧ p.available = true ∧
        publicPeer p = P ∧ lastAccepted deps os c n (l ++ [t]) = some (a, time) := by
    intro P hP hn
    obtain ⟨-, n', p, hp, havailable, rfl⟩ := (mem_peers_iff order P).mp hP
    obtain rfl : n' = n := (hkeys n' p hp).symm.trans hn
    cases hlast : lastAccepted deps os c n' (l ++ [t]) with
    | none => rw [(h n').unheard hlast] at hp; cases hp
    | some x => exact ⟨p, x.1, x.2, hp, havailable, rfl, rfl⟩
  refine ⟨⟨fun hn ↦ ?_, fun hrecent ↦ ?_⟩, fun P hP hn ↦ ?_⟩
  · obtain ⟨P, hP, rfl⟩ := List.mem_map.mp hn
    obtain ⟨p, a, time, hp, havailable, -, hlast⟩ := hlisted P hP rfl
    obtain ⟨q, hq, -, -, hknown, hfresh⟩ := (h P.nodeId).heard a time hlast
    obtain rfl : p = q := Option.some.inj (hp.symm.trans hq)
    rcases (hfresh l t rfl).mp ((available_eq_true_iff hknown).mp havailable) with hacc | hless
    · exact .inl hacc
    · exact .inr ⟨a, time, hlast, hless⟩
  · obtain ⟨a, time, hlast, hcond⟩ : ∃ a time,
        lastAccepted deps os c n (l ++ [t]) = some (a, time) ∧ (Accepts deps c n t ∨
          (refreshTime deps os t).millis.toInt - time.millis.toInt <
            c.peerTtl.millis.toInt / 2) := by
      rcases hrecent with hacc | ⟨a, time, hlast, hless⟩
      · obtain ⟨a, time, ha⟩ := hacc.exists_accepted os
        exact ⟨a, time, by rw [lastAccepted_concat, ha]; rfl, .inl hacc⟩
      · exact ⟨a, time, hlast, .inr hless⟩
    obtain ⟨p, hp, ha, hseen, hknown, hfresh⟩ := (h n).heard a time hlast
    obtain ⟨hvalid, hid, k, htime⟩ := lastAccepted_spec hlast
    have hpublic : (publicPeer p).isValid = true :=
      publicPeer_isValid (by rw [ha, hvalid]) (by rw [hseen, htime]; exact hclock k)
    have havailable := (available_eq_true_iff hknown).mpr ((hfresh l t rfl).mpr hcond)
    refine List.mem_map.mpr ⟨publicPeer p, (mem_peers_iff order _).mpr
      ⟨hpublic, n, p, hp, havailable, rfl⟩, ?_⟩
    exact (congrArg DiscoveryAnnouncement.nodeId ha).trans hid
  · obtain ⟨p, a, time, hp, -, rfl, hlast⟩ := hlisted P hP hn
    obtain ⟨q, hq, ha, hseen, -⟩ := (h n).heard a time hlast
    obtain rfl : p = q := Option.some.inj (hp.symm.trans hq)
    exact ⟨a, time, hlast, congrArg DiscoveryAnnouncement.host ha,
      congrArg DiscoveryAnnouncement.port ha, hseen⟩

/-- After every poll, `peers` lists exactly the nodes whose last accepted
announcement since the start was processed in this poll or less than half the
TTL before its refresh, each once and with the address of that announcement. -/
theorem peers_recently_heard (hclock : os.ClockPositive) (hmono : os.ClockMonotone)
    (hs : Reachable deps os sv) (hstopped : sv.isRunning = false)
    (hstart : (sv.start os).1 = true) (events : List (Event T)) (order order' : PeerOrder) :
    let before := after deps os events (sv.start os).2
    let history := polls deps os events (sv.start os).2 ++ [before.runtime]
    let now := (refreshTime deps os before.runtime).millis.toInt
    let ps := ((before.poll deps os order).2.peers os order').1
    (ps.map Peer.nodeId).Nodup ∧
      ∀ n, (n ∈ ps.map Peer.nodeId ↔ Accepts deps before.config n before.runtime ∨
          ∃ a time, lastAccepted deps os before.config n history = some (a, time) ∧
            now - time.millis.toInt < before.config.peerTtl.millis.toInt / 2) ∧
        ∀ P ∈ ps, P.nodeId = n →
          ∃ a time, lastAccepted deps os before.config n history = some (a, time) ∧
            P.host = a.host ∧ P.port = a.port ∧ P.lastSeenAt = time := by
  have hstarted := started_of_start hs hstopped hstart
  obtain ⟨k, hk⟩ := notifyNewPeers_runtime os order
    { after deps os events (sv.start os).2 with
      runtime := (pollOnce deps os (after deps os events (sv.start os).2).runtime).2 }
  have hidle : Idle (pollOnce deps os (after deps os events (sv.start os).2).runtime).2
      ((after deps os events (sv.start os).2).poll deps os order).2.runtime := by
    have h := elapse_idle k (pollOnce deps os (after deps os events (sv.start os).2).runtime).2
    rw [← hk] at h
    exact h
  have htrace := Trace.step (pollTrace_polls deps os events (sv.start os).2) hidle
  have hconfig := after_config deps os events (sv.start os).2
  have hlive := hstarted.live
  have hreg : Registered os (sv.start os).2.config (sv.start os).2.runtime :=
    hstarted.reachable.runtime.registered hstarted.reachable.config
  have hkeys := (PollTrace.registered htrace hlive hreg).keys
  have hchronicle := chronicle_of_trace hclock hmono htrace hlive hstarted.registry
  dsimp only
  rw [hconfig]
  exact ⟨nodup_peers order' hkeys, mem_peers_of_chronicle hclock hkeys hchronicle order'⟩

section Nodes

open Simulation

def stoppedService : DiscoveryService (List PeerInfo) :=
  create (.localDev (ascii "node-b") 9400 9401) [] {}

theorem peers_recently_heard_announced :
    ascii "node-a" ∈ ((((after listing (system (ticking 1000))
      [.environment [announced "node-a" 9500 9400] id 0]
      (stoppedService.start (system (ticking 1000))).2).poll listing (system (ticking 1000))
        .inOrder).2.peers (system (ticking 1000)) .reversed).1.map Peer.nodeId) :=
  ((peers_recently_heard (clockPositive_ticking (by decide)) (clockMonotone_ticking 1000)
    (.create _ _ _) (by decide) (by decide) _ _ _).2 _).1.mpr
      (.inl ⟨localAnnouncement (Simulation.config "node-a" 9500) ⟨5⟩, by decide, rfl⟩)

end Nodes

end DiscoveryService

end Discovery
