import Discovery.Registration
import Discovery.Simulation

/-!
# The registry of an engine

Whatever arrives from the network, an engine keeps valid entries of other nodes,
seen at some reading of the clock, which are alive, stale or expired.  It asks
the transport engine for valid peers only, each missing at that moment.
-/

namespace Discovery

open Lib

/-! ## States that an engine assigns -/

namespace DiscoveryRegistry

variable {r : DiscoveryRegistry}

/-- No peer is in a state before its first refresh or announcement. -/
def Settled (r : DiscoveryRegistry) : Prop :=
  r.peers.All fun _ p ↦ p.state = .alive ∨ p.state = .stale ∨ p.state = .expired

theorem settled_empty : Settled {} := KeyedMap.All.empty

theorem Settled.refreshStates (h : r.Settled) (now : Timestamp)
    (staleAfter expireAfter : Duration) :
    (r.refreshStates now staleAfter expireAfter).2.Settled := by
  unfold DiscoveryRegistry.refreshStates
  split_ifs
  · exact h
  · apply KeyedMap.All.mapEntries h
    intro n p hp
    unfold refreshPeer
    dsimp only
    split_ifs
    · exact hp
    · exact .inr (.inr rfl)
    · exact .inr (.inl rfl)
    · exact hp

theorem Settled.upsertAnnouncement (h : r.Settled) (clock : ℕ → Timestamp)
    {a : DiscoveryAnnouncement} (ha : a.isValid = true) (ticks : ℕ) :
    (r.upsertAnnouncement clock a ticks).1.Settled := by
  intro n p hp
  by_cases hn : n = a.nodeId
  · obtain ⟨i, -, -, hself⟩ := get_upsertAnnouncement_self (r := r) clock ha ticks
    have hp' : (r.upsertAnnouncement clock a ticks).1.get n = some p := hp
    rw [hn, hself, Option.some.injEq] at hp'
    subst hp'
    exact .inl rfl
  · have hp' : (r.upsertAnnouncement clock a ticks).1.get n = some p := hp
    rw [get_upsertAnnouncement_ne clock hn] at hp'
    exact h n p hp'

end DiscoveryRegistry

namespace DiscoveryEngine

variable {T : Type} {deps : External T} {os : Os} {s s' : Runtime T} {c : DiscoveryConfig}

/-! ## The invariant -/

/-- A call of `connect_peer` for a valid peer other than the local node, which
the transport engine did not contain. -/
structure Requested (deps : External T) (c : DiscoveryConfig) (call : T × PeerInfo) : Prop where
  valid : deps.peerInfoIsValid call.2 = true
  nodeId : call.2.nodeId ≠ []
  host : call.2.host ≠ []
  port : call.2.port ≠ 0
  other : call.2.nodeId ≠ c.nodeId
  missing : deps.transportContains call.1 call.2.nodeId = false

structure Invariant (deps : External T) (c : DiscoveryConfig) (s : Runtime T) : Prop where
  settled : s.engine.registry.Settled
  requested : ∀ call ∈ s.connects, Requested deps c call

theorem Invariant.of_eq (h : Invariant deps c s)
    (hregistry : s'.engine.registry = s.engine.registry) (hconnects : s'.connects = s.connects) :
    Invariant deps c s' :=
  ⟨by rw [hregistry]; exact h.settled, by rw [hconnects]; exact h.requested⟩

theorem nodeId_ne_of_nextReaction {a : DiscoveryAnnouncement}
    (hr : nextReaction deps c s = .accept a) : a.nodeId ≠ c.nodeId := by
  obtain ⟨arrival, -, hreact⟩ := react_of_nextReaction hr (by simp)
  exact nodeId_ne_of_react hreact

theorem Invariant.integrate {a : DiscoveryAnnouncement} (h : Invariant deps c s)
    (hvalid : a.isValid = true) (hother : a.nodeId ≠ c.nodeId) :
    Invariant deps c (integrateWithTransport deps a s) := by
  obtain ⟨hid, hhost, hport, -⟩ := (DiscoveryAnnouncement.isValid_iff a).mp hvalid
  rcases integrateWithTransport_cases deps a s with heq | ⟨t, -, -, hinfo, hnew, heq⟩
  · rw [heq]
    exact h
  · rw [heq]
    refine ⟨h.settled, fun call hcall ↦ ?_⟩
    rcases List.mem_append.mp hcall with hold | hlast
    · exact h.requested call hold
    · rw [List.mem_singleton.mp hlast]
      exact ⟨hinfo, hid, hhost, hport, hother, hnew⟩

theorem Invariant.timeDriven (h : Invariant deps c s) (hc : s.context.configChecked = .ok c) :
    Invariant deps c (timeDriven deps os s) := by
  refine ⟨?_, by rw [(timeDriven_steady deps os s).connects]; exact h.requested⟩
  rw [timeDriven_registry deps os hc]
  exact h.settled.refreshStates _ _ _

theorem Invariant.pollOnce (h : Invariant deps c s) (hlive : Live s c) :
    Invariant deps c (pollOnce deps os s).2 := by
  have htimed : Invariant deps c (DiscoveryEngine.timeDriven deps os s) :=
    h.timeDriven hlive.config
  rcases pollOnce_cases deps os hlive with
    ⟨-, k, heq⟩ | ⟨a, hr, heq⟩ | ⟨m, host, port, -, heq⟩
  · rw [heq]
    exact htimed.of_eq rfl rfl
  · have hvalid := isValid_of_nextReaction hr
    rw [heq]
    refine Invariant.integrate ⟨?_, htimed.requested⟩ hvalid (nodeId_ne_of_nextReaction hr)
    exact htimed.settled.upsertAnnouncement _ hvalid _
  · rw [heq]
    exact htimed.of_eq rfl rfl

theorem Invariant.pollOnce_of_sound (h : Invariant deps c s) (hs : Sound s)
    (hc : s.context.config = some c) : Invariant deps c (DiscoveryEngine.pollOnce deps os s).2 := by
  cases hrunning : isRunning s with
  | false => rw [pollOnce_of_not_running hrunning]; exact h
  | true => exact h.pollOnce (hs.live hrunning hc)

theorem Invariant.exec (h : Invariant deps c s) (hs : Sound s) (hc : s.context.config = some c)
    (op : Op) : Invariant deps c (exec deps os op s) := by
  cases op with
  | start => exact h.of_eq (start_registry s) (start_connects s)
  | stop =>
      simp only [DiscoveryEngine.exec, stop]
      split_ifs
      · exact h
      · exact ⟨DiscoveryRegistry.settled_empty, h.requested⟩
  | announceNow =>
      have hquiet := announceNow_quiet deps os s
      exact h.of_eq hquiet.registry hquiet.connects
  | probeNow =>
      have hquiet := probeNow_quiet deps os s
      exact h.of_eq hquiet.registry hquiet.connects
  | pollOnce => exact h.pollOnce_of_sound hs hc
  | pollMany maxMessages =>
      refine (hs.pollMany_induction (P := fun t ↦ Invariant deps c t) ?_ maxMessages h).2.2
      intro t hsound hkept hinv
      exact hinv.pollOnce_of_sound hsound (hkept.config.trans hc)

theorem Reachable.invariant (h : Reachable deps os s) (hc : s.context.config = some c) :
    Invariant deps c s := by
  induction h with
  | create context config world => exact ⟨DiscoveryRegistry.settled_empty, by simp⟩
  | exec op hreach ih =>
      have hconfig := (exec_config deps os hreach.sound op).symm.trans hc
      exact (ih hconfig).exec hreach.sound hconfig op
  | environment inbox transport readings _ ih => exact (ih hc).of_eq rfl rfl

/-- In every reachable state each entry is that of another node under its own
key, valid, seen at a valid time, and alive, stale or expired.  Every call of
`connect_peer` so far named a valid peer that was missing. -/
theorem registry_invariant (hclock : os.ClockPositive) (hs : Reachable deps os s)
    (hc : s.context.config = some c) :
    (∀ n p, s.engine.registry.get n = some p →
      p.announcement.nodeId = n ∧ n ≠ [] ∧ n ≠ c.nodeId ∧ p.announcement.host ≠ [] ∧
        p.announcement.port ≠ 0 ∧ p.announcement.timestamp.isValid = true ∧
        p.lastSeenAt.isValid = true ∧
        (p.state = .alive ∨ p.state = .stale ∨ p.state = .expired)) ∧
    ∀ t info, (t, info) ∈ s.connects →
      deps.peerInfoIsValid info = true ∧ info.nodeId ≠ [] ∧ info.host ≠ [] ∧ info.port ≠ 0 ∧
        info.nodeId ≠ c.nodeId ∧ deps.transportContains t info.nodeId = false := by
  obtain ⟨hsettled, hrequested⟩ := hs.invariant hc
  have hreg := hs.registered hc
  refine ⟨fun n p hp ↦ ?_, fun t info hcall ↦ ?_⟩
  · obtain ⟨hid, hhost, hport, htime⟩ :=
      (DiscoveryAnnouncement.isValid_iff _).mp (hreg.valid n p hp)
    have hkey : p.announcement.nodeId = n := hreg.keys n p hp
    obtain ⟨k, -, hseen⟩ := hreg.seen n p hp
    exact ⟨hkey, hkey ▸ hid, hreg.others n p hp, hhost, hport, htime, hseen ▸ hclock k,
      hsettled n p hp⟩
  · obtain ⟨hvalid, hid, hhost, hport, hother, hmissing⟩ := hrequested _ hcall
    exact ⟨hvalid, hid, hhost, hport, hother, hmissing⟩

open Simulation in
theorem registry_invariant_hello :
    ∃ p, (exec listing (system (ticking 1000)) .pollOnce
        (receiver [announced "node-a" 9500 9400])).engine.registry.get (ascii "node-a") = some p ∧
      p.lastSeenAt.isValid = true := by
  have hsome : ((exec listing (system (ticking 1000)) .pollOnce
      (receiver [announced "node-a" 9500 9400])).engine.registry.get
        (ascii "node-a")).isSome = true := by decide
  have hclock : (system (ticking 1000)).ClockPositive := clockPositive_ticking (by decide)
  have hreach := reachable_receiver [announced "node-a" 9500 9400]
  have hc := exec_config listing (system (ticking 1000)) hreach.sound .pollOnce
  obtain ⟨p, hp⟩ := Option.isSome_iff_exists.mp hsome
  obtain ⟨-, -, -, -, -, -, hseen, -⟩ := (registry_invariant hclock (.exec .pollOnce hreach)
    (c := Simulation.config "node-b" 9400) hc).1 _ p hp
  exact ⟨p, hp, hseen⟩

end DiscoveryEngine

end Discovery
