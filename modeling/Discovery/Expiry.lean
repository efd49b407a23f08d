import Discovery.PollRuns

/-!
# Expired peers

The refresh turns a silent peer to expired, and on the next poll back to stale,
because its second test does not exclude expired peers.  A stale peer is handed
out to the transport.
-/

namespace Discovery

open Lib

namespace DiscoveryEngine

variable {T : Type} {deps : External T} {os : Os} {s t : Runtime T} {c : DiscoveryConfig}
  {n : Bytes} {p : DiscoveredPeer}

/-! ## A poll that does not hear of a node -/

/-- The poll entered in `s` accepts an announcement of `n`. -/
def Accepts (deps : External T) (c : DiscoveryConfig) (n : Bytes) (s : Runtime T) : Prop :=
  ∃ a, nextReaction deps c s = .accept a ∧ a.nodeId = n

theorem get_pollOnce_of_not_accepts (h : Live s c) (hn : ¬ Accepts deps c n s) :
    (pollOnce deps os s).2.engine.registry.get n = (refreshedRegistry deps os c s).get n := by
  rw [(pollOnce_spec _ _ h).registry]
  cases hr : nextReaction deps c s with
  | reject => rfl
  | answer m host port => rfl
  | accept a =>
      have hne : n ≠ a.nodeId := fun heq ↦ hn ⟨a, hr, heq.symm⟩
      exact DiscoveryRegistry.get_upsertAnnouncement_ne _ hne _

def silence (deps : External T) (os : Os) (s : Runtime T) (p : DiscoveredPeer) : ℤ :=
  (refreshTime deps os s).millis.toInt - p.lastSeenAt.millis.toInt

/-- The state that one refresh gives to a peer. -/
def refreshedState (ttl silence : ℤ) (state : DiscoveryPeerState) : DiscoveryPeerState :=
  if ttl ≤ silence ∧ state ≠ .expired then .expired
  else if ttl / 2 ≤ silence then .stale
  else state

theorem lastSeenAt_isValid (hclock : os.ClockPositive) (hr : Registered os c s)
    (hp : s.engine.registry.get n = some p) : p.lastSeenAt.isValid = true := by
  obtain ⟨k, -, hseen⟩ := hr.seen n p hp
  rw [hseen]
  exact hclock k

variable (deps) in
theorem unheard_entry (hclock : os.ClockPositive) (h : Live s c) (hr : Registered os c s)
    (hn : ¬ Accepts deps c n s) (hp : s.engine.registry.get n = some p) :
    ∃ p', (pollOnce deps os s).2.engine.registry.get n = some p' ∧
      p'.announcement = p.announcement ∧ p'.lastSeenAt = p.lastSeenAt ∧
        p'.state = refreshedState c.peerTtl.millis.toInt (silence deps os s p) p.state := by
  have hnow : (refreshTime deps os s).isValid = true := hclock _
  have hseen := lastSeenAt_isValid hclock hr hp
  have hhalf := toInt_half_of_pos h.valid.peerTtl
  rw [get_pollOnce_of_not_accepts h hn, refreshedRegistry, DiscoveryRegistry.get_refreshStates,
    if_pos hnow, hp]
  refine ⟨_, rfl, by simp, by simp, ?_⟩
  rw [DiscoveryRegistry.refreshPeer_state hnow hseen]
  simp only [Duration.fromMillis, hhalf]
  rfl

theorem unheard_none (h : Live s c) (hn : ¬ Accepts deps c n s)
    (hp : s.engine.registry.get n = none) :
    (pollOnce deps os s).2.engine.registry.get n = none := by
  rw [get_pollOnce_of_not_accepts h hn, refreshedRegistry, DiscoveryRegistry.get_refreshStates, hp]
  simp

/-! ## Expiry over a run -/

/-- When the poll entered in `s` refreshes, `n` has been silent for the TTL. -/
def Overdue (deps : External T) (os : Os) (c : DiscoveryConfig) (n : Bytes)
    (s : Runtime T) : Prop :=
  ∃ p, s.engine.registry.get n = some p ∧ c.peerTtl.millis.toInt ≤ silence deps os s p

/-- The node `n` is expired and is not handed out, in whatever order the peers
are listed. -/
structure Withheld (deps : External T) (n : Bytes) (s : Runtime T) : Prop where
  expired : ∃ p, s.engine.registry.get n = some p ∧ p.state = .expired
  peers : ∀ order, ∀ i ∈ availableTransportPeers deps order s, i.nodeId ≠ n

/-- From a poll that finds `n` overdue on, and as long as no announcement of `n`
is accepted, `n` is withheld after every poll. -/
def ExpiredStays (deps : External T) (os : Os) (c : DiscoveryConfig) (n : Bytes)
    (polls : List (Runtime T)) : Prop :=
  ∀ i j (hij : i ≤ j) (hj : j < polls.length), Overdue deps os c n polls[i] →
    (∀ k (_ : i ≤ k) (hkj : k ≤ j), ¬ Accepts deps c n polls[k]) →
      Withheld deps n (pollOnce deps os polls[j]).2

theorem withheld_of_expired (hr : Registered os c s) (hp : s.engine.registry.get n = some p)
    (hstate : p.state = .expired) : Withheld deps n s := by
  refine ⟨⟨p, hp, hstate⟩, fun order i hi hid ↦ ?_⟩
  obtain ⟨-, n', q, hq, hlive, rfl⟩ := (DiscoveryRegistry.mem_transportPeers _ _ _).mp hi
  have hkey := hr.keys n' q hq
  have hsame : n' = n := hkey.symm.trans hid
  subst hsame
  rw [hp, Option.some.injEq] at hq
  subst hq
  simp [DiscoveredPeer.expired, hstate] at hlive

variable (deps) in
theorem state_of_overdue (hclock : os.ClockPositive) (h : Live s c) (hr : Registered os c s)
    (hn : ¬ Accepts deps c n s) (hp : s.engine.registry.get n = some p)
    (hsilent : c.peerTtl.millis.toInt ≤ silence deps os s p) :
    ∃ p', (pollOnce deps os s).2.engine.registry.get n = some p' ∧ p'.lastSeenAt = p.lastSeenAt ∧
      p'.state = if p.state = .expired then .stale else .expired := by
  obtain ⟨p', hp', -, hseen, hstate⟩ := unheard_entry deps hclock h hr hn hp
  have hpos := h.valid.peerTtl
  have hhalf : c.peerTtl.millis.toInt / 2 ≤ silence deps os s p := by omega
  refine ⟨p', hp', hseen, ?_⟩
  rw [hstate, refreshedState]
  by_cases hexp : p.state = .expired <;> simp [hexp, hsilent, hhalf]

theorem Overdue.next {t' : Runtime T} (hclock : os.ClockPositive) (hmono : os.ClockMonotone)
    (h : Live t c) (hr : Registered os c t) (hidle : Idle (pollOnce deps os t).2 t')
    (hn : ¬ Accepts deps c n t) (hover : Overdue deps os c n t) : Overdue deps os c n t' := by
  obtain ⟨p, hp, hsilent⟩ := hover
  obtain ⟨p', hp', hseen, -⟩ := state_of_overdue deps hclock h hr hn hp hsilent
  have htime := refreshTime_mono hmono h hidle
  refine ⟨p', by rw [hidle.registry, hp'], ?_⟩
  unfold silence at hsilent ⊢
  rw [hseen]
  omega

/-- An expired node stays withheld through a run exactly when no poll of the run
that finds it overdue, and does not hear of it, starts with the node already
expired. -/
theorem expiredStays_iff (hclock : os.ClockPositive) (hmono : os.ClockMonotone)
    (hs : Reachable deps os s) (hrunning : isRunning s = true) (hc : s.context.config = some c)
    (events : List (Event T)) (n : Bytes) :
    ExpiredStays deps os c n (polls deps os events s) ↔
      ∀ t ∈ polls deps os events s, Overdue deps os c n t → ¬ Accepts deps c n t →
        ∀ p, t.engine.registry.get n = some p → p.state ≠ .expired := by
  have htrace := pollTrace_polls deps os events s
  have hgood {i : ℕ} (hi : i < (polls deps os events s).length) :
      Live (polls deps os events s)[i] c ∧ Registered os c (polls deps os events s)[i] := by
    have ht : PollTrace deps os s _ _ := Trace.getElem htrace hi
    exact ⟨ht.live (hs.live hrunning hc), ht.registered (hs.live hrunning hc) (hs.registered hc)⟩
  constructor
  · intro hstays t ht hover hnot p hp hexp
    obtain ⟨i, hi, rfl⟩ := List.getElem_of_mem ht
    obtain ⟨hlive, hreg⟩ := hgood hi
    have hwith := hstays i i le_rfl hi hover fun k hik hki ↦ by
      obtain rfl : k = i := le_antisymm hki hik
      exact hnot
    obtain ⟨q, hq, hsilent⟩ := hover
    obtain rfl : q = p := by rw [hp] at hq; exact (Option.some.inj hq).symm
    obtain ⟨p', hp', -, hstate⟩ := state_of_overdue deps hclock hlive hreg hnot hp hsilent
    obtain ⟨p'', hp'', hexp''⟩ := hwith.expired
    obtain rfl : p' = p'' := by rw [hp'] at hp''; exact Option.some.inj hp''
    rw [hexp'', if_pos hexp] at hstate
    cases hstate
  · intro hcond i j hij hj hover hnot
    have hi : i < (polls deps os events s).length := hij.trans_lt hj
    obtain ⟨hlive, hreg⟩ := hgood hi
    have hnoti := hnot i le_rfl hij
    obtain ⟨p, hp, hsilent⟩ := id hover
    obtain ⟨p', hp', -, hstate⟩ := state_of_overdue deps hclock hlive hreg hnoti hp hsilent
    rw [if_neg (hcond _ (List.getElem_mem hi) hover hnoti p hp)] at hstate
    rcases hij.eq_or_lt with rfl | hlt
    · exact withheld_of_expired (hreg.of_heard (pollOnce_heard hlive)) hp' hstate
    · -- the next poll would start with `n` expired, against the condition
      have hi' : i + 1 < (polls deps os events s).length := by omega
      have hidle : Idle _ _ := Trace.adjacent htrace hi'
      have hnext := Overdue.next hclock hmono hlive hreg hidle hnoti hover
      exact absurd hstate (hcond _ (List.getElem_mem hi') hnext (hnot _ (Nat.le_succ i) hlt) p'
        (by rw [hidle.registry, hp']))

section Nodes

open Simulation

def silentRun (count : ℕ) : List (Runtime (List PeerInfo)) :=
  polls listing (system (ticking 1000)) (List.replicate count .pollOnce)
    (receiver [announced "node-a" 9500 9400])

theorem expiredStays_four_polls :
    ExpiredStays listing (system (ticking 1000)) (Simulation.config "node-b" 9400) (ascii "node-a")
      (silentRun 4) := by
  refine (expiredStays_iff (clockPositive_ticking (by decide)) (clockMonotone_ticking _)
    (reachable_receiver _) (by decide) rfl _ _).mpr fun t ht _ _ p hp ↦ ?_
  have hnever : ((silentRun 4).all fun t ↦
      (t.engine.registry.get (ascii "node-a")).all fun p ↦ p.state != .expired) = true := by
    decide
  have hstate := List.all_eq_true.mp hnever t ht
  rw [hp] at hstate
  simpa using hstate

/-- The fifth poll takes the silent node for stale again. -/
theorem expiredStays_fifth_poll :
    Reachable listing (system (ticking 1000)) (receiver [announced "node-a" 9500 9400]) ∧
      isRunning (receiver [announced "node-a" 9500 9400]) = true ∧
      ¬ ExpiredStays listing (system (ticking 1000)) (Simulation.config "node-b" 9400)
        (ascii "node-a") (silentRun 5) := by
  refine ⟨reachable_receiver _, by decide, fun hstays ↦ ?_⟩
  have hlen : (silentRun 5).length = 5 := by decide +kernel
  have hover : Overdue listing (system (ticking 1000)) (Simulation.config "node-b" 9400)
      (ascii "node-a") (silentRun 5)[3] := by
    have hentry : ((silentRun 5)[3]?.bind fun t ↦
        (t.engine.registry.get (ascii "node-a")).map fun p ↦ decide ((Simulation.config "node-b"
          9400).peerTtl.millis.toInt ≤ silence listing (system (ticking 1000)) t p)) =
            some true := by decide +kernel
    rw [List.getElem?_eq_getElem (by omega), Option.bind_some, Option.map_eq_some_iff] at hentry
    obtain ⟨p, hp, hsilence⟩ := hentry
    exact ⟨p, hp, of_decide_eq_true hsilence⟩
  have hsilent (k : ℕ) (hk : 3 ≤ k) (hk' : k ≤ 4) :
      ¬ Accepts listing (Simulation.config "node-b" 9400) (ascii "node-a") (silentRun 5)[k] := by
    have hreject : ((silentRun 5).drop 3).all (fun t ↦
        nextReaction listing (Simulation.config "node-b" 9400) t = .reject) = true := by
      decide +kernel
    have hmem : (silentRun 5)[k] ∈ (silentRun 5).drop 3 :=
      List.mem_drop_iff_getElem.mpr ⟨k - 3, by omega, by congr 1; omega⟩
    rintro ⟨a, ha, -⟩
    have hr := List.all_eq_true.mp hreject _ hmem
    rw [decide_eq_true_eq, ha] at hr
    cases hr
  obtain ⟨p, hp, hexpired⟩ := (hstays 3 4 (by decide) (by omega) hover hsilent).expired
  have hstale : ((silentRun 5)[4]?.bind fun t ↦
      ((pollOnce listing (system (ticking 1000)) t).2.engine.registry.get (ascii "node-a")).map
        DiscoveredPeer.state) = some .stale := by decide +kernel
  rw [List.getElem?_eq_getElem (by omega), Option.bind_some, hp, Option.map_some,
    hexpired] at hstale
  cases hstale

end Nodes

end DiscoveryEngine

end Discovery
