import Discovery.Convergence

/-!
# Partitions are noticed

An engine that receives nothing more of another one drops it from the available
peers within half the TTL, and does not list it again while the partition lasts.
-/

namespace Discovery

open Lib DiscoveryDecoder

namespace DiscoveryEngine

variable {T : Type} {deps : External T} {os : Os} {s s' : Runtime T} {c : DiscoveryConfig}
  {n : Bytes}

/-! ## An engine that does not hear of a node -/

theorem Accepts.awaits (h : Accepts deps c n s) : Awaits deps c n s := by
  obtain ⟨a, hr, hid⟩ := h
  cases hinbox : s.world.inbox with
  | nil => simp [nextReaction, hinbox] at hr
  | cons arrival rest =>
      refine ⟨arrival, by simp [hinbox], a, ?_, hid⟩
      rwa [nextReaction, hinbox] at hr

theorem not_awaits_of_heard (h : Heard deps os c s s') (hn : ¬ Awaits deps c n s) :
    ¬ Awaits deps c n s' := by
  rintro ⟨arrival, hmem, a, hr, hid⟩
  rw [h.config] at hr
  exact hn ⟨arrival, h.inbox hmem, a, hr, hid⟩

/-- No announcement of `n` is pending, and `n` is not available. -/
structure Faded (deps : External T) (c : DiscoveryConfig) (n : Bytes) (s : Runtime T) : Prop where
  unheard : ¬ Awaits deps c n s
  entry : ∀ p, s.engine.registry.get n = some p → p.available = false

variable (os) in
/-- A poll that does not hear of `n` lets it fade if it was silent for half the
TTL, or had faded before. -/
theorem faded_pollOnce (hclock : os.ClockPositive) (hs : Sound s) (hc : s.context.config = some c)
    (hr : Registered os c s) (hn : ¬ Awaits deps c n s)
    (hsilent : ∀ p, s.engine.registry.get n = some p →
      p.available = true → c.peerTtl.millis.toInt / 2 ≤ silence deps os s p) :
    Faded deps c n (pollOnce deps os s).2 := by
  have hheard : Heard deps os c s (pollOnce deps os s).2 := exec_heard deps os hs hc .pollOnce
  refine ⟨not_awaits_of_heard hheard hn, fun p' hp' ↦ ?_⟩
  cases hrunning : isRunning s with
  | false =>
      rw [pollOnce_of_not_running hrunning, hs.registry_of_not_running hrunning] at hp'
      simp at hp'
  | true =>
      have hlive := hs.live hrunning hc
      have hacc : ¬ Accepts deps c n s := fun h ↦ hn h.awaits
      cases hp : s.engine.registry.get n with
      | none =>
          rw [unheard_none hlive hacc hp] at hp'
          cases hp'
      | some p =>
          rw [get_of_unheard deps hclock hlive hr hacc hp, Option.some.injEq] at hp'
          subst hp'
          rw [← Bool.not_eq_true]
          intro havailable
          obtain ⟨hbefore, hless⟩ := (available_refreshedState hlive.valid.peerTtl).mp havailable
          exact absurd hless (not_lt.mpr (hsilent p hp hbefore))

theorem Faded.pollOnce (hclock : os.ClockPositive) (hs : Sound s)
    (hc : s.context.config = some c) (hr : Registered os c s) (h : Faded deps c n s) :
    Faded deps c n (pollOnce deps os s).2 :=
  faded_pollOnce os hclock hs hc hr h.unheard fun p hp havailable ↦ by
    rw [h.entry p hp] at havailable
    cases havailable

theorem Faded.of_registry (hheard : Heard deps os c s s')
    (hregistry : s'.engine.registry = s.engine.registry) (h : Faded deps c n s) :
    Faded deps c n s' :=
  ⟨not_awaits_of_heard hheard h.unheard, fun p hp ↦ h.entry p (by rwa [← hregistry])⟩

theorem Faded.exec (hclock : os.ClockPositive) (hs : Sound s) (hc : s.context.config = some c)
    (hr : Registered os c s) (h : Faded deps c n s) (op : Op) :
    Faded deps c n (exec deps os op s) := by
  have hheard := exec_heard deps os hs hc op
  cases op with
  | start => exact h.of_registry hheard (start_registry s)
  | stop =>
      refine ⟨not_awaits_of_heard hheard h.unheard, fun p hp ↦ ?_⟩
      simp only [DiscoveryEngine.exec, DiscoveryEngine.stop] at hp
      split_ifs at hp
      · exact h.entry p hp
      · simp [DiscoveryRegistry.clear] at hp
  | announceNow => exact h.of_registry hheard (announceNow_quiet deps os s).registry
  | probeNow => exact h.of_registry hheard (probeNow_quiet deps os s).registry
  | pollOnce => exact h.pollOnce hclock hs hc hr
  | pollMany maxMessages =>
      refine (hs.pollMany_induction (P := fun t ↦ Registered os c t ∧ Faded deps c n t) ?_
        maxMessages ⟨hr, h⟩).2.2.2
      rintro t hsound hkept ⟨hreg, ht⟩
      have hct : t.context.config = some c := hkept.config.trans hc
      exact ⟨hreg.of_heard (exec_heard deps os hsound hct .pollOnce),
        ht.pollOnce hclock hsound hct hreg⟩

end DiscoveryEngine

/-! ## A network that is cut -/

namespace Network

open DiscoveryEngine

variable {ι T : Type} {deps : External T} {os : ι → Os} {configs : ι → DiscoveryConfig}
  {N N₁ N₂ N₃ : Network ι T} {i j : ι}

/-- The arrival is a failure or a piece of a datagram that an engine other than
`j` sent. -/
def FromOthers (N : Network ι T) (j : ι) (a : Arrival) : Prop :=
  a = .failure ∨ ∃ k, k ≠ j ∧ ∃ d ∈ (N k).world.outbox, ∃ host port cut,
    a = .datagram host port (d.payload.take cut)

theorem FromOthers.genuine {ser : Serializer} (h : Invariant ser configs N) {a : Arrival}
    (ha : FromOthers N j a) : Genuine ser (fun k : { k // k ≠ j } ↦ configs k) a := by
  rcases ha with rfl | ⟨k, hk, d, hd, host, port, cut, rfl⟩
  · exact .inl rfl
  · obtain ⟨m, hm, hvalid, hpayload⟩ := (h k).outbox d hd
    exact .inr ⟨⟨k, hk⟩, m, host, port, cut, hm, hvalid, by rw [hpayload]⟩

/-- An engine announces nothing in the name of another. -/
theorem not_awaits_of_others (hser : deps.ser.Lawful) (hfit : ∀ k, (configs k).SizesFit)
    (hdistinct : ∀ i j, (configs i).nodeId = (configs j).nodeId → i = j)
    (h : Invariant deps.ser configs N) {c : DiscoveryConfig} {s : Runtime T}
    (hothers : ∀ a ∈ s.world.inbox, FromOthers N j a) : ¬ Awaits deps c (configs j).nodeId s := by
  rintro ⟨arrival, hmem, a, hr, hid⟩
  obtain ⟨⟨k, hk⟩, now, rfl⟩ := announcement_of_genuine hser
    (fun k : { k // k ≠ j } ↦ hfit k) ((hothers arrival hmem).genuine h) hr
  exact hk (hdistinct k j hid)

variable [DecidableEq ι]

/-- A step of a network in which `i` receives nothing that `j` sent. -/
inductive CutStep (deps : External T) (os : ι → Os) (i j : ι) (N : Network ι T) :
    Network ι T → Prop where
  | exec (k : ι) (op : Op) :
      CutStep deps os i j N (Function.update N k (exec deps (os k) op (N k)))
  | deliver (k : ι) (inbox : List Arrival) (transport : T → T) (readings : ℕ)
      (h : ∀ a ∈ inbox, InFlight N a) (hcut : k = i → ∀ a ∈ inbox, FromOthers N j a) :
      CutStep deps os i j N (Function.update N k (environment inbox transport readings (N k)))

theorem CutStep.step (h : CutStep deps os i j N N₁) : Step deps os N N₁ := by
  cases h with
  | exec k op => exact .exec k op
  | deliver k inbox transport readings h hcut => exact .deliver k inbox transport readings h

theorem run_of_cut (h : Relation.ReflTransGen (CutStep deps os i j) N N₁) :
    Relation.ReflTransGen (Step deps os) N N₁ := by
  induction h with
  | refl => exact .refl
  | tail _ hstep ih => exact ih.tail hstep.step

/-- What the operations of `i` keep, and deliveries that do not make it await `j`,
holds of `i` all through a partition. -/
theorem cut_induction {P : Runtime T → Prop} (hser : deps.ser.Lawful)
    (hfit : ∀ k, (configs k).SizesFit)
    (hdistinct : ∀ i j, (configs i).nodeId = (configs j).nodeId → i = j)
    (hinitial : Initial configs N) (hrun : Relation.ReflTransGen (Step deps os) N N₁)
    (hcut : Relation.ReflTransGen (CutStep deps os i j) N₁ N₂)
    (hexec : ∀ s op, Sound s → s.context.config = some (configs i) →
      Registered (os i) (configs i) s → P s → P (exec deps (os i) op s))
    (henvironment : ∀ inbox transport readings s,
      ¬ Awaits deps (configs i) (configs j).nodeId (environment inbox transport readings s) →
        P s → P (environment inbox transport readings s))
    (hP : P (N₁ i)) : P (N₂ i) := by
  induction hcut with
  | refl => exact hP
  | tail hearlier hstep ih =>
      have hrun' := hrun.trans (run_of_cut hearlier)
      have hholds := invariant_of_run hser hfit hinitial hrun'
      have hreg := registered_of_run hser hfit hinitial hrun' i
      cases hstep with
      | exec k op =>
          by_cases hk : i = k
          · subst hk
            rw [Function.update_self]
            exact hexec _ op (hholds i).sound (hholds i).config hreg ih
          · rwa [Function.update_of_ne hk]
      | deliver k inbox transport readings h hothers =>
          by_cases hk : i = k
          · subst hk
            rw [Function.update_self]
            exact henvironment inbox transport readings _
              (not_awaits_of_others hser hfit hdistinct hholds (hothers rfl)) ih
          · rwa [Function.update_of_ne hk]

/-- Nothing of `n` is pending, and all that is known of it dates from before the
reading `start` of the clock. -/
structure Dated (deps : External T) (os : Os) (c : DiscoveryConfig) (n : Bytes) (start : ℕ)
    (s : Runtime T) : Prop where
  unheard : ¬ Awaits deps c n s
  seen : ∀ p, s.engine.registry.get n = some p → ∃ k, k < start ∧ p.lastSeenAt = os.clock k

omit [DecidableEq ι] in
theorem Dated.of_heard {os : Os} {c : DiscoveryConfig} {n : Bytes} {start : ℕ} {s s' : Runtime T}
    (h : Dated deps os c n start s) (hheard : Heard deps os c s s') :
    Dated deps os c n start s' := by
  refine ⟨not_awaits_of_heard hheard h.unheard, fun p' hp' ↦ ?_⟩
  rcases hheard.entry n p' hp' with ⟨p, hp, -, hseen⟩ | ⟨⟨arrival, hmem, hr⟩, hid, -⟩
  · rw [hseen]
    exact h.seen p hp
  · exact absurd ⟨arrival, hmem, p'.announcement, hr, hid⟩ h.unheard

/-- Once half the TTL has passed since the partition began, a poll takes the other
engine off the available peers, for as long as the partition lasts. -/
theorem partition_detected (hser : deps.ser.Lawful) (hfit : ∀ k, (configs k).SizesFit)
    (hdistinct : ∀ i j, (configs i).nodeId = (configs j).nodeId → i = j)
    (hinitial : Initial configs N) (hrun : Relation.ReflTransGen (Step deps os) N N₁)
    (hclock : (os i).ClockPositive) (hmono : (os i).ClockMonotone)
    (hpending : ∀ a ∈ (N₁ i).world.inbox, FromOthers N₁ j a)
    (hcut : Relation.ReflTransGen (CutStep deps os i j) N₁ N₂)
    (hlate : (configs i).peerTtl.millis.toInt / 2 ≤
      ((os i).clock (N₂ i).world.ticks).millis.toInt -
        ((os i).clock (N₁ i).world.ticks).millis.toInt)
    (hcut' : Relation.ReflTransGen (CutStep deps os i j)
      (Function.update N₂ i (exec deps (os i) .pollOnce (N₂ i))) N₃) (order : PeerOrder) :
    (configs j).nodeId ∉
      ((N₃ i).engine.registry.availablePeers order).map DiscoveredPeer.nodeId := by
  have hrun₂ := hrun.trans (run_of_cut hcut)
  have hpolled := hrun₂.tail (.exec i .pollOnce)
  have hholds := invariant_of_run hser hfit hinitial hrun₂
  have hreg := registered_of_run hser hfit hinitial hrun₂ i
  have hdated : Dated deps (os i) (configs i) (configs j).nodeId (N₁ i).world.ticks (N₂ i) := by
    refine cut_induction hser hfit hdistinct hinitial hrun hcut ?_ ?_ ⟨?_, ?_⟩
    · exact fun s op hsound hconfig _ h ↦ h.of_heard (exec_heard deps (os i) hsound hconfig op)
    · exact fun inbox transport readings s hn h ↦ ⟨hn, h.seen⟩
    · exact not_awaits_of_others hser hfit hdistinct (invariant_of_run hser hfit hinitial hrun)
        hpending
    · exact (registered_of_run hser hfit hinitial hrun i).seen _
  have hfaded : Faded deps (configs i) (configs j).nodeId
      (exec deps (os i) .pollOnce (N₂ i)) := by
    refine faded_pollOnce (os i) hclock (hholds i).sound (hholds i).config hreg hdated.unheard ?_
    intro p hp _
    obtain ⟨k, hk, hseen⟩ := hdated.seen p hp
    have hbefore := hmono k (N₁ i).world.ticks hk.le
    have hafter := hmono _ _ (maybeAnnounce_quiet deps (os i) (N₂ i)).ticks
    rw [silence, refreshTime, hseen]
    omega
  have hlater : Faded deps (configs i) (configs j).nodeId (N₃ i) := by
    refine cut_induction hser hfit hdistinct hinitial hpolled hcut' ?_ ?_ ?_
    · exact fun s op hsound hconfig hreg h ↦ h.exec hclock hsound hconfig hreg op
    · exact fun inbox transport readings s hn h ↦ ⟨hn, h.entry⟩
    · rw [Function.update_self]
      exact hfaded
  have hkeys := (registered_of_run hser hfit hinitial (hpolled.trans (run_of_cut hcut')) i).keys
  intro hmem
  obtain ⟨p, hp, hid⟩ := List.mem_map.mp hmem
  obtain ⟨havailable, n, hget⟩ := (DiscoveryRegistry.mem_availablePeers order p).mp hp
  have hkey : n = (configs j).nodeId := (hkeys n p hget).symm.trans hid
  subst hkey
  rw [hlater.entry p hget] at havailable
  cases havailable

section Nodes

open Simulation

/-- `node-b` has heard of `node-a`; then eight seconds pass. -/
def severed : Network Bool (List PeerInfo) :=
  Function.update polled true (environment [] id 8 (polled true))

/-- The identifiers of the peers that are available at `node-b`. -/
def listedAt (N : Network Bool (List PeerInfo)) : List Bytes :=
  ((N true).engine.registry.availablePeers .inOrder).map DiscoveredPeer.nodeId

theorem partition_detected_pair :
    ascii "node-a" ∈ listedAt severed ∧
      ascii "node-a" ∉ listedAt (pairExec severed true .pollOnce) := by
  have hfit : ∀ i, (pairConfig i).SizesFit := fun i ↦ by
    cases i <;> (unfold DiscoveryConfig.SizesFit; decide)
  have hinbox : (polled true).world.inbox = [] := by decide +kernel
  have hcut : Relation.ReflTransGen
      (CutStep listing (fun _ ↦ system (ticking 1000)) true false) polled severed :=
    .tail .refl (.deliver true [] id 8 (by simp) (by simp))
  have hgone := partition_detected (i := true) (j := false) listing_lawful hfit (by decide)
    (fun i ↦ by cases i <;> exact ⟨rfl, rfl, rfl, rfl, rfl⟩) run_polled
    (clockPositive_ticking (by decide)) (clockMonotone_ticking 1000) (by simp [hinbox]) hcut
    (by decide +kernel) .refl .inOrder
  rw [Function.update_self] at hgone
  exact ⟨by decide +kernel, hgone⟩

end Nodes

end Network

end Discovery
