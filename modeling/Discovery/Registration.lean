import Discovery.Lifecycle

/-!
# Where registry entries come from

An operation adds to the registry only what it accepted from the inbox, stamped
with a reading of the clock made meanwhile; it may also drop entries and change
their states.
-/

namespace Discovery

namespace DiscoveryEngine

variable {T : Type} {deps : External T} {os : Os} {s s' s'' : Runtime T} {c : DiscoveryConfig}

/-- Between `s` and `s'` the entry `p` of the node `n` was accepted. -/
def Learned (deps : External T) (os : Os) (c : DiscoveryConfig) (s s' : Runtime T) (n : Bytes)
    (p : DiscoveredPeer) : Prop :=
  (∃ arrival ∈ s.world.inbox,
    react deps.ser s.backend.config.maxDatagramSize c.nodeId arrival = .accept p.announcement) ∧
  p.announcement.nodeId = n ∧
    ∃ k, s.world.ticks ≤ k ∧ k < s'.world.ticks ∧ p.lastSeenAt = os.clock k

/-- Every entry of `s'` was in `s` already, or was accepted since. -/
structure Heard (deps : External T) (os : Os) (c : DiscoveryConfig) (s s' : Runtime T) : Prop where
  inbox : s'.world.inbox ⊆ s.world.inbox
  ticks : s.world.ticks ≤ s'.world.ticks
  config : s'.backend.config = s.backend.config
  entry : ∀ n p', s'.engine.registry.get n = some p' →
    (∃ p, s.engine.registry.get n = some p ∧ p'.announcement = p.announcement ∧
      p'.lastSeenAt = p.lastSeenAt) ∨ Learned deps os c s s' n p'

theorem Heard.refl (s : Runtime T) : Heard deps os c s s :=
  ⟨List.Subset.refl _, le_rfl, rfl, fun _ p' h ↦ .inl ⟨p', h, rfl, rfl⟩⟩

theorem Heard.trans (h : Heard deps os c s s') (h' : Heard deps os c s' s'') :
    Heard deps os c s s'' := by
  refine ⟨List.Subset.trans h'.inbox h.inbox, h.ticks.trans h'.ticks, h'.config.trans h.config,
    fun n p'' hp'' ↦ ?_⟩
  rcases h'.entry n p'' hp'' with ⟨p', hp', ha', hs'⟩ | ⟨⟨arrival, hmem, hr⟩, hn, k, hk, hk', hseen⟩
  · rcases h.entry n p' hp' with ⟨p, hp, ha, hs⟩ | ⟨⟨arrival, hmem, hr⟩, hn, k, hk, hk', hseen⟩
    · exact .inl ⟨p, hp, ha'.trans ha, hs'.trans hs⟩
    · exact .inr ⟨⟨arrival, hmem, by rw [ha', hr]⟩, by rw [ha', hn], k, hk,
        hk'.trans_le h'.ticks, hs'.trans hseen⟩
  · rw [h.config] at hr
    exact .inr ⟨⟨arrival, h.inbox hmem, hr⟩, hn, k, h.ticks.trans hk, hk', hseen⟩

theorem Quiet.heard (h : Quiet s s') : Heard deps os c s s' :=
  ⟨by rw [h.inbox]; exact List.Subset.refl _, h.ticks, by rw [h.backend],
    fun n p' hp' ↦ .inl ⟨p', by rwa [h.registry] at hp', rfl, rfl⟩⟩

theorem get_refreshedRegistry (n : Bytes) {p' : DiscoveredPeer}
    (h : (refreshedRegistry deps os c s).get n = some p') :
    ∃ p, s.engine.registry.get n = some p ∧ p'.announcement = p.announcement ∧
      p'.lastSeenAt = p.lastSeenAt := by
  rw [refreshedRegistry, DiscoveryRegistry.get_refreshStates] at h
  split at h
  · obtain ⟨p, hp, rfl⟩ := Option.map_eq_some_iff.mp h
    exact ⟨p, hp, by simp, by simp⟩
  · exact ⟨p', h, rfl, rfl⟩

theorem pollOnce_heard (h : Live s c) : Heard deps os c s (pollOnce deps os s).2 := by
  have hspec := pollOnce_spec deps os h
  have htime := timeDriven_steady deps os s
  refine ⟨?_, hspec.kept.ticks, by rw [hspec.kept.backend], fun n p' hp' ↦ ?_⟩
  · rw [hspec.inbox]
    intro arrival
    exact List.mem_of_mem_tail
  rw [hspec.registry] at hp'
  cases hr : nextReaction deps c s with
  | reject =>
      rw [hr] at hp'
      exact .inl (get_refreshedRegistry n hp')
  | answer m host port =>
      rw [hr] at hp'
      exact .inl (get_refreshedRegistry n hp')
  | accept a =>
      rw [hr] at hp'
      by_cases hn : n = a.nodeId
      · subst hn
        obtain ⟨arrival, hmem, hreact⟩ := react_of_nextReaction hr (by simp)
        obtain ⟨i, hi, hi', hget⟩ := DiscoveryRegistry.get_upsertAnnouncement_self os.clock
          (isValid_of_react hreact) (r := refreshedRegistry deps os c s)
          ((timeDriven deps os s).world.ticks + 2)
        have hticks := htime.ticks
        dsimp only at hp'
        rw [hget, Option.some.injEq] at hp'
        subst hp'
        exact .inr ⟨⟨arrival, hmem, hreact⟩, rfl, i, by omega,
          by rw [hspec.upserted a hr, hi']; exact Nat.lt_succ_self i, rfl⟩
      · dsimp only at hp'
        rw [DiscoveryRegistry.get_upsertAnnouncement_ne _ hn] at hp'
        exact .inl (get_refreshedRegistry n hp')

theorem pollOnce_heard_of_sound (hs : Sound s) (hc : s.context.config = some c) :
    Heard deps os c s (pollOnce deps os s).2 := by
  cases hrunning : isRunning s with
  | false => rw [pollOnce_of_not_running hrunning]; exact .refl s
  | true => exact pollOnce_heard (hs.live hrunning hc)

theorem Heard.of_cleared (hinbox : s'.world.inbox = s.world.inbox)
    (hticks : s.world.ticks ≤ s'.world.ticks) (hconfig : s'.backend.config = s.backend.config)
    (hregistry : s'.engine.registry = s.engine.registry ∨ s'.engine.registry = {}) :
    Heard deps os c s s' := by
  refine ⟨by rw [hinbox]; exact List.Subset.refl _, hticks, hconfig, fun n p' hp' ↦ .inl ?_⟩
  rcases hregistry with h | h
  · exact ⟨p', by rwa [h] at hp', rfl, rfl⟩
  · rw [h] at hp'
    cases hp'

theorem start_heard (hs : Sound s) : Heard deps os c s (start os s).2 := by
  obtain ⟨hconfig, -, -⟩ := backendStart_spec os s.world hs.socket hs.config
  have hworld := backendStart_callsOnly os s.backend s.world
  have hinbox : (s.backend.start os s.world).2.2.inbox = s.world.inbox := by rw [hworld]
  have hticks : (s.backend.start os s.world).2.2.ticks = s.world.ticks := by rw [hworld]
  rcases start_cases os s with ⟨-, heq⟩ | ⟨-, ⟨-, heq⟩ | ⟨-, -, heq⟩ | ⟨-, -, heq⟩⟩
  · rw [heq]
    exact .refl s
  · rw [heq]
    exact .of_cleared rfl le_rfl rfl (.inl rfl)
  · rw [heq]
    exact .of_cleared hinbox hticks.ge hconfig (.inl rfl)
  · rw [heq]
    exact .of_cleared hinbox hticks.ge hconfig (.inl rfl)

theorem stop_heard : Heard deps os c s (stop s) := by
  unfold stop
  split_ifs
  · exact .refl s
  · exact .of_cleared rfl le_rfl rfl (.inr rfl)

variable (deps os) in
theorem exec_heard (hs : Sound s) (hc : s.context.config = some c) (op : Op) :
    Heard deps os c s (exec deps os op s) := by
  cases op with
  | start => exact start_heard hs
  | stop => exact stop_heard
  | announceNow => exact (announceNow_quiet _ _ s).heard
  | probeNow => exact (probeNow_quiet _ _ s).heard
  | pollOnce => exact pollOnce_heard_of_sound hs hc
  | pollMany maxMessages =>
      refine (hs.pollMany_induction (P := fun t ↦ Heard deps os c s t) ?_ maxMessages
        (.refl s)).2.2
      intro t hsound hkept hheard
      exact hheard.trans (pollOnce_heard_of_sound hsound (hkept.config.trans hc))

/-! ## Well-kept registries -/

/-- Every entry is stored under its node id, is that of another node, carries a
valid announcement, and was stamped by the clock in the past. -/
structure Registered (os : Os) (c : DiscoveryConfig) (s : Runtime T) : Prop where
  keys : s.engine.registry.KeysMatch
  others : ∀ n p, s.engine.registry.get n = some p → n ≠ c.nodeId
  valid : ∀ n p, s.engine.registry.get n = some p → p.announcement.isValid = true
  seen : ∀ n p, s.engine.registry.get n = some p →
    ∃ k, k < s.world.ticks ∧ p.lastSeenAt = os.clock k

theorem nodeId_ne_of_react {ser : Serializer} {maxSize : ℕ} {localId : Bytes} {arrival : Arrival}
    {a : DiscoveryAnnouncement} (hr : react ser maxSize localId arrival = .accept a) :
    a.nodeId ≠ localId := by
  unfold react at hr
  split at hr
  · cases hr
  · unfold reactTo at hr
    split_ifs at hr
    split at hr
    · cases hr
    · split_ifs at hr with hself
      injection hr with ha
      rwa [← ha]

theorem Registered.of_heard (h : Registered os c s) (hh : Heard deps os c s s') :
    Registered os c s' := by
  constructor
  · intro n p' hp'
    rcases hh.entry n p' hp' with ⟨p, hp, ha, -⟩ | ⟨-, hn, -⟩
    · rw [DiscoveredPeer.nodeId, ha]
      exact h.keys n p hp
    · exact hn
  · intro n p' hp'
    rcases hh.entry n p' hp' with ⟨p, hp, -, -⟩ | ⟨⟨_, _, hr⟩, hn, -⟩
    · exact h.others n p hp
    · rw [← hn]
      exact nodeId_ne_of_react hr
  · intro n p' hp'
    rcases hh.entry n p' hp' with ⟨p, hp, ha, -⟩ | ⟨⟨_, _, hr⟩, -⟩
    · rw [ha]
      exact h.valid n p hp
    · exact isValid_of_react hr
  · intro n p' hp'
    rcases hh.entry n p' hp' with ⟨p, hp, -, hs⟩ | ⟨-, -, k, -, hk, hs⟩
    · obtain ⟨k, hk, hseen⟩ := h.seen n p hp
      exact ⟨k, hk.trans_le hh.ticks, hs.trans hseen⟩
    · exact ⟨k, hk, hs⟩

theorem Reachable.registered (h : Reachable deps os s) (hc : s.context.config = some c) :
    Registered os c s := by
  induction h with
  | create context config world => constructor <;> simp [DiscoveryRegistry.KeysMatch]
  | exec op hreach ih =>
      have hconfig := (exec_config _ _ hreach.sound op).symm.trans hc
      exact (ih hconfig).of_heard (exec_heard _ _ hreach.sound hconfig op)
  | environment inbox transport readings _ ih =>
      obtain ⟨hkeys, hothers, hvalid, hseen⟩ := ih hc
      refine ⟨hkeys, hothers, hvalid, fun n p hp ↦ ?_⟩
      obtain ⟨k, hk, hclock⟩ := hseen n p hp
      exact ⟨k, Nat.lt_add_right _ hk, hclock⟩

end DiscoveryEngine

end Discovery
