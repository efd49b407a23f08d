import Discovery.Registry

/-!
# The classification of peers by age

A refresh is meant to expire the peers of age `expire_after` and to make those
of age `stale_after` stale.  Its second test does not exclude expired peers, so
an overdue peer that is already expired becomes stale again.
-/

namespace Discovery

open Lib

namespace DiscoveryRegistry

variable {r : DiscoveryRegistry} {now : Timestamp} {staleAfter expireAfter : Duration}
  {n : Bytes} {p p' : DiscoveredPeer}

def age (now : Timestamp) (p : DiscoveredPeer) : ℤ :=
  now.millis.toInt - p.lastSeenAt.millis.toInt

/-- The states after a refresh agree with the ages, nothing else changes, and
the changes are counted. -/
structure ClassifiedByAge (r : DiscoveryRegistry) (now : Timestamp)
    (staleAfter expireAfter : Duration) (changed : ℕ) (r' : DiscoveryRegistry) : Prop where
  expired : ∀ n p p', r.get n = some p → r'.get n = some p' → p.lastSeenAt.isValid = true →
    expireAfter.millis.toInt ≤ age now p → p'.state = .expired
  stale : ∀ n p p', r.get n = some p → r'.get n = some p' → p.lastSeenAt.isValid = true →
    staleAfter.millis.toInt ≤ age now p → age now p < expireAfter.millis.toInt →
      p.state = .discovered ∨ p.state = .alive ∨ p.state = .stale → p'.state = .stale
  fresh : ∀ n p p', r.get n = some p → r'.get n = some p' → p.lastSeenAt.isValid = true →
    age now p < staleAfter.millis.toInt → p'.state = p.state
  unseen : ∀ n p p', r.get n = some p → r'.get n = some p' → p.lastSeenAt.isValid = false →
    p' = p
  fields : ∀ n p p', r.get n = some p → r'.get n = some p' → p' = { p with state := p'.state }
  entries : ∀ n, r'.contains n = r.contains n
  changed : changed = r.peers.entries.countP fun e ↦
    (r'.get e.1).map DiscoveredPeer.state ≠ some e.2.state

/-! ## One peer -/

theorem refreshPeer_of_unseen (h : p.lastSeenAt.isValid = false) :
    refreshPeer now staleAfter expireAfter p = (p, false) := by
  simp [refreshPeer, h]

theorem refreshPeer_fields :
    (refreshPeer now staleAfter expireAfter p).1 =
      { p with state := (refreshPeer now staleAfter expireAfter p).1.state } := by
  unfold refreshPeer
  dsimp only
  split_ifs <;> rfl

/-- The flag of the loop body tells a change of the state. -/
theorem refreshPeer_changed :
    (refreshPeer now staleAfter expireAfter p).2 =
      decide ((refreshPeer now staleAfter expireAfter p).1.state ≠ p.state) := by
  unfold refreshPeer
  dsimp only
  split_ifs with h₁ h₂ h₃
  · simp
  · simp [Ne.symm h₂.2]
  · simp [Ne.symm h₃.2]
  · simp

theorem refreshPeer_expired (hnow : now.isValid = true) (hseen : p.lastSeenAt.isValid = true)
    (hle : staleAfter.millis.toInt ≤ expireAfter.millis.toInt)
    (hage : expireAfter.millis.toInt ≤ age now p) :
    (refreshPeer now staleAfter expireAfter p).1.state =
      if p.state = .expired then .stale else .expired := by
  have hstale := Int.le_trans hle hage
  unfold age at hage hstale
  rw [refreshPeer_state hnow hseen]
  by_cases hstate : p.state = .expired
  · simp [hstate, hstale]
  · simp [hstate, hage]

theorem refreshPeer_stale (hnow : now.isValid = true) (hseen : p.lastSeenAt.isValid = true)
    (hstale : staleAfter.millis.toInt ≤ age now p)
    (hage : age now p < expireAfter.millis.toInt) :
    (refreshPeer now staleAfter expireAfter p).1.state = .stale := by
  unfold age at hstale hage
  have hfirst : ¬ (expireAfter.millis.toInt ≤ now.millis.toInt - p.lastSeenAt.millis.toInt ∧
      p.state ≠ .expired) := fun h ↦ absurd h.1 (by omega)
  rw [refreshPeer_state hnow hseen, if_neg hfirst, if_pos hstale]

theorem refreshPeer_fresh (hnow : now.isValid = true) (hseen : p.lastSeenAt.isValid = true)
    (hle : staleAfter.millis.toInt ≤ expireAfter.millis.toInt)
    (hage : age now p < staleAfter.millis.toInt) :
    (refreshPeer now staleAfter expireAfter p).1.state = p.state := by
  unfold age at hage
  have hfirst : ¬ (expireAfter.millis.toInt ≤ now.millis.toInt - p.lastSeenAt.millis.toInt ∧
      p.state ≠ .expired) := fun h ↦ absurd h.1 (by omega)
  rw [refreshPeer_state hnow hseen, if_neg hfirst, if_neg (by omega)]

/-! ## The whole registry -/

theorem get_refreshStates_some (hnow : now.isValid = true) (hp : r.get n = some p)
    (hp' : (r.refreshStates now staleAfter expireAfter).2.get n = some p') :
    p' = (refreshPeer now staleAfter expireAfter p).1 := by
  rw [get_refreshStates, if_pos hnow, hp, Option.map_some, Option.some.injEq] at hp'
  exact hp'.symm

theorem contains_refreshStates (n : Bytes) :
    (r.refreshStates now staleAfter expireAfter).2.contains n = r.contains n := by
  rw [contains, get_refreshStates]
  split_ifs
  · rw [Option.isSome_map, contains]
  · rfl

theorem refreshStates_changed (hnow : now.isValid = true) :
    (r.refreshStates now staleAfter expireAfter).1 = r.peers.entries.countP fun e ↦
      ((r.refreshStates now staleAfter expireAfter).2.get e.1).map DiscoveredPeer.state ≠
        some e.2.state := by
  have hcount : (r.refreshStates now staleAfter expireAfter).1 =
      r.peers.entries.countP fun e ↦ (refreshPeer now staleAfter expireAfter e.2).2 := by
    simp [refreshStates, hnow]
  rw [hcount]
  apply List.countP_congr
  intro e he
  have hget : r.get e.1 = some e.2 := (KeyedMap.mem_entries_iff r.peers e).mp he
  rw [get_refreshStates, if_pos hnow, hget, refreshPeer_changed]
  simp

/-- A refresh classifies the peers by age exactly when no overdue peer was
expired before it. -/
theorem refreshStates_classified_iff (hnow : now.isValid = true)
    (hle : staleAfter.millis.toInt ≤ expireAfter.millis.toInt) :
    ClassifiedByAge r now staleAfter expireAfter (r.refreshStates now staleAfter expireAfter).1
        (r.refreshStates now staleAfter expireAfter).2 ↔
      ∀ n p, r.get n = some p → p.lastSeenAt.isValid = true →
        expireAfter.millis.toInt ≤ age now p → p.state ≠ .expired := by
  constructor
  · intro h n p hp hseen hage hexpired
    have hp' : (r.refreshStates now staleAfter expireAfter).2.get n =
        some (refreshPeer now staleAfter expireAfter p).1 := by
      rw [get_refreshStates, if_pos hnow, hp, Option.map_some]
    have hstate := h.expired n p _ hp hp' hseen hage
    rw [refreshPeer_expired hnow hseen hle hage, if_pos hexpired] at hstate
    cases hstate
  · intro h
    refine ⟨fun n p p' hp hp' hseen hage ↦ ?_, fun n p p' hp hp' hseen hstale hage _ ↦ ?_,
      fun n p p' hp hp' hseen hage ↦ ?_, fun n p p' hp hp' hunseen ↦ ?_,
      fun n p p' hp hp' ↦ ?_, contains_refreshStates, refreshStates_changed hnow⟩
    · rw [get_refreshStates_some hnow hp hp', refreshPeer_expired hnow hseen hle hage,
        if_neg (h n p hp hseen hage)]
    · rw [get_refreshStates_some hnow hp hp', refreshPeer_stale hnow hseen hstale hage]
    · rw [get_refreshStates_some hnow hp hp', refreshPeer_fresh hnow hseen hle hage]
    · rw [get_refreshStates_some hnow hp hp', refreshPeer_of_unseen hunseen]
    · rw [get_refreshStates_some hnow hp hp']
      exact refreshPeer_fields

/-- A registry of one peer, last seen at one second. -/
def lone (state : DiscoveryPeerState) : DiscoveryRegistry :=
  ({} : DiscoveryRegistry).upsert
    { announcement := .create (ascii "node-a") (ascii "127.0.0.1") 9500 ⟨1000⟩
      state
      lastSeenAt := ⟨1000⟩ }

theorem refreshStates_classified_alive :
    ClassifiedByAge (lone .alive) ⟨20000⟩ ⟨7500⟩ ⟨15000⟩
      ((lone .alive).refreshStates ⟨20000⟩ ⟨7500⟩ ⟨15000⟩).1
      ((lone .alive).refreshStates ⟨20000⟩ ⟨7500⟩ ⟨15000⟩).2 := by
  refine (refreshStates_classified_iff (by decide) (by decide)).mpr ?_
  intro n p hp _ _ hexpired
  have hmem := (KeyedMap.mem_entries_iff (lone .alive).peers ⟨n, p⟩).mpr hp
  have hall : ∀ e ∈ (lone .alive).peers.entries, e.2.state ≠ .expired := by decide
  exact hall _ hmem hexpired

/-- The peer of age 19 s was expired before and is stale afterwards. -/
theorem refreshStates_reclassifies_expired :
    ¬ ClassifiedByAge (lone .expired) ⟨20000⟩ ⟨7500⟩ ⟨15000⟩
      ((lone .expired).refreshStates ⟨20000⟩ ⟨7500⟩ ⟨15000⟩).1
      ((lone .expired).refreshStates ⟨20000⟩ ⟨7500⟩ ⟨15000⟩).2 := by
  intro h
  have hstate := h.expired (ascii "node-a") _ _ rfl rfl (by decide) (by decide)
  revert hstate
  decide

end DiscoveryRegistry

end Discovery
