import Discovery.Refresh
import Discovery.RegistryRuns

/-!
# The time a peer was last seen

`last_seen_at` is documented as the last observed activity, and a refresh
expires by it.  But the helpers that demote a peer or count an error against it
write the time as well, so blaming a silent peer keeps it from expiring.
-/

namespace Discovery

open Lib

namespace DiscoveryRegistry

variable {r : DiscoveryRegistry} {clock : ℕ → Timestamp} {op : Op} {ops : List Op} {n : Bytes}
  {p p' : DiscoveredPeer} {ticks : ℕ} {st : DiscoveryRegistry × ℕ}

/-! ## Evidence of a peer -/

/-- The operations that report activity of `n`. -/
def Op.observes (n : Bytes) : Op → Bool
  | upsert peer => peer.nodeId = n
  | upsertMoved peer => peer.nodeId = n
  | upsertAnnouncement announcement => announcement.nodeId = n
  | setState nodeId state => nodeId = n && (state = .discovered || state = .alive)
  | markDiscovered nodeId => nodeId = n
  | markAlive nodeId => nodeId = n
  | touch nodeId => nodeId = n
  | touchAt nodeId _ => nodeId = n
  | _ => false

/-- The operations that demote `n` or count an error against it. -/
def Op.demotes (n : Bytes) : Op → Bool
  | setState nodeId state => nodeId = n && (state = .stale || state = .expired)
  | markStale nodeId => nodeId = n
  | markExpired nodeId => nodeId = n
  | markError nodeId => nodeId = n
  | _ => false

/-- An operation without evidence of a peer leaves its time as it is. -/
def KeepsLastSeen (clock : ℕ → Timestamp) (op : Op) (st : DiscoveryRegistry × ℕ) : Prop :=
  ∀ n p p', op.observes n = false → st.1.get n = some p →
    (op.apply clock st).1.get n = some p' → p'.lastSeenAt = p.lastSeenAt

/-- An operation demotes no stored peer, except at the very time it was last seen. -/
def DemotesInTime (clock : ℕ → Timestamp) (op : Op) (st : DiscoveryRegistry × ℕ) : Prop :=
  ∀ n p, op.demotes n = true → st.1.get n = some p → p.lastSeenAt = clock st.2

/-- Every operation of a run has the property, in the state in which it is called. -/
def EachStep (clock : ℕ → Timestamp) (P : Op → DiscoveryRegistry × ℕ → Prop) (ops : List Op)
    (st : DiscoveryRegistry × ℕ) : Prop :=
  ∀ earlier op later, ops = earlier ++ op :: later → P op (run clock earlier st)

/-- A refresh expires every peer that was last seen `expire_after` ago or longer,
if it has not been observed since. -/
def SilentExpire (clock : ℕ → Timestamp) (ops : List Op) (st : DiscoveryRegistry × ℕ) : Prop :=
  ∀ earlier silence now staleAfter expireAfter later,
    ops = earlier ++ silence ++ .refreshStates now staleAfter expireAfter :: later →
    ∀ n p q, (run clock earlier st).1.get n = some p → (∀ op ∈ silence, op.observes n = false) →
      (run clock (earlier ++ silence) st).1.get n = some q →
      q.state = .discovered ∨ q.state = .alive ∨ q.state = .stale →
      now.isValid = true → p.lastSeenAt.isValid = true →
      expireAfter.millis.toInt ≤ age now p →
      ((run clock (earlier ++ silence ++ [.refreshStates now staleAfter expireAfter]) st).1.get
        n).map DiscoveredPeer.state = some .expired

/-! ## What one operation does to the time -/

theorem get_of_get_modify {f : DiscoveredPeer → Timestamp → DiscoveredPeer} {m : Bytes}
    (h : (r.modify clock f m ticks).2.1.get n = some p') :
    ∃ p, r.get n = some p ∧ p' = if n = m then f p (clock ticks) else p := by
  unfold modify at h
  cases hm : r.get m with
  | none =>
      rw [hm] at h
      refine ⟨p', h, (if_neg fun hn ↦ ?_).symm⟩
      rw [hn, hm] at h
      cases h
  | some _ =>
      rw [hm] at h
      have hlookup : (r.peers.lookup n).map
          (fun p ↦ if n = m then f p (clock ticks) else p) = some p' := by
        rw [← h]
        exact (KeyedMap.lookup_mapEntries (fun a p ↦ if a = m then f p (clock ticks) else p)
          r.peers n).symm
      obtain ⟨p, hp, hp'⟩ := Option.map_eq_some_iff.mp hlookup
      exact ⟨p, hp, hp'.symm⟩

/-- A rewriting that sets the time does so at its own node only. -/
theorem lastSeenAt_modify {f : DiscoveredPeer → Timestamp → DiscoveredPeer} {m : Bytes}
    (hf : ∀ p now, (f p now).lastSeenAt = now)
    (h : (r.modify clock f m ticks).2.1.get n = some p') :
    ∃ p, r.get n = some p ∧ p'.lastSeenAt = if m = n then clock ticks else p.lastSeenAt := by
  obtain ⟨p, hp, rfl⟩ := get_of_get_modify h
  refine ⟨p, hp, ?_⟩
  by_cases hn : n = m
  · rw [if_pos hn, if_pos hn.symm, hf]
  · rw [if_neg hn, if_neg (Ne.symm hn)]

theorem get_of_get_modify_ne {f : DiscoveredPeer → Timestamp → DiscoveredPeer} {m : Bytes}
    (hm : m ≠ n) (h : (r.modify clock f m ticks).2.1.get n = some p') : r.get n = some p' := by
  obtain ⟨p, hp, rfl⟩ := get_of_get_modify h
  rw [if_neg (Ne.symm hm)]
  exact hp

theorem get_of_get_upsert {peer : DiscoveredPeer} (hn : peer.nodeId ≠ n)
    (h : (r.upsert peer).get n = some p') : r.get n = some p' := by
  rwa [get_upsert_ne (Ne.symm hn)] at h

theorem lastSeenAt_setState {m : Bytes} {state : DiscoveryPeerState}
    (hobs : (Op.setState m state).observes n = false)
    (h : (r.setState clock m state ticks).2.1.get n = some p') :
    ∃ p, r.get n = some p ∧ p'.lastSeenAt =
      if (Op.setState m state).demotes n = true then clock ticks else p.lastSeenAt := by
  unfold setState at h
  split_ifs at h with hinvalid
  · refine ⟨p', h, (if_neg fun hdemotes ↦ ?_).symm⟩
    simp only [Op.demotes, Bool.and_eq_true, Bool.or_eq_true, decide_eq_true_eq] at hdemotes
    rcases hdemotes.2 with rfl | rfl <;> cases hinvalid
  · have hvalid : state.isValid = true := by simpa using hinvalid
    obtain ⟨p, hp, hseen⟩ := lastSeenAt_modify (fun _ _ ↦ rfl) h
    refine ⟨p, hp, hseen.trans (if_congr ?_ rfl rfl)⟩
    -- a valid state that is no evidence is a demotion
    simp only [Op.observes, Bool.and_eq_false_iff, Bool.or_eq_false_iff, decide_eq_false_iff_not]
      at hobs
    simp only [Op.demotes, Bool.and_eq_true, Bool.or_eq_true, decide_eq_true_eq]
    simp only [DiscoveryPeerState.isValid, Bool.or_eq_true, decide_eq_true_eq] at hvalid
    tauto

/-- What an operation without evidence of `n` may do to the entry of `n`: it was
there before, and its time is new if the operation demotes it. -/
theorem lastSeenAt_apply (hobs : op.observes n = false)
    (h : (op.apply clock st).1.get n = some p') :
    ∃ p, st.1.get n = some p ∧
      p'.lastSeenAt = if op.demotes n = true then clock st.2 else p.lastSeenAt := by
  obtain ⟨r, ticks⟩ := st
  cases op with
  | upsert peer => exact ⟨p', get_of_get_upsert (of_decide_eq_false hobs) h, rfl⟩
  | upsertMoved peer => exact ⟨p', get_of_get_upsert (of_decide_eq_false hobs) h, rfl⟩
  | upsertAnnouncement a =>
      have hn : n ≠ a.nodeId := Ne.symm (of_decide_eq_false hobs)
      exact ⟨p', (get_upsertAnnouncement_ne clock hn ticks).symm.trans h, rfl⟩
  | erase m =>
      have hn : n ≠ m := by
        rintro rfl
        simp [Op.apply, DiscoveryRegistry.erase, get] at h
      exact ⟨p', (AList.lookup_erase_ne hn).symm.trans h, rfl⟩
  | setState m state => exact lastSeenAt_setState hobs h
  | markDiscovered m => exact ⟨p', get_of_get_modify_ne (of_decide_eq_false hobs) h, rfl⟩
  | markAlive m => exact ⟨p', get_of_get_modify_ne (of_decide_eq_false hobs) h, rfl⟩
  | touch m => exact ⟨p', get_of_get_modify_ne (of_decide_eq_false hobs) h, rfl⟩
  | markStale m => simpa [Op.demotes] using lastSeenAt_modify (fun _ _ ↦ rfl) h
  | markExpired m => simpa [Op.demotes] using lastSeenAt_modify (fun _ _ ↦ rfl) h
  | markError m => simpa [Op.demotes] using lastSeenAt_modify (fun _ _ ↦ rfl) h
  | touchAt m timestamp =>
      have hn : n ≠ m := Ne.symm (of_decide_eq_false hobs)
      refine ⟨p', ?_, rfl⟩
      simp only [Op.apply, DiscoveryRegistry.touchAt] at h
      split at h
      · exact h
      · cases hm : r.get m with
        | none => simpa only [hm] using h
        | some _ =>
            simp only [hm] at h
            exact (KeyedMap.lookup_adjust_ne hn _ _).symm.trans h
  | refreshStates now staleAfter expireAfter =>
      simp only [Op.apply, get_refreshStates] at h
      split at h
      · obtain ⟨p, hp, rfl⟩ := Option.map_eq_some_iff.mp h
        exact ⟨p, hp, refreshPeer_lastSeenAt _ _ _ p⟩
      · exact ⟨p', h, rfl⟩
  | pruneExpired =>
      have hfilter := (KeyedMap.lookup_filterEntries (fun _ (p : DiscoveredPeer) ↦ !p.expired)
        r.peers n).symm.trans h
      exact ⟨p', (Option.filter_eq_some_iff.mp hfilter).1, rfl⟩
  | clear => cases h

theorem exists_get_modify {f : DiscoveredPeer → Timestamp → DiscoveredPeer}
    (hp : r.get n = some p) : ∃ p', (r.modify clock f n ticks).2.1.get n = some p' := by
  have hlookup : r.peers.lookup n = some p := hp
  exact ⟨f p (clock ticks), by simp [modify, get, hlookup]⟩

variable (clock) in
/-- A demotion keeps the entry, and is no evidence of the node. -/
theorem Op.demotes_spec (hdemotes : op.demotes n = true) (hp : st.1.get n = some p) :
    op.observes n = false ∧ ∃ p', (op.apply clock st).1.get n = some p' := by
  obtain ⟨r, ticks⟩ := st
  cases op with
  | setState m state =>
      simp only [Op.demotes, Bool.and_eq_true, Bool.or_eq_true, decide_eq_true_eq] at hdemotes
      obtain ⟨rfl, hstate⟩ := hdemotes
      obtain ⟨p', hp'⟩ : ∃ p', (r.modify clock (fun peer now ↦ { peer with state }.touch now) m
          ticks).2.1.get m = some p' := exists_get_modify hp
      rcases hstate with rfl | rfl
      · exact ⟨by simp [Op.observes], p', hp'⟩
      · exact ⟨by simp [Op.observes], p', hp'⟩
  | markStale m =>
      obtain rfl : m = n := of_decide_eq_true hdemotes
      exact ⟨rfl, exists_get_modify hp⟩
  | markExpired m =>
      obtain rfl : m = n := of_decide_eq_true hdemotes
      exact ⟨rfl, exists_get_modify hp⟩
  | markError m =>
      obtain rfl : m = n := of_decide_eq_true hdemotes
      exact ⟨rfl, exists_get_modify hp⟩
  | _ => cases hdemotes

variable (clock) in
theorem keepsLastSeen_iff (op : Op) (st : DiscoveryRegistry × ℕ) :
    KeepsLastSeen clock op st ↔ DemotesInTime clock op st := by
  constructor
  · intro h n p hdemotes hp
    obtain ⟨hobs, p', hp'⟩ := Op.demotes_spec clock hdemotes hp
    obtain ⟨q, -, hseen⟩ := lastSeenAt_apply hobs hp'
    rw [if_pos hdemotes] at hseen
    exact (h n p p' hobs hp hp').symm.trans hseen
  · intro h n p p' hobs hp hp'
    obtain ⟨q, hq, hseen⟩ := lastSeenAt_apply hobs hp'
    obtain rfl : p = q := Option.some.inj (hp.symm.trans hq)
    rw [hseen]
    split_ifs with hdemotes
    · exact (h n p hdemotes hp).symm
    · rfl

/-! ## Runs -/

/-- If each step keeps the times, a peer has after a silence the time it had before. -/
theorem lastSeenAt_silence {silence : List Op}
    (hkeep : EachStep clock (KeepsLastSeen clock) silence st)
    (hobs : ∀ op ∈ silence, op.observes n = false)
    (h : (run clock silence st).1.get n = some p') :
    ∃ p, st.1.get n = some p ∧ p'.lastSeenAt = p.lastSeenAt := by
  induction silence generalizing st with
  | nil => exact ⟨p', h, rfl⟩
  | cons op silence ih =>
      have hrest : EachStep clock (KeepsLastSeen clock) silence (op.apply clock st) :=
        fun earlier op' later hsplit ↦ hkeep (op :: earlier) op' later (by rw [hsplit]; rfl)
      obtain ⟨hop, hsilence⟩ := List.forall_mem_cons.mp hobs
      obtain ⟨q, hq, hseen⟩ := ih hrest hsilence h
      obtain ⟨p, hp, -⟩ := lastSeenAt_apply hop hq
      exact ⟨p, hp, hseen.trans (hkeep [] op silence rfl n p q hop hp hq)⟩

theorem silentExpire_of_keeps (hkeep : EachStep clock (KeepsLastSeen clock) ops st) :
    SilentExpire clock ops st := by
  intro earlier silence now staleAfter expireAfter later hops n p q hp hobs hq hstate hnow hvalid
    hage
  have hsilence : EachStep clock (KeepsLastSeen clock) silence (run clock earlier st) := by
    intro l₁ op l₂ hsplit
    rw [← run_append]
    refine hkeep (earlier ++ l₁) op (l₂ ++ .refreshStates now staleAfter expireAfter :: later) ?_
    rw [hops, hsplit]
    simp only [List.append_assoc, List.cons_append]
  rw [run_append] at hq
  obtain ⟨p₀, hp₀, hseen⟩ := lastSeenAt_silence hsilence hobs hq
  obtain rfl : p = p₀ := Option.some.inj (hp.symm.trans hp₀)
  have hoverdue : expireAfter.millis.toInt ≤ now.millis.toInt - q.lastSeenAt.millis.toInt ∧
      q.state ≠ .expired := by
    rw [hseen]
    refine ⟨hage, ?_⟩
    rcases hstate with h | h | h <;> rw [h] <;> decide
  rw [run_append, run_append, run, run, Op.apply, get_refreshStates, if_pos hnow, hq,
    Option.map_some, Option.map_some, refreshPeer_state hnow (by rwa [hseen]), if_pos hoverdue]

variable (clock ops st) in
/-- Only evidence of a peer moves the time it was last seen, and silent peers
expire, in exactly the runs that demote no stored peer at a new time. -/
theorem last_seen_by_evidence_iff :
    EachStep clock (KeepsLastSeen clock) ops st ∧ SilentExpire clock ops st ↔
      EachStep clock (DemotesInTime clock) ops st := by
  constructor
  · rintro ⟨hkeep, -⟩ earlier op later hops
    exact (keepsLastSeen_iff clock op _).mp (hkeep earlier op later hops)
  · intro h
    have hkeep : EachStep clock (KeepsLastSeen clock) ops st := fun earlier op later hops ↦
      (keepsLastSeen_iff clock op _).mpr (h earlier op later hops)
    exact ⟨hkeep, silentExpire_of_keeps hkeep⟩

/-- A clock that has come to 19 s when the error is counted. -/
def lateClock : ℕ → Timestamp := fun _ ↦ ⟨19000⟩

def blamed : List Op :=
  [.markError (ascii "node-a"), .refreshStates ⟨20000⟩ ⟨7500⟩ ⟨15000⟩]

/-- Last seen at one second and silent since, the peer outlives a TTL of 15 s
because of an error that is counted against it. -/
theorem last_seen_moved_by_error :
    ¬ (EachStep lateClock (KeepsLastSeen lateClock) blamed (lone .alive, 0) ∧
        SilentExpire lateClock blamed (lone .alive, 0)) := by
  rintro ⟨-, hexpire⟩
  have hexpired := hexpire [] [.markError (ascii "node-a")] ⟨20000⟩ ⟨7500⟩ ⟨15000⟩ [] rfl
    (ascii "node-a") _ _ rfl (by decide) rfl (by decide) (by decide) (by decide) (by decide)
  revert hexpired
  decide

end DiscoveryRegistry

end Discovery
