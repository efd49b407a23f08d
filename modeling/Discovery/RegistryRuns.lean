import Discovery.Registry

/-!
# The registry under its whole interface

Any sequence of operations on a registry that starts empty keeps each entry
under its own node id, with a valid announcement and a usable state.  The views
are then well formed, whatever the order in which the map is iterated.
-/

namespace Discovery

open Lib

namespace DiscoveryRegistry

variable {r : DiscoveryRegistry}

/-! ## Operations -/

inductive Op where
  | upsert (peer : DiscoveredPeer)
  | upsertMoved (peer : DiscoveredPeer)
  | upsertAnnouncement (announcement : DiscoveryAnnouncement)
  | erase (nodeId : Bytes)
  | setState (nodeId : Bytes) (state : DiscoveryPeerState)
  | markDiscovered (nodeId : Bytes)
  | markAlive (nodeId : Bytes)
  | markStale (nodeId : Bytes)
  | markExpired (nodeId : Bytes)
  | touch (nodeId : Bytes)
  | touchAt (nodeId : Bytes) (timestamp : Timestamp)
  | markError (nodeId : Bytes)
  | refreshStates (now : Timestamp) (staleAfter expireAfter : Duration)
  | pruneExpired
  | clear
deriving DecidableEq

/-- The registry after an operation, with the number of clock readings so far. -/
def Op.apply (clock : ℕ → Timestamp) :
    Op → DiscoveryRegistry × ℕ → DiscoveryRegistry × ℕ
  | upsert peer, (r, ticks) => (r.upsert peer, ticks)
  | upsertMoved peer, (r, ticks) => (r.upsertMoved peer, ticks)
  | upsertAnnouncement announcement, (r, ticks) => r.upsertAnnouncement clock announcement ticks
  | erase nodeId, (r, ticks) => ((r.erase nodeId).2, ticks)
  | setState nodeId state, (r, ticks) => (r.setState clock nodeId state ticks).2
  | markDiscovered nodeId, (r, ticks) => (r.markDiscovered clock nodeId ticks).2
  | markAlive nodeId, (r, ticks) => (r.markAlive clock nodeId ticks).2
  | markStale nodeId, (r, ticks) => (r.markStale clock nodeId ticks).2
  | markExpired nodeId, (r, ticks) => (r.markExpired clock nodeId ticks).2
  | touch nodeId, (r, ticks) => (r.touch clock nodeId ticks).2
  | touchAt nodeId timestamp, (r, ticks) => ((r.touchAt nodeId timestamp).2, ticks)
  | markError nodeId, (r, ticks) => (r.markError clock nodeId ticks).2
  | refreshStates now staleAfter expireAfter, (r, ticks) =>
    ((r.refreshStates now staleAfter expireAfter).2, ticks)
  | pruneExpired, (r, ticks) => (r.pruneExpired.2, ticks)
  | clear, (r, ticks) => (r.clear, ticks)

def run (clock : ℕ → Timestamp) : List Op → DiscoveryRegistry × ℕ → DiscoveryRegistry × ℕ
  | [], st => st
  | op :: ops, st => run clock ops (op.apply clock st)

theorem run_append (clock : ℕ → Timestamp) (l₁ l₂ : List Op) (st : DiscoveryRegistry × ℕ) :
    run clock (l₁ ++ l₂) st = run clock l₂ (run clock l₁ st) := by
  induction l₁ generalizing st with
  | nil => rfl
  | cons op l₁ ih => exact ih _

/-! ## The invariant -/

/-- Every entry is stored under its node id and is a valid peer. -/
def Consistent (r : DiscoveryRegistry) : Prop :=
  r.peers.All fun n p ↦ p.nodeId = n ∧ p.isValid = true

theorem consistent_empty : Consistent {} := KeyedMap.All.empty

theorem Consistent.upsert (h : r.Consistent) (peer : DiscoveredPeer) :
    (r.upsert peer).Consistent := by
  unfold DiscoveryRegistry.upsert
  split_ifs with hvalid
  · exact h
  · exact KeyedMap.All.insert h ⟨rfl, by simpa using hvalid⟩

theorem upsertMoved_eq (peer : DiscoveredPeer) : r.upsertMoved peer = r.upsert peer := rfl

theorem isValid_update {p : DiscoveredPeer} {a : DiscoveryAnnouncement} (ha : a.isValid = true)
    (now : Timestamp) : (p.update a now).isValid = true :=
  Bool.and_eq_true_iff.mpr ⟨ha, rfl⟩

/-- Replacing the whole announcement under a key is sound because the key was
found with the node id of the new one. -/
theorem Consistent.upsertAnnouncement (h : r.Consistent) (clock : ℕ → Timestamp)
    (a : DiscoveryAnnouncement) (ticks : ℕ) :
    (r.upsertAnnouncement clock a ticks).1.Consistent := by
  unfold DiscoveryRegistry.upsertAnnouncement
  split_ifs with hvalid
  · exact h
  · have ha : a.isValid = true := by simpa using hvalid
    cases r.get a.nodeId with
    | some _ =>
        apply KeyedMap.All.adjust h
        intro p _
        exact ⟨rfl, isValid_update ha _⟩
    | none => exact h.upsert _

theorem Consistent.erase (h : r.Consistent) (nodeId : Bytes) : (r.erase nodeId).2.Consistent :=
  KeyedMap.All.erase h nodeId

theorem Consistent.modify (h : r.Consistent) (clock : ℕ → Timestamp)
    {f : DiscoveredPeer → Timestamp → DiscoveredPeer}
    (hf : ∀ p now, p.isValid = true → (f p now).nodeId = p.nodeId ∧ (f p now).isValid = true)
    (nodeId : Bytes) (ticks : ℕ) : (r.modify clock f nodeId ticks).2.1.Consistent := by
  unfold DiscoveryRegistry.modify
  cases r.get nodeId with
  | none => exact h
  | some _ =>
      apply KeyedMap.All.adjust h
      intro p ⟨hkey, hvalid⟩
      obtain ⟨hkey', hvalid'⟩ := hf p (clock ticks) hvalid
      exact ⟨hkey'.trans hkey, hvalid'⟩

/-- A valid state may be given to any peer. -/
theorem Consistent.withState (h : r.Consistent) (clock : ℕ → Timestamp)
    (state : DiscoveryPeerState) (hstate : state.isValid = true) (nodeId : Bytes) (ticks : ℕ) :
    (r.modify clock (fun peer now ↦ { peer with state }.touch now) nodeId
      ticks).2.1.Consistent := by
  apply h.modify
  intro p now hp
  exact ⟨rfl, Bool.and_eq_true_iff.mpr ⟨(Bool.and_eq_true_iff.mp hp).1, hstate⟩⟩

theorem Consistent.setState (h : r.Consistent) (clock : ℕ → Timestamp) (nodeId : Bytes)
    (state : DiscoveryPeerState) (ticks : ℕ) :
    (r.setState clock nodeId state ticks).2.1.Consistent := by
  unfold DiscoveryRegistry.setState
  split_ifs with hstate
  · exact h
  · exact h.withState clock state (by simpa using hstate) nodeId ticks

theorem Consistent.touchAt (h : r.Consistent) (nodeId : Bytes) (timestamp : Timestamp) :
    (r.touchAt nodeId timestamp).2.Consistent := by
  unfold DiscoveryRegistry.touchAt
  split_ifs
  · exact h
  · cases r.get nodeId with
    | none => exact h
    | some _ => exact KeyedMap.All.adjust h fun _ hp ↦ hp

theorem isValid_refreshPeer (now : Timestamp) (staleAfter expireAfter : Duration)
    {p : DiscoveredPeer} (hp : p.isValid = true) :
    (refreshPeer now staleAfter expireAfter p).1.isValid = true := by
  have ha : p.announcement.isValid = true := (Bool.and_eq_true_iff.mp hp).1
  unfold refreshPeer
  dsimp only
  split_ifs
  · exact hp
  · exact Bool.and_eq_true_iff.mpr ⟨ha, rfl⟩
  · exact Bool.and_eq_true_iff.mpr ⟨ha, rfl⟩
  · exact hp

theorem Consistent.refreshStates (h : r.Consistent) (now : Timestamp)
    (staleAfter expireAfter : Duration) :
    (r.refreshStates now staleAfter expireAfter).2.Consistent := by
  unfold DiscoveryRegistry.refreshStates
  split_ifs
  · exact h
  · apply KeyedMap.All.mapEntries h
    intro n p ⟨hkey, hvalid⟩
    have hsame := refreshPeer_announcement now staleAfter expireAfter p
    exact ⟨by rw [DiscoveredPeer.nodeId, hsame]; exact hkey, isValid_refreshPeer _ _ _ hvalid⟩

theorem Consistent.pruneExpired (h : r.Consistent) : r.pruneExpired.2.Consistent :=
  KeyedMap.All.filterEntries h _

theorem Consistent.apply (h : r.Consistent) (clock : ℕ → Timestamp) (op : Op) (ticks : ℕ) :
    (op.apply clock (r, ticks)).1.Consistent := by
  cases op with
  | upsert peer => exact h.upsert peer
  | upsertMoved peer =>
      rw [Op.apply, upsertMoved_eq]
      exact h.upsert peer
  | upsertAnnouncement a => exact h.upsertAnnouncement clock a ticks
  | erase nodeId => exact h.erase nodeId
  | setState nodeId state => exact h.setState clock nodeId state ticks
  | markDiscovered nodeId => exact h.withState clock .discovered rfl nodeId ticks
  | markAlive nodeId => exact h.withState clock .alive rfl nodeId ticks
  | markStale nodeId => exact h.withState clock .stale rfl nodeId ticks
  | markExpired nodeId => exact h.withState clock .expired rfl nodeId ticks
  | touch nodeId =>
      apply h.modify clock (f := DiscoveredPeer.touch)
      exact fun _ _ hp ↦ ⟨rfl, hp⟩
  | touchAt nodeId timestamp => exact h.touchAt nodeId timestamp
  | markError nodeId =>
      apply h.modify clock (f := DiscoveredPeer.markError)
      exact fun _ _ hp ↦ ⟨rfl, hp⟩
  | refreshStates now staleAfter expireAfter => exact h.refreshStates now staleAfter expireAfter
  | pruneExpired => exact h.pruneExpired
  | clear => exact consistent_empty

theorem Consistent.run (h : r.Consistent) (clock : ℕ → Timestamp) (ops : List Op) (ticks : ℕ) :
    (run clock ops (r, ticks)).1.Consistent := by
  induction ops generalizing r ticks with
  | nil => exact h
  | cons op ops ih => exact ih (h.apply clock op ticks) _

/-! ## The views -/

theorem mem_all (order : PeerOrder) (p : DiscoveredPeer) :
    p ∈ r.all order ↔ ∃ n, r.get n = some p := by
  simp only [all, List.mem_map, Shuffle.mem_order, KeyedMap.mem_entries_iff, get]
  constructor
  · rintro ⟨⟨n, q⟩, hq, rfl⟩
    exact ⟨n, hq⟩
  · rintro ⟨n, hn⟩
    exact ⟨⟨n, p⟩, hn, rfl⟩

theorem length_all (order : PeerOrder) (r : DiscoveryRegistry) :
    (r.all order).length = r.size := by
  rw [all, List.length_map, (order.perm _).length_eq, size]

theorem Consistent.keysMatch (h : r.Consistent) : r.KeysMatch := fun n p hp ↦ (h n p hp).1

theorem Consistent.nodup_all (h : r.Consistent) (order : PeerOrder) :
    ((r.all order).map DiscoveredPeer.nodeId).Nodup := by
  have hview := nodup_view h.keysMatch order fun _ ↦ true
  rw [List.filter_true] at hview
  rw [all, List.map_map]
  exact hview

/-- Any two iterations present the same peers of one state. -/
theorem byState_perm (state : DiscoveryPeerState) (order order' : PeerOrder)
    (r : DiscoveryRegistry) :
    ((r.all order).filter fun p ↦ p.state = state).Perm (r.byState state order') := by
  have hentries : (order.order r.peers.entries).Perm (order'.order r.peers.entries) :=
    (order.perm _).trans (order'.perm _).symm
  rw [all, List.filter_map, byState]
  exact (hentries.filter _).map _

theorem Consistent.partition (h : r.Consistent) (order o₁ o₂ o₃ o₄ : PeerOrder) :
    (r.all order).Perm (r.byState .discovered o₁ ++
      (r.alivePeers o₂ ++ (r.stalePeers o₃ ++ r.expiredPeers o₄))) := by
  have hclasses := perm_flatMap_filter DiscoveredPeer.state
    [.discovered, .alive, .stale, .expired] (by decide) (l := r.all order) <| by
      intro p hp
      obtain ⟨n, hn⟩ := (mem_all order p).mp hp
      have hstate := (Bool.and_eq_true_iff.mp (h n p hn).2).2
      simpa [DiscoveryPeerState.isValid, or_assoc] using hstate
  simp only [List.flatMap_cons, List.flatMap_nil, List.append_nil] at hclasses
  exact hclasses.trans ((byState_perm _ order o₁ r).append ((byState_perm _ order o₂ r).append
    ((byState_perm _ order o₃ r).append (byState_perm _ order o₄ r))))

/-- After any operations on an empty registry every entry is valid and stored
under its node id.  So `all` lists `size` peers of distinct node ids, `get`
finds the node it is asked for, and the four states divide the peers. -/
theorem run_consistent (clock : ℕ → Timestamp) (ops : List Op) (ticks : ℕ) :
    let r := (run clock ops ({}, ticks)).1
    (∀ n p, r.get n = some p → p.nodeId = n ∧ p.announcement.isValid = true ∧
      (p.state = .discovered ∨ p.state = .alive ∨ p.state = .stale ∨ p.state = .expired)) ∧
    (∀ order, (r.all order).length = r.size ∧
      ((r.all order).map DiscoveredPeer.nodeId).Nodup) ∧
    ∀ order o₁ o₂ o₃ o₄, (r.all order).Perm (r.byState .discovered o₁ ++
      (r.alivePeers o₂ ++ (r.stalePeers o₃ ++ r.expiredPeers o₄))) := by
  have h := consistent_empty.run clock ops ticks
  refine ⟨fun n p hp ↦ ?_, fun order ↦ ⟨length_all order _, h.nodup_all order⟩, h.partition⟩
  obtain ⟨hkey, hvalid⟩ := h n p hp
  obtain ⟨ha, hstate⟩ := Bool.and_eq_true_iff.mp hvalid
  exact ⟨hkey, ha, by simpa [DiscoveryPeerState.isValid, or_assoc] using hstate⟩

end DiscoveryRegistry

end Discovery
