import Discovery.Core
import Discovery.Lib.KeyedMap

/-!
# Discovered peers and their registry

`DiscoveredPeer` and `DiscoveryRegistry`.  Functions that read the clock take
the readings, or the clock and the number of readings taken so far.  A view
that iterates over the hash map takes the iteration order as an argument.
-/

namespace Discovery

open Lib

structure DiscoveredPeer where
  announcement : DiscoveryAnnouncement := {}
  state : DiscoveryPeerState := .unknown
  lastSeenAt : Timestamp := {}
  errorCount : UInt32 := 0
deriving DecidableEq

namespace DiscoveredPeer

def ofAnnouncement (announcement : DiscoveryAnnouncement) (now : Timestamp) : DiscoveredPeer :=
  { announcement, state := .discovered, lastSeenAt := now }

def nodeId (peer : DiscoveredPeer) : Bytes := peer.announcement.nodeId

def isValid (peer : DiscoveredPeer) : Bool := peer.announcement.isValid && peer.state.isValid

def available (peer : DiscoveredPeer) : Bool := peer.state.isAvailable

def expired (peer : DiscoveredPeer) : Bool := peer.state = .expired

def touch (peer : DiscoveredPeer) (now : Timestamp) : DiscoveredPeer :=
  { peer with lastSeenAt := now }

def markDiscovered (peer : DiscoveredPeer) (now : Timestamp) : DiscoveredPeer :=
  { peer with state := .discovered }.touch now

def markAlive (peer : DiscoveredPeer) (now : Timestamp) : DiscoveredPeer :=
  { peer with state := .alive }.touch now

def markStale (peer : DiscoveredPeer) (now : Timestamp) : DiscoveredPeer :=
  { peer with state := .stale }.touch now

def markExpired (peer : DiscoveredPeer) (now : Timestamp) : DiscoveredPeer :=
  { peer with state := .expired }.touch now

def markError (peer : DiscoveredPeer) (now : Timestamp) : DiscoveredPeer :=
  { peer with errorCount := peer.errorCount + 1 }.touch now

def update (peer : DiscoveredPeer) (announcement : DiscoveryAnnouncement) (now : Timestamp) :
    DiscoveredPeer :=
  { peer with announcement }.markAlive now

def toPeerInfo (peer : DiscoveredPeer) : PeerInfo :=
  ⟨peer.announcement.nodeId, peer.announcement.host, peer.announcement.port⟩

end DiscoveredPeer

structure DiscoveryRegistry where
  peers : KeyedMap Bytes DiscoveredPeer := ∅

/-- An order in which the hash map of peers may be iterated. -/
abbrev PeerOrder := Shuffle (Entry Bytes DiscoveredPeer)

namespace DiscoveryRegistry

def get (r : DiscoveryRegistry) (nodeId : Bytes) : Option DiscoveredPeer := r.peers.lookup nodeId

def upsert (r : DiscoveryRegistry) (peer : DiscoveredPeer) : DiscoveryRegistry :=
  if !peer.isValid then r else { peers := r.peers.insert peer.nodeId peer }

/-- The overload that moves the peer keeps a copy of its key. -/
def upsertMoved (r : DiscoveryRegistry) (peer : DiscoveredPeer) : DiscoveryRegistry :=
  if !peer.isValid then r else
  let key := peer.nodeId
  { peers := r.peers.insert key peer }

/-- Inserting reads the clock twice, in the constructor of the peer and in
`mark_alive`; updating reads it once. -/
def upsertAnnouncement (clock : ℕ → Timestamp) (r : DiscoveryRegistry)
    (announcement : DiscoveryAnnouncement) (ticks : ℕ) : DiscoveryRegistry × ℕ :=
  if !announcement.isValid then (r, ticks) else
  match r.get announcement.nodeId with
  | some _ =>
    ({ peers := r.peers.adjust announcement.nodeId fun existing ↦
        existing.update announcement (clock ticks) }, ticks + 1)
  | none =>
    let peer := DiscoveredPeer.ofAnnouncement announcement (clock ticks)
    let peer := peer.markAlive (clock (ticks + 1))
    (r.upsert peer, ticks + 2)

def contains (r : DiscoveryRegistry) (nodeId : Bytes) : Bool := (r.get nodeId).isSome

def erase (r : DiscoveryRegistry) (nodeId : Bytes) : Bool × DiscoveryRegistry :=
  (r.contains nodeId, { peers := r.peers.erase nodeId })

/-- The body that the functions from `set_state` to `mark_error` share: what is
found is rewritten in place, with one reading of the clock. -/
def modify (clock : ℕ → Timestamp) (f : DiscoveredPeer → Timestamp → DiscoveredPeer)
    (r : DiscoveryRegistry) (nodeId : Bytes) (ticks : ℕ) : Bool × DiscoveryRegistry × ℕ :=
  match r.get nodeId with
  | none => (false, r, ticks)
  | some _ =>
    (true, { peers := r.peers.adjust nodeId fun peer ↦ f peer (clock ticks) }, ticks + 1)

def setState (clock : ℕ → Timestamp) (r : DiscoveryRegistry) (nodeId : Bytes)
    (state : DiscoveryPeerState) (ticks : ℕ) : Bool × DiscoveryRegistry × ℕ :=
  if !state.isValid then (false, r, ticks)
  else r.modify clock (fun peer now ↦ { peer with state }.touch now) nodeId ticks

def markDiscovered (clock : ℕ → Timestamp) (r : DiscoveryRegistry) (nodeId : Bytes) (ticks : ℕ) :
    Bool × DiscoveryRegistry × ℕ :=
  r.modify clock DiscoveredPeer.markDiscovered nodeId ticks

def markAlive (clock : ℕ → Timestamp) (r : DiscoveryRegistry) (nodeId : Bytes) (ticks : ℕ) :
    Bool × DiscoveryRegistry × ℕ :=
  r.modify clock DiscoveredPeer.markAlive nodeId ticks

def markStale (clock : ℕ → Timestamp) (r : DiscoveryRegistry) (nodeId : Bytes) (ticks : ℕ) :
    Bool × DiscoveryRegistry × ℕ :=
  r.modify clock DiscoveredPeer.markStale nodeId ticks

def markExpired (clock : ℕ → Timestamp) (r : DiscoveryRegistry) (nodeId : Bytes) (ticks : ℕ) :
    Bool × DiscoveryRegistry × ℕ :=
  r.modify clock DiscoveredPeer.markExpired nodeId ticks

def touch (clock : ℕ → Timestamp) (r : DiscoveryRegistry) (nodeId : Bytes) (ticks : ℕ) :
    Bool × DiscoveryRegistry × ℕ :=
  r.modify clock DiscoveredPeer.touch nodeId ticks

/-- The overload of `touch` with an explicit time. -/
def touchAt (r : DiscoveryRegistry) (nodeId : Bytes) (timestamp : Timestamp) :
    Bool × DiscoveryRegistry :=
  if !timestamp.isValid then (false, r) else
  match r.get nodeId with
  | none => (false, r)
  | some _ =>
    (true, { peers := r.peers.adjust nodeId fun peer ↦ { peer with lastSeenAt := timestamp } })

def markError (clock : ℕ → Timestamp) (r : DiscoveryRegistry) (nodeId : Bytes) (ticks : ℕ) :
    Bool × DiscoveryRegistry × ℕ :=
  r.modify clock DiscoveredPeer.markError nodeId ticks

/-- The body of the loop of `refresh_states`; the flag says whether the state
changed. -/
def refreshPeer (now : Timestamp) (staleAfter expireAfter : Duration) (peer : DiscoveredPeer) :
    DiscoveredPeer × Bool :=
  if !peer.lastSeenAt.isValid then (peer, false) else
  let ageMs := now.millis - peer.lastSeenAt.millis
  if ageMs ≥ expireAfter.millis ∧ peer.state ≠ .expired then
    ({ peer with state := .expired }, true)
  else if ageMs ≥ staleAfter.millis ∧ peer.state ≠ .stale then
    ({ peer with state := .stale }, true)
  else (peer, false)

def refreshStates (r : DiscoveryRegistry) (now : Timestamp) (staleAfter expireAfter : Duration) :
    ℕ × DiscoveryRegistry :=
  if !now.isValid then (0, r) else
  (r.peers.entries.countP fun e ↦ (refreshPeer now staleAfter expireAfter e.2).2,
    { peers := r.peers.mapEntries fun _ peer ↦ (refreshPeer now staleAfter expireAfter peer).1 })

def pruneExpired (r : DiscoveryRegistry) : ℕ × DiscoveryRegistry :=
  (r.peers.entries.countP fun e ↦ e.2.expired,
    { peers := r.peers.filterEntries fun _ peer ↦ !peer.expired })

def size (r : DiscoveryRegistry) : ℕ := r.peers.entries.length

def clear (_r : DiscoveryRegistry) : DiscoveryRegistry := {}

def all (order : PeerOrder) (r : DiscoveryRegistry) : List DiscoveredPeer :=
  (order.order r.peers.entries).map fun e ↦ e.2

/-- `infoValid` is the transport module's `PeerInfo::is_valid`. -/
def transportPeers (infoValid : PeerInfo → Bool) (order : PeerOrder) (r : DiscoveryRegistry) :
    List PeerInfo :=
  ((order.order r.peers.entries).filter fun e ↦
    !e.2.expired && infoValid e.2.toPeerInfo).map fun e ↦ e.2.toPeerInfo

def availablePeers (order : PeerOrder) (r : DiscoveryRegistry) : List DiscoveredPeer :=
  ((order.order r.peers.entries).filter fun e ↦ e.2.available).map fun e ↦ e.2

def byState (state : DiscoveryPeerState) (order : PeerOrder) (r : DiscoveryRegistry) :
    List DiscoveredPeer :=
  ((order.order r.peers.entries).filter fun e ↦ e.2.state = state).map fun e ↦ e.2

def alivePeers (order : PeerOrder) (r : DiscoveryRegistry) : List DiscoveredPeer :=
  r.byState .alive order

def stalePeers (order : PeerOrder) (r : DiscoveryRegistry) : List DiscoveredPeer :=
  r.byState .stale order

def expiredPeers (order : PeerOrder) (r : DiscoveryRegistry) : List DiscoveredPeer :=
  r.byState .expired order

/-! ## Lookups after the operations -/

variable {r : DiscoveryRegistry}

@[simp] theorem get_empty (n : Bytes) : ({} : DiscoveryRegistry).get n = none := rfl

theorem get_upsert_self {peer : DiscoveredPeer} (hp : peer.isValid = true) :
    (r.upsert peer).get peer.nodeId = some peer := by
  simp [upsert, hp, get]

theorem get_upsert_ne {peer : DiscoveredPeer} {n : Bytes} (h : n ≠ peer.nodeId) :
    (r.upsert peer).get n = r.get n := by
  unfold upsert
  split
  · rfl
  · exact AList.lookup_insert_ne h

def refreshed (r : DiscoveryRegistry) (a : DiscoveryAnnouncement) (now : Timestamp) :
    DiscoveredPeer where
  announcement := a
  state := .alive
  lastSeenAt := now
  errorCount := ((r.get a.nodeId).map DiscoveredPeer.errorCount).getD 0

theorem get_upsertAnnouncement_self (clock : ℕ → Timestamp) {a : DiscoveryAnnouncement}
    (ha : a.isValid = true) (ticks : ℕ) :
    ∃ i, ticks ≤ i ∧ (r.upsertAnnouncement clock a ticks).2 = i + 1 ∧
      (r.upsertAnnouncement clock a ticks).1.get a.nodeId = some (r.refreshed a (clock i)) := by
  unfold upsertAnnouncement
  simp only [ha, Bool.not_true, Bool.false_eq_true, if_false]
  cases hget : r.get a.nodeId with
  | some old =>
      refine ⟨ticks, le_rfl, rfl, ?_⟩
      have hold : r.peers.lookup a.nodeId = some old := hget
      simp [get, hold, refreshed, DiscoveredPeer.update, DiscoveredPeer.markAlive,
        DiscoveredPeer.touch]
  | none =>
      refine ⟨ticks + 1, Nat.le_succ _, rfl, ?_⟩
      have hvalid : ((DiscoveredPeer.ofAnnouncement a (clock ticks)).markAlive
          (clock (ticks + 1))).isValid = true := by
        simp [DiscoveredPeer.isValid, DiscoveredPeer.markAlive, DiscoveredPeer.touch,
          DiscoveredPeer.ofAnnouncement, ha, DiscoveryPeerState.isValid]
      have hself := get_upsert_self (r := r) hvalid
      simp only [refreshed, hget, Option.map_none, Option.getD_none]
      exact hself

theorem get_upsertAnnouncement_ne (clock : ℕ → Timestamp) {a : DiscoveryAnnouncement} {n : Bytes}
    (h : n ≠ a.nodeId) (ticks : ℕ) :
    (r.upsertAnnouncement clock a ticks).1.get n = r.get n := by
  unfold upsertAnnouncement
  split
  · rfl
  · cases r.get a.nodeId with
    | some old => exact KeyedMap.lookup_adjust_ne h _ _
    | none => exact get_upsert_ne h

theorem get_refreshStates (now : Timestamp) (staleAfter expireAfter : Duration) (n : Bytes) :
    (r.refreshStates now staleAfter expireAfter).2.get n =
      if now.isValid then
        (r.get n).map fun peer ↦ (refreshPeer now staleAfter expireAfter peer).1
      else r.get n := by
  unfold refreshStates
  cases h : now.isValid <;> simp [get]

@[simp] theorem refreshPeer_announcement (now : Timestamp) (s e : Duration) (p : DiscoveredPeer) :
    (refreshPeer now s e p).1.announcement = p.announcement := by
  unfold refreshPeer
  dsimp only
  split_ifs <;> rfl

@[simp] theorem refreshPeer_lastSeenAt (now : Timestamp) (s e : Duration) (p : DiscoveredPeer) :
    (refreshPeer now s e p).1.lastSeenAt = p.lastSeenAt := by
  unfold refreshPeer
  dsimp only
  split_ifs <;> rfl

/-- The state that one refresh leaves, in terms of the true age. -/
theorem refreshPeer_state {now : Timestamp} {p : DiscoveredPeer} (hnow : now.isValid = true)
    (hseen : p.lastSeenAt.isValid = true) (staleAfter expireAfter : Duration) :
    (refreshPeer now staleAfter expireAfter p).1.state =
      if expireAfter.millis.toInt ≤ now.millis.toInt - p.lastSeenAt.millis.toInt ∧
          p.state ≠ .expired then .expired
      else if staleAfter.millis.toInt ≤ now.millis.toInt - p.lastSeenAt.millis.toInt then .stale
      else p.state := by
  have hage := toInt_sub_of_pos ((Timestamp.isValid_iff _).mp hnow)
    ((Timestamp.isValid_iff _).mp hseen)
  unfold refreshPeer
  simp only [hseen, Bool.not_true, Bool.false_eq_true, if_false, ge_iff_le,
    Int64.le_iff_toInt_le, hage]
  split_ifs with h₁ h₂ h₃ h₄ <;> simp_all

/-! ## Views -/

theorem mem_availablePeers (order : PeerOrder) (p : DiscoveredPeer) :
    p ∈ r.availablePeers order ↔ p.available = true ∧ ∃ n, r.get n = some p := by
  simp only [availablePeers, List.mem_map, List.mem_filter, Shuffle.mem_order,
    KeyedMap.mem_entries_iff, get]
  constructor
  · rintro ⟨⟨n, q⟩, ⟨hq, ha⟩, rfl⟩
    exact ⟨ha, n, hq⟩
  · rintro ⟨ha, n, hn⟩
    exact ⟨⟨n, p⟩, ⟨hn, ha⟩, rfl⟩

theorem mem_transportPeers (infoValid : PeerInfo → Bool) (order : PeerOrder) (i : PeerInfo) :
    i ∈ r.transportPeers infoValid order ↔
      infoValid i = true ∧ ∃ n p, r.get n = some p ∧ p.expired = false ∧ p.toPeerInfo = i := by
  simp only [transportPeers, List.mem_map, List.mem_filter, Shuffle.mem_order,
    KeyedMap.mem_entries_iff, get, Bool.and_eq_true, Bool.not_eq_true']
  constructor
  · rintro ⟨⟨n, q⟩, ⟨hq, he, hi⟩, rfl⟩
    exact ⟨hi, n, q, hq, he, rfl⟩
  · rintro ⟨hi, n, p, hn, he, rfl⟩
    exact ⟨⟨n, p⟩, ⟨hn, he, hi⟩, rfl⟩

def KeysMatch (r : DiscoveryRegistry) : Prop := ∀ n p, r.get n = some p → p.nodeId = n

/-- A view that filters the entries lists no node twice. -/
theorem nodup_view (h : r.KeysMatch) (order : PeerOrder)
    (q : Entry Bytes DiscoveredPeer → Bool) :
    (((order.order r.peers.entries).filter q).map fun e ↦ e.2.nodeId).Nodup := by
  have hkeys : (((order.order r.peers.entries).filter q).map fun e ↦ e.2.nodeId) =
      ((order.order r.peers.entries).filter q).map Sigma.fst := by
    apply List.map_congr_left
    intro e he
    have hmem := (Shuffle.mem_order order _ _).mp (List.mem_filter.mp he).1
    exact h _ _ ((KeyedMap.mem_entries_iff _ _).mp hmem)
  rw [hkeys]
  exact (order.nodup_keys r.peers).sublist (List.filter_sublist.map Sigma.fst)

theorem nodup_availablePeers (h : r.KeysMatch) (order : PeerOrder) :
    ((r.availablePeers order).map DiscoveredPeer.nodeId).Nodup := by
  rw [availablePeers, List.map_map]
  exact nodup_view h order _

theorem nodup_transportPeers (h : r.KeysMatch) (infoValid : PeerInfo → Bool) (order : PeerOrder) :
    ((r.transportPeers infoValid order).map PeerInfo.nodeId).Nodup := by
  rw [transportPeers, List.map_map]
  exact nodup_view h order _

end DiscoveryRegistry

end Discovery
