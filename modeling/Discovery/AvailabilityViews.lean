import Discovery.EngineInvariant
import Discovery.RepeatedStart

/-!
# The two views of available peers

`available_transport_peers` skips the expired peers only, as its comment says,
while `peers` lists those whose state is available.  The first view therefore
contains the second, and it has the stale peers besides.
-/

namespace Discovery

/-- What the transport module is told of a public peer. -/
def Peer.contact (P : Peer) : PeerInfo := ⟨P.nodeId, P.host, P.port⟩

namespace DiscoveryService

open DiscoveryEngine

variable {T : Type} {deps : External T} {os : Os} {sv : DiscoveryService T}

/-! ## What each view lists -/

/-- Both views name the same nodes with the same addresses. -/
def ViewsAgree (deps : External T) (os : Os) (sv : DiscoveryService T) : Prop :=
  ∀ order order' i, i ∈ availableTransportPeers deps order sv.runtime ↔
    i ∈ (sv.peers os order').1.map Peer.contact

theorem mem_availableTransportPeers_iff {c : DiscoveryConfig} {s : Runtime T}
    (hinfo : ∀ i, deps.peerInfoIsValid i = true ↔ i.nodeId ≠ [] ∧ i.host ≠ [] ∧ i.port ≠ 0)
    (hreg : Registered os c s) (order : PeerOrder) (i : PeerInfo) :
    i ∈ availableTransportPeers deps order s ↔
      ∃ n p, s.engine.registry.get n = some p ∧ p.state ≠ .expired ∧ p.toPeerInfo = i := by
  rw [availableTransportPeers, DiscoveryRegistry.mem_transportPeers]
  constructor
  · rintro ⟨-, n, p, hp, hstate, rfl⟩
    exact ⟨n, p, hp, of_decide_eq_false hstate, rfl⟩
  · rintro ⟨n, p, hp, hstate, rfl⟩
    obtain ⟨hid, hhost, hport, -⟩ := (DiscoveryAnnouncement.isValid_iff _).mp (hreg.valid n p hp)
    exact ⟨(hinfo _).mpr ⟨hid, hhost, hport⟩, n, p, hp, decide_eq_false hstate, rfl⟩

theorem mem_peers_iff_available {c : DiscoveryConfig} (hclock : os.ClockPositive)
    (hreg : Registered os c sv.runtime) (order : PeerOrder) (P : Peer) :
    P ∈ (sv.peers os order).1 ↔
      ∃ n p, sv.runtime.engine.registry.get n = some p ∧ p.state.isAvailable = true ∧
        publicPeer p = P := by
  rw [mem_peers_iff]
  constructor
  · rintro ⟨-, hlisted⟩
    exact hlisted
  · rintro ⟨n, p, hp, havailable, rfl⟩
    have hmem : p ∈ sv.runtime.engine.registry.availablePeers .inOrder :=
      (DiscoveryRegistry.mem_availablePeers _ _).mpr ⟨havailable, n, hp⟩
    exact ⟨publicPeer_isValid_of_mem hclock hreg p hmem, n, p, hp, havailable, rfl⟩

theorem not_isAvailable_of_isUnavailable {state : DiscoveryPeerState}
    (h : state.isUnavailable = true) : state.isAvailable = false := by
  simp only [DiscoveryPeerState.isUnavailable, Bool.or_eq_true, decide_eq_true_eq] at h
  rcases h with (rfl | rfl) | rfl <;> rfl

theorem ne_expired_of_isAvailable {state : DiscoveryPeerState} (h : state.isAvailable = true) :
    state ≠ .expired := by
  rintro rfl
  cases h

/-! ## Comparison -/

theorem contact_mem_transport {c : DiscoveryConfig} (hclock : os.ClockPositive)
    (hinfo : ∀ i, deps.peerInfoIsValid i = true ↔ i.nodeId ≠ [] ∧ i.host ≠ [] ∧ i.port ≠ 0)
    (hreg : Registered os c sv.runtime) {order order' : PeerOrder} {P : Peer}
    (hP : P ∈ (sv.peers os order').1) :
    P.contact ∈ availableTransportPeers deps order sv.runtime := by
  obtain ⟨n, p, hp, havailable, rfl⟩ := (mem_peers_iff_available hclock hreg order' P).mp hP
  exact (mem_availableTransportPeers_iff hinfo hreg order _).mpr
    ⟨n, p, hp, ne_expired_of_isAvailable havailable, rfl⟩

/-- A node that `peers` lists has an entry whose state is available. -/
theorem isAvailable_of_mem_peers {c : DiscoveryConfig} {n : Bytes} {p : DiscoveredPeer}
    (hclock : os.ClockPositive) (hreg : Registered os c sv.runtime) {order : PeerOrder}
    (hp : sv.runtime.engine.registry.get n = some p)
    (hn : n ∈ (sv.peers os order).1.map Peer.nodeId) : p.state.isAvailable = true := by
  obtain ⟨P, hP, hid⟩ := List.mem_map.mp hn
  obtain ⟨m, q, hq, havailable, rfl⟩ := (mem_peers_iff_available hclock hreg order P).mp hP
  obtain rfl : m = n := (hreg.keys m q hq).symm.trans hid
  obtain rfl : q = p := Option.some.inj (hq.symm.trans hp)
  exact havailable

theorem viewsAgree_iff {c : DiscoveryConfig} (hclock : os.ClockPositive)
    (hinfo : ∀ i, deps.peerInfoIsValid i = true ↔ i.nodeId ≠ [] ∧ i.host ≠ [] ∧ i.port ≠ 0)
    (hreg : Registered os c sv.runtime) (hsettled : sv.runtime.engine.registry.Settled) :
    ViewsAgree deps os sv ↔
      ∀ n p, sv.runtime.engine.registry.get n = some p → p.state ≠ .stale := by
  constructor
  · intro hagree n p hp hstale
    have hmem : p.toPeerInfo ∈ availableTransportPeers deps .inOrder sv.runtime :=
      (mem_availableTransportPeers_iff hinfo hreg _ _).mpr
        ⟨n, p, hp, by rw [hstale]; decide, rfl⟩
    obtain ⟨P, hP, hcontact⟩ := List.mem_map.mp ((hagree .inOrder .inOrder _).mp hmem)
    have hid : P.nodeId = n := (congrArg PeerInfo.nodeId hcontact).trans (hreg.keys n p hp)
    have havailable := isAvailable_of_mem_peers hclock hreg hp (List.mem_map.mpr ⟨P, hP, hid⟩)
    rw [hstale] at havailable
    cases havailable
  · intro hfresh order order' i
    constructor
    · intro hi
      obtain ⟨n, p, hp, hexpired, rfl⟩ :=
        (mem_availableTransportPeers_iff hinfo hreg order i).mp hi
      have halive : p.state = .alive := by
        rcases hsettled n p hp with h | h | h
        · exact h
        · exact absurd h (hfresh n p hp)
        · exact absurd h hexpired
      have hlisted := (mem_peers_iff_available hclock hreg order' (publicPeer p)).mpr
        ⟨n, p, hp, by rw [halive]; rfl, rfl⟩
      exact List.mem_map.mpr ⟨publicPeer p, hlisted, rfl⟩
    · intro hi
      obtain ⟨P, hP, rfl⟩ := List.mem_map.mp hi
      exact contact_mem_transport hclock hinfo hreg hP

/-- `available_transport_peers` lists the peers that are not expired and `peers`
those that are available, each once and with the address of its entry.  The
first view contains the second, and they agree when no peer is stale. -/
theorem availability_views (hclock : os.ClockPositive)
    (hinfo : ∀ i, deps.peerInfoIsValid i = true ↔ i.nodeId ≠ [] ∧ i.host ≠ [] ∧ i.port ≠ 0)
    (h : Driven deps os sv) :
    let registry := sv.runtime.engine.registry
    (∀ order, ((availableTransportPeers deps order sv.runtime).map PeerInfo.nodeId).Nodup ∧
      ∀ i, i ∈ availableTransportPeers deps order sv.runtime ↔
        ∃ n p, registry.get n = some p ∧ p.state ≠ .expired ∧ p.toPeerInfo = i) ∧
    (∀ order, ((sv.peers os order).1.map Peer.nodeId).Nodup ∧
      (∀ P, P ∈ (sv.peers os order).1 ↔
        ∃ n p, registry.get n = some p ∧ p.state.isAvailable = true ∧ publicPeer p = P) ∧
      ∀ n p, registry.get n = some p → p.state.isUnavailable = true →
        n ∉ (sv.peers os order).1.map Peer.nodeId) ∧
    (∀ order order', ∀ P ∈ (sv.peers os order').1,
      P.contact ∈ availableTransportPeers deps order sv.runtime) ∧
    (ViewsAgree deps os sv ↔ ∀ n p, registry.get n = some p → p.state ≠ .stale) := by
  have hreg := h.runtime.registered h.setup.config
  have hsettled := (h.runtime.invariant h.setup.config).settled
  refine ⟨fun order ↦ ⟨DiscoveryRegistry.nodup_transportPeers hreg.keys _ order,
      mem_availableTransportPeers_iff hinfo hreg order⟩,
    fun order ↦ ⟨nodup_peers order hreg.keys, mem_peers_iff_available hclock hreg order, ?_⟩,
    fun order order' P hP ↦ contact_mem_transport hclock hinfo hreg hP,
    viewsAgree_iff hclock hinfo hreg hsettled⟩
  intro n p hp hunavailable hn
  have havailable := isAvailable_of_mem_peers hclock hreg hp hn
  rw [not_isAvailable_of_isUnavailable hunavailable] at havailable
  cases havailable

/-! ## The alive peers -/

theorem alivePeers_eq_availablePeers {r : DiscoveryRegistry} (hsettled : r.Settled)
    (order : PeerOrder) : r.alivePeers order = r.availablePeers order := by
  rw [DiscoveryRegistry.alivePeers, DiscoveryRegistry.byState, DiscoveryRegistry.availablePeers]
  refine congrArg (List.map _) (List.filter_congr fun e he ↦ ?_)
  have hget : r.get e.1 = some e.2 :=
    (Lib.KeyedMap.mem_entries_iff r.peers e).mp ((order.mem_order _ e).mp he)
  rcases hsettled e.1 e.2 hget with h | h | h <;>
    simp [DiscoveredPeer.available, h, DiscoveryPeerState.isAvailable]

/-- Of the views that the engine offers to the transport module,
`alive_transport_peers` is the one that shows what `peers` shows, in the same
order for the same order of the map. -/
theorem alive_views_agree (hclock : os.ClockPositive)
    (hinfo : ∀ i, deps.peerInfoIsValid i = true ↔ i.nodeId ≠ [] ∧ i.host ≠ [] ∧ i.port ≠ 0)
    (h : Driven deps os sv) (order : PeerOrder) :
    aliveTransportPeers deps order sv.runtime = (sv.peers os order).1.map Peer.contact ∧
      ∀ order', (aliveTransportPeers deps order' sv.runtime).Perm
        ((sv.peers os order).1.map Peer.contact) := by
  have hreg := h.runtime.registered h.setup.config
  have hsettled := (h.runtime.invariant h.setup.config).settled
  let registry := sv.runtime.engine.registry
  have hall : ∀ i ∈ (registry.availablePeers order).map DiscoveredPeer.toPeerInfo,
      deps.peerInfoIsValid i = true := by
    intro i hi
    obtain ⟨p, hp, rfl⟩ := List.mem_map.mp hi
    obtain ⟨-, n, hn⟩ := (DiscoveryRegistry.mem_availablePeers _ _).mp hp
    obtain ⟨hid, hhost, hport, -⟩ := (DiscoveryAnnouncement.isValid_iff _).mp (hreg.valid n p hn)
    exact (hinfo _).mpr ⟨hid, hhost, hport⟩
  have hpublic : ∀ P ∈ (registry.availablePeers order).map publicPeer, P.isValid = true := by
    intro P hP
    obtain ⟨p, hp, rfl⟩ := List.mem_map.mp hP
    exact publicPeer_isValid_of_mem hclock hreg p hp
  have hequal : aliveTransportPeers deps order sv.runtime =
      (sv.peers os order).1.map Peer.contact := by
    rw [aliveTransportPeers, alivePeers_eq_availablePeers hsettled, List.filter_eq_self.mpr hall,
      peers_eq, List.filter_eq_self.mpr hpublic, List.map_map]
    rfl
  refine ⟨hequal, fun order' ↦ ?_⟩
  have hentries : (order'.order registry.peers.entries).Perm
      (order.order registry.peers.entries) := (order'.perm _).trans (order.perm _).symm
  rw [← hequal]
  exact (((hentries.filter _).map _).map _).filter _

open Simulation in
theorem alive_views_agree_acquainted :
    (aliveTransportPeers listing .reversed acquainted.runtime).Perm
      ((acquainted.peers (system (ticking 100)) .inOrder).1.map Peer.contact) :=
  (alive_views_agree (clockPositive_ticking (by decide)) peerInfoIsValid_listing
    driven_acquainted .inOrder).2 .reversed

section Nodes

open Simulation

theorem availability_views_acquainted :
    ViewsAgree listing (system (ticking 100)) acquainted := by
  obtain ⟨-, -, -, hagree⟩ := availability_views (clockPositive_ticking (by decide))
    peerInfoIsValid_listing driven_acquainted
  refine hagree.mpr fun n p hp hstale ↦ ?_
  have hmem := (Lib.KeyedMap.mem_entries_iff acquainted.runtime.engine.registry.peers ⟨n, p⟩).mpr hp
  have hall : ∀ e ∈ acquainted.runtime.engine.registry.peers.entries, e.2.state ≠ .stale := by
    decide
  exact hall _ hmem hstale

/-- The stale `node-a` is handed to the transport module, and is no public peer. -/
theorem stale_peer_in_transport_view :
    Driven listing (system (ticking 100)) forsaken ∧
      (availableTransportPeers listing .inOrder forsaken.runtime).map PeerInfo.nodeId =
        [ascii "node-a"] ∧
      (forsaken.peers (system (ticking 100)) .inOrder).1 = [] ∧
      ¬ ViewsAgree listing (system (ticking 100)) forsaken := by
  have htransport : (availableTransportPeers listing .inOrder forsaken.runtime).map
      PeerInfo.nodeId = [ascii "node-a"] := by
    decide +kernel
  have hpeers : (forsaken.peers (system (ticking 100)) .inOrder).1 = [] := by
    decide +kernel
  refine ⟨driven_acquainted.after _ _ _, htransport, hpeers, fun hagree ↦ ?_⟩
  have hmem : ascii "node-a" ∈
      (availableTransportPeers listing .inOrder forsaken.runtime).map PeerInfo.nodeId := by
    simp [htransport]
  obtain ⟨i, hi, -⟩ := List.mem_map.mp hmem
  have hlisted := (hagree .inOrder .inOrder i).mp hi
  rw [hpeers] at hlisted
  cases hlisted

end Nodes

end DiscoveryService

end Discovery
