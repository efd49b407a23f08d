import Discovery.Inbound

/-!
# The exchange between two engines

An announcement, or a probe and its reply, travels from one running engine to
another and leaves each receiver with an alive entry for the sender.
-/

namespace Discovery

open DiscoveryEncoder DiscoveryDecoder

namespace DiscoveryEngine

variable {T : Type} {deps : External T} {os : Os} {s s' : Runtime T} {c c' : DiscoveryConfig}

def peerInfoOf (c : DiscoveryConfig) : PeerInfo := ⟨c.nodeId, c.announceHost, c.announcePort⟩

/-- `PeerInfo::is_valid` accepts every complete address record. -/
def PeerInfoAccepts (deps : External T) : Prop :=
  ∀ p : PeerInfo, p.nodeId ≠ [] → p.host ≠ [] → p.port ≠ 0 → deps.peerInfoIsValid p = true

/-- Between `s` and `s'` the engine met the node that `c` configures: the node
has an alive entry with its address, and a running transport engine that did
not contain the node was told to connect to it, once. -/
structure Met (deps : External T) (c : DiscoveryConfig) (s s' : Runtime T) : Prop where
  entry : ∃ peer, s'.engine.registry.get c.nodeId = some peer ∧ peer.state = .alive ∧
    peer.announcement.nodeId = c.nodeId ∧ peer.announcement.host = c.announceHost ∧
      peer.announcement.port = c.announcePort
  connected : ∀ t, s.context.transport = some t → deps.transportIsRunning t = true →
    deps.transportContains t c.nodeId = false →
      s'.connects = s.connects ++ [(t, peerInfoOf c)] ∧
        s'.context.transport = some (deps.connectPeer t (peerInfoOf c))
  spared : ∀ t, s.context.transport = some t →
    deps.transportIsRunning t = false ∨ deps.transportContains t c.nodeId = true →
      s'.connects = s.connects ∧ s'.context.transport = some t

/-! ## The transport hand-off -/

theorem integrateWithTransport_of_new (a : DiscoveryAnnouncement) {t : T}
    (hvalid : deps.peerInfoIsValid ⟨a.nodeId, a.host, a.port⟩ = true)
    (ht : s.context.transport = some t) (hrunning : deps.transportIsRunning t = true)
    (hnew : deps.transportContains t a.nodeId = false) :
    integrateWithTransport deps a s =
      { s with
        context.transport := some (deps.connectPeer t ⟨a.nodeId, a.host, a.port⟩)
        connects := s.connects ++ [(t, ⟨a.nodeId, a.host, a.port⟩)] } := by
  simp [integrateWithTransport, hvalid, DiscoveryContext.transportChecked, ht, hrunning, hnew]

theorem integrateWithTransport_of_known (a : DiscoveryAnnouncement) {t : T}
    (ht : s.context.transport = some t)
    (h : deps.transportIsRunning t = false ∨ deps.transportContains t a.nodeId = true) :
    integrateWithTransport deps a s = s := by
  unfold integrateWithTransport DiscoveryContext.transportChecked
  rw [ht]
  dsimp only
  split_ifs with hvalid hrunning
  · rfl
  · have hknown : deps.transportContains t a.nodeId = true :=
      h.resolve_left (by simp [hrunning])
    simp [hknown]
  · rfl

/-! ## Acceptance of an authored message -/

theorem announces_of_authored {ser : Serializer} (hser : ser.Lawful) (hc' : c'.Valid)
    (hfit : c'.SizesFit) {localId : Bytes} (hne : c'.nodeId ≠ localId) {m : DiscoveryMessage}
    (hm : Authored ser c' m) (htype : m.type = .announce ∨ m.type = .reply) {now : Timestamp}
    (hnow : now.isValid = true)
    (hpayload : m.payload = encodeAnnouncement ser (localAnnouncement c' now))
    {host : Bytes} {port : UInt16} (hsource : host ≠ [] ∧ port ≠ 0) :
    Announces ser localId host port (encodeMessage ser m) (localAnnouncement c' now) := by
  have hvalid := localAnnouncement_isValid hc' hnow
  have hmvalid : m.isValid = true :=
    isValid_of_sender hc' ((DiscoveryMessageType.isValid_iff _).mpr (by tauto)) hm.fromNodeId
  refine ⟨hsource, ⟨m, ?_, hmvalid, by rwa [hm.fromNodeId], htype, ?_⟩, hvalid, hne⟩
  · exact (MessageCodec.decodeMessage_eq_some_iff hser _ _).mpr ⟨hm.fits, hmvalid, rfl⟩
  · rw [hpayload]
    exact decodeAnnouncement_localPayload hser hfit hvalid

theorem met_of_nextReaction (hinfo : PeerInfoAccepts deps) (h : Live s c) (hc' : c'.Valid)
    {now : Timestamp} (hr : nextReaction deps c s = .accept (localAnnouncement c' now)) :
    (pollOnce deps os s).1 = true ∧ Met deps c' s (pollOnce deps os s).2 := by
  have hsteady := timeDriven_steady deps os s
  have heq := pollOnce_of_accept os h hr
  have hcontext (t : T) (ht : s.context.transport = some t) :
      (upsertDiscoveredPeer os (localAnnouncement c' now)
        (consumed (timeDriven deps os s) s.world.inbox.tail 2)).context.transport = some t :=
    (congrArg DiscoveryContext.transport hsteady.context).trans ht
  refine ⟨by rw [heq], ?_, fun t ht hrunning hnew ↦ ?_, fun t ht hknown ↦ ?_⟩
  · obtain ⟨⟨_, hget⟩, -⟩ := stored_of_accept os h hr
    exact ⟨_, hget, rfl, rfl, rfl, rfl⟩
  · have hvalid := hinfo (peerInfoOf c') hc'.nodeId hc'.announceHost hc'.announcePort
    rw [heq, integrateWithTransport_of_new (localAnnouncement c' now) hvalid (hcontext t ht)
      hrunning hnew, ← hsteady.connects]
    exact ⟨rfl, rfl⟩
  · rw [heq, integrateWithTransport_of_known (localAnnouncement c' now) (hcontext t ht) hknown]
    exact ⟨hsteady.connects, hcontext t ht⟩

/-! ## The exchange -/

/-- An engine of the exchange: it runs in a reachable state under `c`, whose
fields fit, and its system is in order. -/
structure Active (deps : External T) (os : Os) (s : Runtime T) (c : DiscoveryConfig) : Prop where
  reachable : Reachable deps os s
  isRunning : isRunning s = true
  config : s.context.config = some c
  fits : c.SizesFit
  clock : os.ClockPositive
  sends : os.SendsSucceed

theorem Active.live (h : Active deps os s c) : Live s c := h.reachable.live h.isRunning h.config

theorem Active.valid (h : Active deps os s c) : c.Valid := h.live.valid

/-- `s` is about to read `d`, arriving whole from a well-formed source. -/
structure Delivered (d : Datagram) (host : Bytes) (port : UInt16) (s : Runtime T) : Prop where
  source : host ≠ [] ∧ port ≠ 0
  size : d.payload.length ≤ s.backend.config.maxDatagramSize
  inbox : ∃ rest, s.world.inbox = .datagram host port d.payload :: rest

theorem Delivered.nextReaction_eq {d : Datagram} {host : Bytes} {port : UInt16}
    (hd : Delivered d host port s) :
    nextReaction deps c s = react deps.ser s.backend.config.maxDatagramSize c.nodeId
      (.datagram host port d.payload) := by
  obtain ⟨rest, hinbox⟩ := hd.inbox
  exact nextReaction_cons _ _ hinbox

theorem met_of_delivered (hser : deps.ser.Lawful) (hinfo : PeerInfoAccepts deps)
    (h : Active deps os s c) (hc' : c'.Valid) (hfit : c'.SizesFit) (hne : c'.nodeId ≠ c.nodeId)
    {m : DiscoveryMessage} (hm : Authored deps.ser c' m)
    (htype : m.type = .announce ∨ m.type = .reply) {now : Timestamp} (hnow : now.isValid = true)
    (hpayload : m.payload = encodeAnnouncement deps.ser (localAnnouncement c' now)) {d : Datagram}
    (hpay : d.payload = encodeMessage deps.ser m) {host : Bytes} {port : UInt16}
    (hd : Delivered d host port s) :
    (pollOnce deps os s).1 = true ∧ Met deps c' s (pollOnce deps os s).2 := by
  have hann := announces_of_authored hser hc' hfit hne hm htype hnow hpayload hd.source
  have hr : nextReaction deps c s = .accept (localAnnouncement c' now) := by
    rw [hd.nextReaction_eq, react_eq_accept_iff, List.take_of_length_le hd.size, hpay]
    exact hann
  exact met_of_nextReaction hinfo h.live hc' hr

theorem announceNow_success (hser : deps.ser.Lawful) (h : Active deps os s c)
    (hbroadcast : os.inetPton c.broadcastHost = true) :
    (announceNow deps os s).1 = true ∧ (announceNow deps os s).2.world.outbox =
      s.world.outbox ++ [⟨c.broadcastHost, c.broadcastPort, encodeMessage deps.ser
        (announceMessage deps.ser c (os.clock s.world.ticks) (os.clock (s.world.ticks + 1)))⟩] := by
  have hm : (announceEnvelope deps.ser os c s.world.ticks).isValid = true :=
    outbound_isValid (isValid_of_sender h.valid rfl rfl) (h.clock _) _ _
  rw [announceNow_eq h.isRunning h.live.config, clientSend_success hser h.sends h.live.backend
    h.live.socket hm h.valid.broadcastHost h.valid.broadcastPort hbroadcast]
  exact ⟨rfl, rfl⟩

theorem probeNow_success (hser : deps.ser.Lawful) (h : Active deps os s c)
    (hbroadcast : os.inetPton c.broadcastHost = true) :
    (probeNow deps os s).1 = true ∧ (probeNow deps os s).2.world.outbox =
      s.world.outbox ++ [⟨c.broadcastHost, c.broadcastPort, encodeMessage deps.ser
        (probeMessage c (os.clock s.world.ticks))⟩] := by
  have hm : (probeEnvelope os c s.world.ticks).isValid = true :=
    outbound_isValid (isValid_of_sender h.valid rfl rfl) (h.clock _) _ _
  rw [probeNow_eq h.isRunning h.live.config, clientSend_success hser h.sends h.live.backend
    h.live.socket hm h.valid.broadcastHost h.valid.broadcastPort hbroadcast]
  exact ⟨rfl, rfl⟩

theorem pollOnce_answer (hser : deps.ser.Lawful) (h : Live s c) (hclock : os.ClockPositive)
    (hsends : os.SendsSucceed) {m : DiscoveryMessage} {host : Bytes} {port : UInt16}
    (hhost : host ≠ []) (hport : port ≠ 0) (hpton : os.inetPton host = true)
    (hr : nextReaction deps c s = .answer m host port) :
    let e := replyEnvelope deps.ser os c m host port ((timeDriven deps os s).world.ticks + 2)
    (pollOnce deps os s).1 = true ∧
      (pollOnce deps os s).2.world.attempts = (timeDriven deps os s).world.attempts ++ [e] ∧
      (pollOnce deps os s).2.world.outbox = (timeDriven deps os s).world.outbox ++
        [⟨host, port, encodeMessage deps.ser e.message⟩] := by
  have he : (replyEnvelope deps.ser os c m host port
      ((timeDriven deps os s).world.ticks + 2)).isValid = true :=
    outbound_isValid (isValid_of_sender h.valid rfl rfl) (hclock _) _ _
  dsimp only
  rw [pollOnce_of_answer h hr]
  dsimp only
  rw [clientSend_success hser hsends h.backend h.socket he hhost hport hpton]
  exact ⟨rfl, rfl, rfl⟩

/-- An announcement reaches the other engine; a probe is answered with exactly
one reply, which reaches the prober. -/
theorem exchange_complete (hser : deps.ser.Lawful) (hinfo : PeerInfoAccepts deps) {osA : Os}
    (osB : Os) {A : Runtime T} {cA cB : DiscoveryConfig} (hA : Active deps osA A cA)
    (hbroadcast : osA.inetPton cA.broadcastHost = true) (hne : cA.nodeId ≠ cB.nodeId) :
    ((announceNow deps osA A).1 = true ∧
      ∃ d, (announceNow deps osA A).2.world.outbox = A.world.outbox ++ [d] ∧
        ∀ B host port, Active deps osB B cB → Delivered d host port B →
          (pollOnce deps osB B).1 = true ∧ Met deps cA B (pollOnce deps osB B).2) ∧
    ((probeNow deps osA A).1 = true ∧
      ∃ d probe, (probeNow deps osA A).2.world.outbox = A.world.outbox ++ [d] ∧
        decodeMessage deps.ser d.payload = some probe ∧
        ∀ B host port, Active deps osB B cB → osB.inetPton host = true → Delivered d host port B →
          let timed := (timeDriven deps osB B).world
          let B' := (pollOnce deps osB B).2
          AtMostOneAnnounce B.world timed ∧
          ∃ (e : DiscoveryEnvelope) (r : Datagram) (b : DiscoveryAnnouncement),
            B'.world.attempts = timed.attempts ++ [e] ∧ B'.world.outbox = timed.outbox ++ [r] ∧
            e.toHost = host ∧ e.toPort = port ∧ e.message.type = .reply ∧
            e.message.toNodeId = cA.nodeId ∧ e.message.correlationId = probe.correlationId ∧
            decodeAnnouncement deps.ser e.message.payload = some b ∧ b.nodeId = cB.nodeId ∧
            b.host = cB.announceHost ∧ b.port = cB.announcePort ∧
            r = ⟨host, port, encodeMessage deps.ser e.message⟩ ∧
            ∀ A' host' port', Active deps osA A' cA → Delivered r host' port' A' →
              (pollOnce deps osA A').1 = true ∧ Met deps cB A' (pollOnce deps osA A').2) := by
  obtain ⟨hannounce, houtbox⟩ := announceNow_success hser hA hbroadcast
  obtain ⟨hprobe, houtbox'⟩ := probeNow_success hser hA hbroadcast
  refine ⟨⟨hannounce, _, houtbox, fun B host port hB hd ↦ ?_⟩,
    ⟨hprobe, _, probeMessage cA (osA.clock A.world.ticks), houtbox', ?_,
      fun B host port hB hpton hd ↦ ⟨timeDriven_attempts B, ?_⟩⟩⟩
  · exact met_of_delivered hser hinfo hB hA.valid hA.fits hne
      (authored_announceMessage hser hA.fits _ _) (.inl rfl) (hA.clock _) rfl rfl hd
  · refine (MessageCodec.decodeMessage_eq_some_iff hser _ _).mpr ⟨?_, ?_, rfl⟩
    · exact (authored_probeMessage deps.ser hA.fits _).fits
    · exact isValid_of_sender hA.valid rfl rfl
  · have hvalid : (probeMessage cA (osA.clock A.world.ticks)).isValid = true :=
      (DiscoveryMessage.isValid_iff _).mpr ⟨rfl, hA.valid.nodeId⟩
    have hfits := (authored_probeMessage deps.ser hA.fits (osA.clock A.world.ticks)).fits
    have hr : nextReaction deps cB B =
        .answer (probeMessage cA (osA.clock A.world.ticks)) host port := by
      rw [hd.nextReaction_eq, react_eq_answer_iff, List.take_of_length_le hd.size]
      refine ⟨⟨hd.source, ?_, hvalid, hne, rfl⟩, rfl, rfl⟩
      exact (MessageCodec.decodeMessage_eq_some_iff hser _ _).mpr ⟨hfits, hvalid, rfl⟩
    obtain ⟨-, hattempts, hout⟩ := pollOnce_answer hser hB.live hB.clock hB.sends
      hd.source.1 hd.source.2 hpton hr
    have hnow := hB.clock ((timeDriven deps osB B).world.ticks + 2)
    refine ⟨_, _, _, hattempts, hout, rfl, rfl, rfl, rfl, rfl,
      decodeAnnouncement_localPayload hser hB.fits (localAnnouncement_isValid hB.valid hnow),
      rfl, rfl, rfl, rfl, fun A' host' port' hA' hd' ↦ ?_⟩
    exact met_of_delivered hser hinfo hA' hB.valid hB.fits hne.symm
      (authored_replyMessage hser hB.fits hfits _) (.inr rfl) hnow rfl rfl hd'

section Nodes

open Simulation

theorem active_started (nodeId : String) (port : UInt16)
    (hrunning : isRunning (started (system (ticking 1000)) nodeId port) = true)
    (hfit : (Simulation.config nodeId port).SizesFit)
    (hc : (started (system (ticking 1000)) nodeId port).context.config =
      some (Simulation.config nodeId port)) (inbox : List Arrival) :
    Active listing (system (ticking 1000))
      (environment inbox id 0 (started (system (ticking 1000)) nodeId port))
      (Simulation.config nodeId port) where
  reachable := .environment inbox id 0 (reachable_started _ _ _)
  isRunning := hrunning
  config := hc
  fits := hfit
  clock := clockPositive_ticking (by decide)
  sends := sendsSucceed_system _

theorem peerInfoAccepts_listing : PeerInfoAccepts listing :=
  fun p hid hhost hport ↦ (peerInfoIsValid_listing p).mpr ⟨hid, hhost, hport⟩

theorem exchange_complete_nodes :
    ∃ d, (announceNow listing (system (ticking 1000)) (environment [] id 0
        (started (system (ticking 1000)) "node-a" 9500))).2.world.outbox = [d] ∧
      (pollOnce listing (system (ticking 1000))
        (receiver [.datagram (ascii "127.0.0.1") 9500 d.payload])).1 = true := by
  have hA := active_started "node-a" 9500 (by decide) (by unfold DiscoveryConfig.SizesFit; decide)
    rfl []
  have hB (inbox : List Arrival) := active_started "node-b" 9400 (by decide)
    (by unfold DiscoveryConfig.SizesFit; decide) rfl inbox
  have hne : (Simulation.config "node-a" 9500).nodeId ≠
      (Simulation.config "node-b" 9400).nodeId := by decide
  obtain ⟨-, d, hd, hdeliver⟩ := (exchange_complete listing_lawful peerInfoAccepts_listing
    (system (ticking 1000)) hA rfl hne).1
  have hsize : (announceNow listing (system (ticking 1000)) (environment [] id 0
      (started (system (ticking 1000)) "node-a" 9500))).2.world.outbox.all
        (fun d ↦ decide (d.payload.length ≤ 64 * 1024)) = true := by decide
  rw [hd] at hsize
  refine ⟨d, hd, (hdeliver _ (ascii "127.0.0.1") 9500 (hB _) ⟨by decide, ?_, [], rfl⟩).1⟩
  simp only [List.all_append, List.all_cons, Bool.and_eq_true, decide_eq_true_eq] at hsize
  exact hsize.2.1

end Nodes

end DiscoveryEngine

end Discovery
