import Discovery.AnnouncementCodec
import Discovery.Backend
import Discovery.Registry

/-!
# The discovery engine

`DiscoveryEngine` with the objects it refers to.  The engine owns a registry, a
status and the time of its last announcement; the context, the backend, the
process and the transport engine are threaded through every call.
-/

namespace Discovery

open DiscoveryEncoder DiscoveryDecoder

/-- The code outside the repository: the store's serializer and the transport
module.  The result of `connect_peer` is discarded by its only caller. -/
structure External (T : Type) where
  ser : Serializer
  peerInfoIsValid : PeerInfo → Bool
  transportIsRunning : T → Bool
  transportContains : T → Bytes → Bool
  connectPeer : T → PeerInfo → T

structure DiscoveryEngine where
  registry : DiscoveryRegistry := {}
  status : DiscoveryStatus := .stopped
  lastAnnounceAt : Timestamp := {}

/-- An engine with everything its references reach.  `connects` records each
call of `connect_peer` with the transport state it met. -/
structure Runtime (T : Type) where
  engine : DiscoveryEngine := {}
  context : DiscoveryContext T
  backend : UdpDiscoveryBackend
  world : World := {}
  connects : List (T × PeerInfo) := []

namespace DiscoveryEngine

variable {T : Type} (deps : External T) (os : Os)

/-! ## Messages and envelopes -/

def localNodeId (context : DiscoveryContext T) : Bytes :=
  match context.configChecked with
  | .error _ => []
  | .ok config => config.nodeId

def makeLocalAnnouncement (context : DiscoveryContext T) (w : World) :
    DiscoveryAnnouncement × World :=
  match context.configChecked with
  | .error _ => ({}, w)
  | .ok config =>
    let (now, w) := w.now os
    (.create (localNodeId context) config.announceHost config.announcePort now, w)

def makeCorrelationId (label : String) (w : World) : Bytes × World :=
  let (now, w) := w.now os
  (ascii label ++ ascii "-" ++ ascii (toString now.millis.toInt), w)

def makeAnnounceMessage (context : DiscoveryContext T) (w : World) : DiscoveryMessage × World :=
  let (announcement, w) := makeLocalAnnouncement os context w
  let payload := encodeAnnouncement deps.ser announcement
  let message := DiscoveryMessage.announce (localNodeId context) payload
  let (correlationId, w) := makeCorrelationId os "announce" w
  ({ message with correlationId }, w)

def makeProbeMessage (context : DiscoveryContext T) (w : World) : DiscoveryMessage × World :=
  let message := DiscoveryMessage.probe (localNodeId context)
  let (correlationId, w) := makeCorrelationId os "probe" w
  ({ message with correlationId }, w)

def makeReplyMessage (context : DiscoveryContext T) (toNodeId correlationId : Bytes) (w : World) :
    DiscoveryMessage × World :=
  let (announcement, w) := makeLocalAnnouncement os context w
  let payload := encodeAnnouncement deps.ser announcement
  let message := DiscoveryMessage.reply (localNodeId context) payload
  ({ message with toNodeId, correlationId }, w)

def makeOutboundEnvelope (message : DiscoveryMessage) (host : Bytes) (port : UInt16) (w : World) :
    DiscoveryEnvelope × World :=
  let (now, w) := w.now os
  (.outbound message host port now, w)

/-! ## Lifecycle -/

def isRunning (s : Runtime T) : Bool := s.engine.status.isRunning && s.backend.running

def start (s : Runtime T) : Bool × Runtime T :=
  if s.engine.status.isRunning then (true, s)
  else if !s.context.isValid then (false, { s with engine.status := .failed })
  else
    let s := { s with engine.status := .starting }
    let (ok, backend, world) := s.backend.start os s.world
    let s := { s with backend, world }
    if !ok then (false, { s with engine.status := .failed })
    else (true, { s with engine.lastAnnounceAt := {}, engine.status := .running })

def stop (s : Runtime T) : Runtime T :=
  if s.engine.status = .stopped then s
  else
    let s := { s with engine.status := .stopping }
    let s := { s with backend := s.backend.stop }
    let s := { s with engine.registry := s.engine.registry.clear }
    { s with engine.lastAnnounceAt := {}, engine.status := .stopped }

/-! ## Sending -/

def announceNow (s : Runtime T) : Bool × Runtime T :=
  if !isRunning s then (false, s) else
  match s.context.configChecked with
  | .error _ => (false, s)
  | .ok config =>
    let (message, w) := makeAnnounceMessage deps os s.context s.world
    let (envelope, w) := makeOutboundEnvelope os message config.broadcastHost config.broadcastPort w
    let (sent, w) := DiscoveryClient.send deps.ser os s.backend envelope w
    if sent then
      let (now, w) := w.now os
      (sent, { s with world := w, engine.lastAnnounceAt := now })
    else (sent, { s with world := w })

def probeNow (s : Runtime T) : Bool × Runtime T :=
  if !isRunning s then (false, s) else
  match s.context.configChecked with
  | .error _ => (false, s)
  | .ok config =>
    let (message, w) := makeProbeMessage os s.context s.world
    let (envelope, w) := makeOutboundEnvelope os message config.broadcastHost config.broadcastPort w
    let (sent, w) := DiscoveryClient.send deps.ser os s.backend envelope w
    (sent, { s with world := w })

/-! ## Time -/

def maybeAnnounce (s : Runtime T) : Runtime T :=
  match s.context.configChecked with
  | .error _ => s
  | .ok config =>
    let (now, w) := s.world.now os
    let s := { s with world := w }
    if !s.engine.lastAnnounceAt.isValid ∨
        now.millis - s.engine.lastAnnounceAt.millis ≥ config.announceInterval.millis then
      (announceNow deps os s).2
    else s

def refreshPeerStates (s : Runtime T) : Runtime T :=
  match s.context.configChecked with
  | .error _ => s
  | .ok config =>
    let (now, w) := s.world.now os
    let (_, registry) := s.engine.registry.refreshStates now
      (.fromMillis (config.peerTtl.millis / 2)) config.peerTtl
    { s with world := w, engine.registry := registry }

/-! ## Inbound messages -/

def upsertDiscoveredPeer (announcement : DiscoveryAnnouncement) (s : Runtime T) : Runtime T :=
  let (registry, ticks) :=
    s.engine.registry.upsertAnnouncement os.clock announcement s.world.ticks
  { s with engine.registry := registry, world.ticks := ticks }

def integrateWithTransport (announcement : DiscoveryAnnouncement) (s : Runtime T) : Runtime T :=
  let peer : PeerInfo := ⟨announcement.nodeId, announcement.host, announcement.port⟩
  if !deps.peerInfoIsValid peer then s else
  match s.context.transportChecked deps.transportIsRunning with
  | .error _ => s
  | .ok transport =>
    if deps.transportContains transport peer.nodeId then s
    else
      { s with
        context.transport := some (deps.connectPeer transport peer)
        connects := s.connects ++ [(transport, peer)] }

/-- The body that `handle_announce` and `handle_reply` share. -/
def handleAnnouncement (envelope : DiscoveryEnvelope) (s : Runtime T) : Bool × Runtime T :=
  match decodeAnnouncement deps.ser envelope.message.payload with
  | none => (false, s)
  | some announcement =>
    if !announcement.isValid then (false, s)
    else if announcement.nodeId == localNodeId s.context then (false, s)
    else
      let s := upsertDiscoveredPeer os announcement s
      (true, integrateWithTransport deps announcement s)

def handleAnnounce (envelope : DiscoveryEnvelope) (s : Runtime T) : Bool × Runtime T :=
  handleAnnouncement deps os envelope s

def handleProbe (envelope : DiscoveryEnvelope) (s : Runtime T) : Bool × Runtime T :=
  if !envelope.hasSource then (false, s) else
  let (reply, w) := makeReplyMessage deps os s.context envelope.message.fromNodeId
    envelope.message.correlationId s.world
  let (outbound, w) := makeOutboundEnvelope os reply envelope.fromHost envelope.fromPort w
  let (sent, w) := DiscoveryClient.send deps.ser os s.backend outbound w
  (sent, { s with world := w })

def handleReply (envelope : DiscoveryEnvelope) (s : Runtime T) : Bool × Runtime T :=
  handleAnnouncement deps os envelope s

/-- The checks and the dispatch of `poll_once` on an inbound envelope. -/
def dispatch (inbound : DiscoveryEnvelope) (s : Runtime T) : Bool × Runtime T :=
  if !inbound.message.isValid then (false, s)
  else if inbound.message.fromNodeId == localNodeId s.context then (false, s)
  else match inbound.message.type with
    | .announce => handleAnnounce deps os inbound s
    | .probe => handleProbe deps os inbound s
    | .reply => handleReply deps os inbound s
    | _ => (false, s)

/-- The part of `poll_once` that polls the backend. -/
def receive (s : Runtime T) : Bool × Runtime T :=
  let (inbound, w) := s.backend.poll deps.ser os s.world
  let s := { s with world := w }
  match inbound with
  | none => (false, s)
  | some inbound => dispatch deps os inbound s

/-- The part of `poll_once` that only depends on the time. -/
def timeDriven (s : Runtime T) : Runtime T :=
  refreshPeerStates os (maybeAnnounce deps os s)

def pollOnce (s : Runtime T) : Bool × Runtime T :=
  if !isRunning s then (false, s) else receive deps os (timeDriven deps os s)

/-- The loop of `poll_many`, with the rounds left and the messages processed. -/
def pollManyLoop : ℕ → ℕ → Runtime T → ℕ × Runtime T
  | 0, processed, s => (processed, s)
  | rounds + 1, processed, s =>
    let (ok, s) := pollOnce deps os s
    if !ok then (processed, s) else pollManyLoop rounds (processed + 1) s

def pollMany (maxMessages : ℕ) (s : Runtime T) : ℕ × Runtime T :=
  pollManyLoop deps os maxMessages 0 s

def availableTransportPeers (order : PeerOrder) (s : Runtime T) : List PeerInfo :=
  s.engine.registry.transportPeers deps.peerInfoIsValid order

def aliveTransportPeers (order : PeerOrder) (s : Runtime T) : List PeerInfo :=
  ((s.engine.registry.alivePeers order).map DiscoveredPeer.toPeerInfo).filter deps.peerInfoIsValid

/-! ## Operations -/

inductive Op where
  | start
  | stop
  | announceNow
  | probeNow
  | pollOnce
  | pollMany (maxMessages : ℕ)
deriving DecidableEq

def exec : Op → Runtime T → Runtime T
  | .start, s => (start os s).2
  | .stop, s => stop s
  | .announceNow, s => (announceNow deps os s).2
  | .probeNow, s => (probeNow deps os s).2
  | .pollOnce, s => (pollOnce deps os s).2
  | .pollMany maxMessages, s => (pollMany deps os maxMessages s).2

end DiscoveryEngine

end Discovery
