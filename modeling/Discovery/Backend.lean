import Discovery.MessageCodec
import Discovery.Platform

/-!
# The UDP backend and the client in front of it

`UdpDiscoveryBackend` joins the socket to the message codec.  Its configuration
is a copy of its own.  `DiscoveryServer` only forwards to the backend and has no
definition here; `DiscoveryClient::send` checks an envelope before it does.
-/

namespace Discovery

open DiscoveryEncoder DiscoveryDecoder

structure UdpDiscoveryBackend where
  config : DiscoveryConfig := {}
  running : Bool := false
  socket : UdpSocket := {}
deriving DecidableEq

namespace UdpDiscoveryBackend

def configureSocket (os : Os) (backend : UdpDiscoveryBackend) (w : World) : Bool × World :=
  let (ok, w) := backend.socket.setReuseAddr os true w
  if !ok then (false, w) else
  let (ok, w) := backend.socket.setBroadcast os backend.config.enableBroadcast w
  if !ok then (false, w) else
  let (ok, w) := backend.socket.setRecvTimeout os backend.config.announceInterval w
  if !ok then (false, w) else
  let (ok, w) := backend.socket.setSendTimeout os backend.config.announceInterval w
  if !ok then (false, w) else (true, w)

def start (os : Os) (backend : UdpDiscoveryBackend) (w : World) :
    Bool × UdpDiscoveryBackend × World :=
  if backend.running then (true, backend, w)
  else if !backend.config.isValid then (false, backend, w)
  else
    let (ok, socket, w) := backend.socket.openSocket os w
    let backend := { backend with socket }
    if !ok then (false, backend, w) else
    let (ok, w) := backend.configureSocket os w
    if !ok then (false, { backend with socket := backend.socket.close }, w) else
    let (ok, socket, w) := backend.socket.bind os backend.config.bindHost backend.config.bindPort w
    let backend := { backend with socket }
    if !ok then (false, { backend with socket := backend.socket.close }, w)
    else (true, { backend with running := true }, w)

def stop (backend : UdpDiscoveryBackend) : UdpDiscoveryBackend :=
  { backend with running := false, socket := backend.socket.close }

def send (ser : Serializer) (os : Os) (backend : UdpDiscoveryBackend)
    (envelope : DiscoveryEnvelope) (w : World) : Bool × World :=
  if !backend.running || !envelope.isValid || !envelope.hasDestination then (false, w) else
  let datagram := makeDatagram ser envelope.message envelope.toHost envelope.toPort
  if !datagram.isValid then (false, w) else
  let (sent, w) := backend.socket.sendDatagram os datagram w
  (sent == datagram.payload.length, w)

/-- The constructor of the envelope stamps it, and `poll` stamps it again. -/
def poll (ser : Serializer) (os : Os) (backend : UdpDiscoveryBackend) (w : World) :
    Option DiscoveryEnvelope × World :=
  if !backend.running then (none, w) else
  let (datagram, w) := backend.socket.recvDatagram backend.config.maxDatagramSize w
  if !datagram.isValid then (none, w) else
  match decodeDatagram ser datagram with
  | none => (none, w)
  | some message =>
    let (now, w) := w.now os
    let envelope := DiscoveryEnvelope.ofMessage message now
    let envelope := { envelope with fromHost := datagram.host, fromPort := datagram.port }
    let (now, w) := w.now os
    (some { envelope with timestamp := now }, w)

end UdpDiscoveryBackend

namespace DiscoveryClient

def send (ser : Serializer) (os : Os) (backend : UdpDiscoveryBackend)
    (envelope : DiscoveryEnvelope) (w : World) : Bool × World :=
  let w := { w with attempts := w.attempts ++ [envelope] }
  if !envelope.isValid || !envelope.hasDestination then (false, w) else
  let (now, w) := w.now os
  backend.send ser os (envelope.markAttempt now) w

end DiscoveryClient

end Discovery
