import Discovery.Core

/-!
# The operating system and the UDP socket

`Os` answers the system calls of one process: each field is a tape indexed by
the number of the call.  `World` counts the calls made so far, holds what the
network will deliver, and records what the process handed to the network.
`UdpSocket` is the Linux wrapper; its retries after `EINTR` end with another
outcome of the call, and that outcome is what the tapes hold.
-/

namespace Discovery

structure Timeval where
  sec : Int64 := 0
  usec : Int64 := 0
deriving DecidableEq

inductive SocketOption where
  | reuseAddr (enabled : Bool)
  | broadcast (enabled : Bool)
  | recvTimeout (timeout : Timeval)
  | sendTimeout (timeout : Timeval)
deriving DecidableEq

structure Os where
  clock : ℕ → Timestamp
  socket : ℕ → ℤ
  setsockopt : ℕ → SocketOption → ℤ
  bind : ℕ → ℤ
  sendto : ℕ → Bytes → ℤ
  inetPton : Bytes → Bool

/-- What one `recvfrom` meets: a failure (of `inet_ntop` too), or a datagram
with the text of its source address. -/
inductive Arrival where
  | failure
  | datagram (host : Bytes) (port : UInt16) (bytes : Bytes)
deriving DecidableEq

/-- `attempts` lists the envelopes handed to `DiscoveryClient::send` and
`outbox` the datagrams handed to `sendto`, both in order. -/
structure World where
  ticks : ℕ := 0
  calls : ℕ := 0
  inbox : List Arrival := []
  attempts : List DiscoveryEnvelope := []
  outbox : List Datagram := []

def World.now (os : Os) (w : World) : Timestamp × World :=
  (os.clock w.ticks, { w with ticks := w.ticks + 1 })

/-! ## The socket -/

/-- `fd` is negative when no descriptor is owned. -/
structure UdpSocket where
  fd : ℤ := -1
deriving DecidableEq

namespace UdpSocket

def isValid (socket : UdpSocket) : Bool := decide (0 ≤ socket.fd)

def close (socket : UdpSocket) : UdpSocket :=
  if socket.fd < 0 then socket else { fd := -1 }

def openSocket (os : Os) (_socket : UdpSocket) (w : World) : Bool × UdpSocket × World :=
  let fd := os.socket w.calls
  (decide (0 ≤ fd), { fd }, { w with calls := w.calls + 1 })

/-- `bind`; `make_sockaddr` is the test of the host by `inet_pton`. -/
def bind (os : Os) (socket : UdpSocket) (host : Bytes) (_port : UInt16) (w : World) :
    Bool × UdpSocket × World :=
  let (ready, socket, w) :=
    if socket.isValid then (true, socket, w) else socket.openSocket os w
  if !ready then (false, socket, w)
  else if !os.inetPton host then (false, socket, w)
  else (os.bind w.calls == 0, socket, { w with calls := w.calls + 1 })

def sendTo (os : Os) (socket : UdpSocket) (host : Bytes) (port : UInt16) (data : Bytes)
    (w : World) : ℕ × World :=
  if !socket.isValid || data.isEmpty then (0, w)
  else if !os.inetPton host then (0, w)
  else
    let sent := os.sendto w.calls data
    let w := { w with calls := w.calls + 1, outbox := w.outbox ++ [⟨host, port, data⟩] }
    if sent < 0 then (0, w) else (sent.toNat, w)

def sendDatagram (os : Os) (socket : UdpSocket) (datagram : Datagram) (w : World) : ℕ × World :=
  if !datagram.isValid then (0, w)
  else socket.sendTo os datagram.host datagram.port datagram.payload w

/-- The datagram that a receive buffer of `maxSize` bytes makes of an arrival. -/
def received (maxSize : ℕ) : Arrival → Datagram
  | .failure => {}
  | .datagram host port bytes =>
    if (bytes.take maxSize).isEmpty then {} else ⟨host, port, bytes.take maxSize⟩

/-- The buffer of `maxSize` bytes is taken to be allocated. -/
def recvDatagram (socket : UdpSocket) (maxSize : ℕ) (w : World) : Datagram × World :=
  if !socket.isValid || maxSize == 0 then ({}, w)
  else match w.inbox with
    | [] => ({}, w)
    | arrival :: inbox => (received maxSize arrival, { w with inbox })

/-! ### Options -/

def makeTimeval (timeout : Duration) : Timeval :=
  if timeout.millis ≤ 0 then {}
  else ⟨timeout.millis / 1000, timeout.millis % 1000 * 1000⟩

/-- The body that the four setters share. -/
def setOption (os : Os) (socket : UdpSocket) (option : SocketOption) (w : World) : Bool × World :=
  if !socket.isValid then (false, w)
  else (os.setsockopt w.calls option == 0, { w with calls := w.calls + 1 })

def setReuseAddr (os : Os) (socket : UdpSocket) (enabled : Bool) (w : World) : Bool × World :=
  socket.setOption os (.reuseAddr enabled) w

def setBroadcast (os : Os) (socket : UdpSocket) (enabled : Bool) (w : World) : Bool × World :=
  socket.setOption os (.broadcast enabled) w

def setRecvTimeout (os : Os) (socket : UdpSocket) (timeout : Duration) (w : World) :
    Bool × World :=
  socket.setOption os (.recvTimeout (makeTimeval timeout)) w

def setSendTimeout (os : Os) (socket : UdpSocket) (timeout : Duration) (w : World) :
    Bool × World :=
  socket.setOption os (.sendTimeout (makeTimeval timeout)) w

end UdpSocket

/-! ## Assumptions on the system -/

namespace Os

/-- Every clock reading is a valid timestamp. -/
def ClockPositive (os : Os) : Prop := ∀ i, (os.clock i).isValid = true

def ClockMonotone (os : Os) : Prop :=
  ∀ i j, i ≤ j → (os.clock i).millis.toInt ≤ (os.clock j).millis.toInt

/-- Every datagram handed to `sendto` is transmitted as a whole. -/
def SendsSucceed (os : Os) : Prop := ∀ i data, os.sendto i data = data.length

end Os

end Discovery
