import Discovery.Interference

/-!
# The Windows socket beside the Linux one

The Windows wrapper hands at most `INT_MAX` bytes to a system call, does not cut
a datagram that is too long for the receive buffer but fails, and sets its
timeouts as a number of milliseconds.  Since a cut message never decodes, engines
on the two platforms take the same steps on all that engines send.
-/

namespace Discovery

open DiscoveryEncoder DiscoveryDecoder

namespace Windows

/-- `INT_MAX`. -/
def intMax : ℕ := 2147483647

def chunkSize (remaining : ℕ) : ℕ := min remaining intMax

def makeTimeoutMs (timeout : Duration) : UInt32 :=
  if timeout.millis ≤ 0 then 0
  else if timeout.millis > 4294967295 then 4294967295
  else timeout.millis.toUInt64.toUInt32

structure UdpSocket where
  socket : UInt64 := 0xffffffffffffffff
deriving DecidableEq

namespace UdpSocket

def isValid (s : UdpSocket) : Bool := s.socket != 0xffffffffffffffff

/-- An error is `SOCKET_ERROR`, which is -1; any other result is cast to `size_t`. -/
def sendTo (os : Os) (s : UdpSocket) (host : Bytes) (port : UInt16) (data : Bytes) (w : World) :
    ℕ × World :=
  if !s.isValid || data.isEmpty then (0, w)
  else if !os.inetPton host then (0, w)
  else
    let chunk := data.take (chunkSize data.length)
    let sent := os.sendto w.calls chunk
    let w := { w with calls := w.calls + 1, outbox := w.outbox ++ [⟨host, port, chunk⟩] }
    if sent = -1 then (0, w) else ((sent % 2 ^ 64).toNat, w)

def sendDatagram (os : Os) (s : UdpSocket) (datagram : Datagram) (w : World) : ℕ × World :=
  if !datagram.isValid then (0, w)
  else s.sendTo os datagram.host datagram.port datagram.payload w

/-- What one `recvfrom` leaves in a buffer of `maxSize` bytes.  A datagram that is
longer than the buffer is the error `WSAEMSGSIZE`. -/
def received (maxSize : ℕ) : Arrival → Datagram
  | .failure => {}
  | .datagram host port bytes =>
    if chunkSize maxSize < bytes.length then {}
    else if bytes.isEmpty then {} else ⟨host, port, bytes⟩

def recvDatagram (s : UdpSocket) (maxSize : ℕ) (w : World) : Datagram × World :=
  if !s.isValid || maxSize == 0 then ({}, w)
  else match w.inbox with
    | [] => ({}, w)
    | arrival :: inbox => (received maxSize arrival, { w with inbox })

end UdpSocket

/-! ## The backend over the Windows socket -/

structure UdpDiscoveryBackend where
  config : DiscoveryConfig := {}
  running : Bool := false
  socket : UdpSocket := {}

namespace UdpDiscoveryBackend

def send (ser : Serializer) (os : Os) (backend : UdpDiscoveryBackend)
    (envelope : DiscoveryEnvelope) (w : World) : Bool × World :=
  if !backend.running || !envelope.isValid || !envelope.hasDestination then (false, w) else
  let datagram := makeDatagram ser envelope.message envelope.toHost envelope.toPort
  if !datagram.isValid then (false, w) else
  let (sent, w) := backend.socket.sendDatagram os datagram w
  (sent == datagram.payload.length, w)

def poll (ser : Serializer) (os : Os) (backend : UdpDiscoveryBackend) (w : World) :
    Option DiscoveryEnvelope × World :=
  if !backend.running then (none, w) else
  let (datagram, w) := backend.socket.recvDatagram backend.config.maxDatagramSize w
  if !datagram.isValid then (none, w) else
  match decodeDatagram ser datagram with
  | none => (none, w)
  | some message =>
    let (now, w) := w.now os
    let envelope := DiscoveryEnvelope.ofMessage message now
    let envelope := { envelope with fromHost := datagram.host, fromPort := datagram.port }
    let (now, w) := w.now os
    (some { envelope with timestamp := now }, w)

end UdpDiscoveryBackend

/-- The two backends are in the same state, up to the representation of handles. -/
structure SameBackend (b : UdpDiscoveryBackend) (b' : Discovery.UdpDiscoveryBackend) : Prop where
  config : b.config = b'.config
  running : b.running = b'.running
  socket : b.socket.isValid = b'.socket.isValid

/-! ## Timeouts -/

/-- The timeout that a `timeval` stands for, in microseconds. -/
def micros (t : Timeval) : ℤ := t.sec.toInt * 1000000 + t.usec.toInt

theorem toNat_makeTimeoutMs (d : Duration) :
    ((makeTimeoutMs d).toNat : ℤ) = min (max d.millis.toInt 0) 4294967295 := by
  have hlimit : (4294967295 : Int64).toInt = 4294967295 := by decide
  unfold makeTimeoutMs
  split_ifs with hneg hbig
  · rw [Int64.le_iff_toInt_le, Int64.toInt_zero] at hneg
    rw [UInt32.toNat_zero]
    omega
  · rw [gt_iff_lt, Int64.lt_iff_toInt_lt, hlimit] at hbig
    have hmax : (4294967295 : UInt32).toNat = 4294967295 := by decide
    rw [hmax]
    omega
  · rw [Int64.le_iff_toInt_le, Int64.toInt_zero] at hneg
    rw [gt_iff_lt, Int64.lt_iff_toInt_lt, hlimit] at hbig
    have hnonneg : (0 : Int64) ≤ d.millis := by
      rw [Int64.le_iff_toInt_le, Int64.toInt_zero]
      omega
    have hword : d.millis.toUInt64.toNat = d.millis.toInt.toNat :=
      Int64.toNat_toUInt64_of_le hnonneg
    rw [UInt64.toNat_toUInt32, hword]
    omega

/-- The two parts of a `timeval` are what the quotient and the remainder say:
the multiplication by 1000 does not overflow. -/
theorem toInt_makeTimeval {d : Duration} (hd : 0 < d.millis.toInt) :
    (Discovery.UdpSocket.makeTimeval d).sec.toInt = d.millis.toInt / 1000 ∧
      (Discovery.UdpSocket.makeTimeval d).usec.toInt = d.millis.toInt % 1000 * 1000 := by
  have hpos : ¬ d.millis ≤ 0 := by
    rw [Int64.le_iff_toInt_le, Int64.toInt_zero]
    omega
  have hlt := d.millis.toInt_lt
  have hthousand : (1000 : Int64).toInt = 1000 := by decide
  unfold Discovery.UdpSocket.makeTimeval
  rw [if_neg hpos]
  dsimp only
  constructor
  · rw [Int64.toInt_div, hthousand, Int.tdiv_eq_ediv_of_nonneg (by omega), Int.bmod_eq_of_le] <;>
      omega
  · rw [Int64.toInt_mul, Int64.toInt_mod, hthousand, Int.tmod_eq_emod_of_nonneg (by omega),
      Int.bmod_eq_of_le] <;> omega

/-- On Linux every duration is set exactly, as a normalised `timeval`; on Windows
it is cut off at the largest `DWORD`.  The platforms wait equally long if and
only if the duration is below 2^32 milliseconds. -/
theorem timeouts_agree_iff (d : Duration) :
    let t := Discovery.UdpSocket.makeTimeval d
    (0 ≤ t.sec.toInt ∧ 0 ≤ t.usec.toInt ∧ t.usec.toInt < 1000000) ∧
      micros t = 1000 * max d.millis.toInt 0 ∧
      ((makeTimeoutMs d).toNat : ℤ) = min (max d.millis.toInt 0) 4294967295 ∧
      (micros t = 1000 * (makeTimeoutMs d).toNat ↔ d.millis.toInt < 4294967296) := by
  have hwindows := toNat_makeTimeoutMs d
  have hlinux : (0 ≤ (Discovery.UdpSocket.makeTimeval d).sec.toInt ∧
      0 ≤ (Discovery.UdpSocket.makeTimeval d).usec.toInt ∧
      (Discovery.UdpSocket.makeTimeval d).usec.toInt < 1000000) ∧
      micros (Discovery.UdpSocket.makeTimeval d) = 1000 * max d.millis.toInt 0 := by
    unfold micros
    by_cases hd : 0 < d.millis.toInt
    · obtain ⟨hsec, husec⟩ := toInt_makeTimeval hd
      rw [hsec, husec]
      omega
    · have hzero : Discovery.UdpSocket.makeTimeval d = {} := by
        have hle : d.millis ≤ 0 := by
          rw [Int64.le_iff_toInt_le, Int64.toInt_zero]
          omega
        rw [Discovery.UdpSocket.makeTimeval, if_pos hle]
      rw [hzero, Int64.toInt_zero]
      omega
  refine ⟨hlinux.1, hlinux.2, hwindows, ?_⟩
  rw [hlinux.2, hwindows]
  omega

/-! ## Receiving -/

/-- What the Windows socket makes of an arrival before the Linux one would see it. -/
def deliver (maxSize : ℕ) : Arrival → Arrival
  | .failure => .failure
  | .datagram host port bytes =>
    if chunkSize maxSize < bytes.length then .failure else .datagram host port bytes

theorem received_eq (maxSize : ℕ) (arrival : Arrival) :
    UdpSocket.received maxSize arrival =
      Discovery.UdpSocket.received maxSize (deliver maxSize arrival) := by
  cases arrival with
  | failure => rfl
  | datagram host port bytes =>
      unfold UdpSocket.received deliver
      dsimp only
      split_ifs with hlong hempty
      · rfl
      · simp [Discovery.UdpSocket.received, List.isEmpty_iff.mp hempty]
      · have hfit : bytes.length ≤ maxSize := by
          unfold chunkSize at hlong
          omega
        simp [Discovery.UdpSocket.received, List.take_of_length_le hfit, hempty]

variable {ser : Serializer} {os : Os} {b : UdpDiscoveryBackend}
  {b' : Discovery.UdpDiscoveryBackend}

theorem poll_of_inbox (hrunning : b.running = true) (hsocket : b.socket.isValid = true)
    (hmax : b.config.maxDatagramSize ≠ 0) {w : World} {arrival : Arrival} {rest : List Arrival}
    (hinbox : w.inbox = arrival :: rest) :
    b.poll ser os w =
      let r := envelopeOf os w.ticks
        (seen ser b.config.maxDatagramSize (deliver b.config.maxDatagramSize arrival))
      (r.1, { w with inbox := rest, ticks := r.2 }) := by
  have hmax' : (b.config.maxDatagramSize == 0) = false := beq_false_of_ne hmax
  simp only [UdpDiscoveryBackend.poll, hrunning, UdpSocket.recvDatagram, hsocket, hmax', hinbox,
    Bool.not_true, Bool.or_self, Bool.false_eq_true, if_false, received_eq, seen]
  cases hvalid : (Discovery.UdpSocket.received b.config.maxDatagramSize
      (deliver b.config.maxDatagramSize arrival)).isValid with
  | false => simp [decodeDatagram, hvalid, envelopeOf]
  | true =>
      simp only [Bool.not_true, Bool.false_eq_true, if_false]
      cases decodeDatagram ser (Discovery.UdpSocket.received b.config.maxDatagramSize
          (deliver b.config.maxDatagramSize arrival)) with
      | none => simp [envelopeOf]
      | some m =>
          simp [World.now, DiscoveryEnvelope.ofMessage, DiscoveryEngine.inboundEnvelope, envelopeOf]

theorem poll_of_deaf {w : World} (hdeaf : b.running = false ∨ b.socket.isValid = false ∨
    b.config.maxDatagramSize = 0 ∨ w.inbox = []) : b.poll ser os w = (none, w) := by
  have hempty : Datagram.isValid {} = false := rfl
  rcases hdeaf with h | h | h | h <;>
    simp [UdpDiscoveryBackend.poll, UdpSocket.recvDatagram, h, hempty]

/-- A poll on Windows is a poll on Linux that meets the delivered arrivals. -/
theorem poll_deliver (h : SameBackend b b') (w : World) :
    b'.poll ser os { w with inbox := w.inbox.map (deliver b.config.maxDatagramSize) } =
      ((b.poll ser os w).1, { (b.poll ser os w).2 with
        inbox := (b.poll ser os w).2.inbox.map (deliver b.config.maxDatagramSize) }) := by
  by_cases hdeaf : b.running = false ∨ b.socket.isValid = false ∨
      b.config.maxDatagramSize = 0 ∨ w.inbox = []
  · have hdeaf' : b'.running = false ∨ b'.socket.isValid = false ∨
        b'.config.maxDatagramSize = 0 ∨
          w.inbox.map (deliver b.config.maxDatagramSize) = [] := by
      rw [← h.config, ← h.running, ← h.socket]
      simpa using hdeaf
    rw [poll_of_deaf hdeaf, Discovery.poll_of_deaf hdeaf']
  · simp only [not_or, Bool.not_eq_false] at hdeaf
    obtain ⟨hrunning, hsocket, hmax, hne⟩ := hdeaf
    obtain ⟨a, rest, hinbox⟩ := List.exists_cons_of_ne_nil hne
    rw [poll_of_inbox hrunning hsocket hmax hinbox,
      Discovery.poll_of_inbox (by rw [← h.running, hrunning]) (by rw [← h.socket, hsocket])
        (by rw [← h.config]; exact hmax) (by rw [hinbox, List.map_cons]), ← h.config]

/-- The two sockets let the same through. -/
def Portable (ser : Serializer) (maxSize : ℕ) (arrival : Arrival) : Prop :=
  seen ser maxSize (deliver maxSize arrival) = seen ser maxSize arrival

theorem portable_iff {maxSize : ℕ} {host bytes : Bytes} {port : UInt16} :
    Portable ser maxSize (.datagram host port bytes) ↔
      bytes.length ≤ chunkSize maxSize ∨ seen ser maxSize (.datagram host port bytes) = none := by
  have hfailure : seen ser maxSize .failure = none := rfl
  unfold Portable deliver
  dsimp only
  split_ifs with hlong
  · rw [hfailure, or_iff_right (by omega)]
    exact eq_comm
  · exact iff_of_true rfl (.inl (by omega))

/-- A message that arrives as a whole is portable: where it is too long for the
buffer, what Linux leaves of it does not decode. -/
theorem portable_of_message (hser : ser.Lawful) {maxSize : ℕ} (hmax : maxSize ≤ intMax)
    {host bytes : Bytes} {port : UInt16} {m : DiscoveryMessage}
    (hm : decodeMessage ser bytes = some m) : Portable ser maxSize (.datagram host port bytes) := by
  rw [portable_iff]
  by_cases hlong : bytes.length ≤ chunkSize maxSize
  · exact .inl hlong
  · refine .inr (Option.map_eq_none_iff.mpr ?_)
    by_contra hne
    obtain ⟨m', hm'⟩ := Option.ne_none_iff_exists'.mp hne
    obtain ⟨hsource, -, -⟩ := DiscoveryEngine.received_of_decode hm'
    rw [DiscoveryEngine.decodeDatagram_received hsource] at hm'
    have hwhole := (MessageCodec.prefixFree_decodeMessage hser).take_eq_self (n := maxSize)
      (by rw [hm]; rfl) (by rw [hm']; rfl)
    have hlength := congrArg List.length hwhole
    rw [List.length_take] at hlength
    unfold chunkSize at hlong
    omega

theorem envelopeOf_injective (os : Os) (ticks : ℕ) : Function.Injective (envelopeOf os ticks) := by
  intro x y h
  rcases x with _ | ⟨m, host, port⟩ <;> rcases y with _ | ⟨m', host', port'⟩ <;>
    simp_all [envelopeOf, DiscoveryEngine.inboundEnvelope]

/-- Two running backends on the two platforms poll the same envelope out of an
arrival if and only if it fits the receive buffer (of which Windows uses at most
`INT_MAX` bytes), or the part of it that Linux receives does not decode. -/
theorem polls_agree_iff (h : SameBackend b b') (hrunning : b.running = true)
    (hsocket : b.socket.isValid = true) (hmax : b.config.maxDatagramSize ≠ 0) {w : World}
    {host bytes : Bytes} {port : UInt16} {rest : List Arrival}
    (hinbox : w.inbox = .datagram host port bytes :: rest) :
    b.poll ser os w = b'.poll ser os w ↔
      bytes.length ≤ chunkSize b.config.maxDatagramSize ∨
        (b'.poll ser os w).1 = none := by
  have hlinux : b'.poll ser os w = _ :=
    Discovery.poll_of_inbox (by rw [← h.running, hrunning]) (by rw [← h.socket, hsocket])
      (by rw [← h.config]; exact hmax) hinbox
  rw [← h.config] at hlinux
  rw [hlinux, poll_of_inbox hrunning hsocket hmax hinbox]
  have hnone (x : Option (DiscoveryMessage × Bytes × UInt16)) :
      (envelopeOf os w.ticks x).1 = none ↔ x = none := by
    cases x <;> simp [envelopeOf]
  dsimp only
  rw [hnone, ← portable_iff]
  constructor
  · intro heq
    apply envelopeOf_injective os w.ticks
    obtain ⟨hfst, hworld⟩ := Prod.mk.inj heq
    exact Prod.ext hfst (congrArg World.ticks hworld)
  · intro hportable
    rw [hportable]

open Simulation in
/-- The running backends of `node-b` on the two platforms. -/
def windowsNode : UdpDiscoveryBackend where
  config := config "node-b" 9400
  running := true
  socket := { socket := 3 }

open Simulation in
theorem sameBackend_node : SameBackend windowsNode
    (started (system (ticking 1000)) "node-b" 9400).backend :=
  ⟨by decide, by decide, by decide⟩

open Simulation in
theorem polls_agree_announced :
    windowsNode.poll .littleEndian (system (ticking 1000))
        { inbox := [announced "node-a" 9500 9400] } =
      (started (system (ticking 1000)) "node-b" 9400).backend.poll .littleEndian
        (system (ticking 1000)) { inbox := [announced "node-a" 9500 9400] } :=
  (polls_agree_iff sameBackend_node rfl rfl (by decide) rfl).mpr (.inl (by decide))

/-! ## Runs -/

open DiscoveryEngine in
/-- Engines on the two platforms take the same steps.  A poll on Windows is a poll
that meets what the Windows socket delivers, and where every arrival fits the
receive buffer or is a message as it was encoded, a run that meets this goes
through the states of the run on Linux. -/
theorem run_agrees {T : Type} {deps : External T} (hser : deps.ser.Lawful)
    (turns : List (Turn T)) (s : Runtime T)
    (hmax : s.backend.config.maxDatagramSize ≤ intMax)
    (harrivals : ∀ host port bytes,
      .datagram host port bytes ∈ s.world.inbox ++ turns.flatMap Turn.arrivals →
        bytes.length ≤ s.backend.config.maxDatagramSize ∨
          ∃ m, decodeMessage deps.ser bytes = some m) :
    let delivered := deliver s.backend.config.maxDatagramSize
    let s' := afterTurns deps os turns s
    (∀ b w, SameBackend b s.backend →
      s.backend.poll deps.ser os { w with inbox := w.inbox.map delivered } =
        ((b.poll deps.ser os w).1, { (b.poll deps.ser os w).2 with
          inbox := (b.poll deps.ser os w).2.inbox.map delivered })) ∧
    afterTurns deps os (turns.map (Turn.relabel delivered)) (relabel delivered s) =
      { s' with world.inbox := s'.world.inbox.map delivered } := by
  refine ⟨fun b w h ↦ ?_, afterTurns_relabel deps os turns fun a ha ↦ ?_⟩
  · rw [← h.config]
    exact poll_deliver h w
  cases a with
  | failure => rfl
  | datagram host port bytes =>
      rcases harrivals host port bytes ha with hfit | ⟨m, hm⟩
      · refine portable_iff.mpr (.inl ?_)
        unfold chunkSize
        omega
      · exact portable_of_message hser hmax hm

open DiscoveryEngine Simulation in
theorem run_agrees_announced :
    let delivered := deliver 65536
    let s := receiver [announced "node-a" 9500 9400]
    let s' := afterTurns listing (system (ticking 1000)) [.engine .pollOnce] s
    afterTurns listing (system (ticking 1000)) [.engine .pollOnce] (relabel delivered s) =
      { s' with world.inbox := s'.world.inbox.map delivered } := by
  refine (run_agrees listing_lawful [.engine .pollOnce]
    (receiver [announced "node-a" 9500 9400]) (by decide) fun host port bytes hmem ↦ ?_).2
  have hpending : (receiver [announced "node-a" 9500 9400]).world.inbox ++
      [Turn.engine .pollOnce].flatMap (Turn.arrivals (T := List PeerInfo)) =
        [announced "node-a" 9500 9400] := rfl
  rw [hpending, List.mem_singleton, announced, Arrival.datagram.injEq] at hmem
  rw [hmem.2.2]
  exact .inr ⟨announcement "node-a" 9500, by decide⟩

/-! ## Sending -/

/-- A `sendto` fails with -1 or says how much of the data it transmitted. -/
def SendtoReports (os : Os) : Prop :=
  ∀ i data, os.sendto i data = -1 ∨ 0 ≤ os.sendto i data ∧ os.sendto i data ≤ data.length

theorem sendDatagram_eq {socket : UdpSocket} {socket' : Discovery.UdpSocket}
    (hreports : SendtoReports os) (hsocket : socket.isValid = socket'.isValid) {d : Datagram}
    (hfit : d.payload.length ≤ intMax) (w : World) :
    socket.sendDatagram os d w = socket'.sendDatagram os d w := by
  have hchunk : d.payload.take (chunkSize d.payload.length) = d.payload := by
    apply List.take_of_length_le
    unfold chunkSize
    omega
  unfold UdpSocket.sendDatagram Discovery.UdpSocket.sendDatagram UdpSocket.sendTo
    Discovery.UdpSocket.sendTo
  rw [hsocket, hchunk]
  dsimp only
  unfold intMax at hfit
  rcases hreports w.calls d.payload with herror | ⟨hnonneg, hle⟩
  · rw [herror]
    rfl
  · rw [if_neg (by omega : ¬ os.sendto w.calls d.payload = -1),
      if_neg (by omega : ¬ os.sendto w.calls d.payload < 0), Int.emod_eq_of_lt hnonneg (by omega)]

theorem sendDatagram_le (hreports : SendtoReports os) (socket : UdpSocket) (d : Datagram)
    (w : World) : (socket.sendDatagram os d w).1 ≤ intMax := by
  unfold UdpSocket.sendDatagram UdpSocket.sendTo
  dsimp only
  split_ifs
  · exact Nat.zero_le _
  · exact Nat.zero_le _
  · exact Nat.zero_le _
  · exact Nat.zero_le _
  next herror =>
    obtain ⟨hnonneg, hle⟩ := (hreports w.calls _).resolve_left herror
    rw [List.length_take] at hle
    unfold chunkSize at *
    dsimp only
    omega

/-- The platforms send alike up to `INT_MAX` bytes; a longer payload is never
reported as sent on Windows, where it does not fit one call. -/
theorem sends_agree (h : SameBackend b b') (hreports : SendtoReports os) (e : DiscoveryEnvelope)
    (w : World) :
    let payload := (makeDatagram ser e.message e.toHost e.toPort).payload
    (payload.length ≤ intMax → b.send ser os e w = b'.send ser os e w) ∧
      (intMax < payload.length → (b.send ser os e w).1 = false) := by
  dsimp only
  constructor
  · intro hfit
    unfold UdpDiscoveryBackend.send Discovery.UdpDiscoveryBackend.send
    dsimp only
    rw [h.running, sendDatagram_eq hreports h.socket hfit]
  · intro hlong
    have hle := sendDatagram_le hreports b.socket
      (makeDatagram ser e.message e.toHost e.toPort) w
    unfold UdpDiscoveryBackend.send
    dsimp only
    split_ifs
    · rfl
    · rfl
    · rw [beq_eq_false_iff_ne]
      omega

open Simulation in
theorem sends_agree_probe :
    let e : DiscoveryEnvelope :=
      .outbound (.probe (ascii "node-b")) (ascii "127.0.0.1") 9500 ⟨7⟩
    windowsNode.send .littleEndian (system (ticking 1000)) e {} =
      (started (system (ticking 1000)) "node-b" 9400).backend.send .littleEndian
        (system (ticking 1000)) e {} :=
  (sends_agree sameBackend_node (fun _ _ ↦ .inr ⟨Int.natCast_nonneg _, le_rfl⟩) _ _).1 (by decide)

end Windows

end Discovery
