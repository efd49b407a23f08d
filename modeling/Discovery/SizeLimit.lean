import Discovery.Truncation

/-!
# The limit on datagram sizes

The receive path cuts a datagram to `max_datagram_size` bytes, and the send path
does not look at that limit.  So a send may report success for a datagram that
no peer of the same configuration can decode.
-/

namespace Discovery

open DiscoveryEncoder DiscoveryDecoder

/-- `sendto` transmits the whole datagram or fails. -/
def Os.SendsWhole (os : Os) : Prop :=
  ∀ i data, os.sendto i data < 0 ∨ os.sendto i data = (data.length : ℤ)

namespace UdpDiscoveryBackend

variable {ser : Serializer} {os : Os} {b : UdpDiscoveryBackend} {e : DiscoveryEnvelope} {w : World}

/-! ## When a send succeeds -/

/-- Nothing but the size of the datagram stands in the way of the envelope. -/
structure Sendable (ser : Serializer) (os : Os) (b : UdpDiscoveryBackend) (e : DiscoveryEnvelope)
    (w : World) : Prop where
  running : b.running = true
  socket : b.socket.isValid = true
  valid : e.isValid = true
  destination : e.hasDestination = true
  host : os.inetPton e.toHost = true
  sendto : 0 ≤ os.sendto w.calls (encodeMessage ser e.message)

theorem send_eq (hser : ser.Lawful) (hrunning : b.running = true) (hvalid : e.isValid = true)
    (hdest : e.hasDestination = true) :
    (b.send ser os e w).1 =
      ((b.socket.sendTo os e.toHost e.toPort (encodeMessage ser e.message) w).1 ==
        (encodeMessage ser e.message).length) := by
  have hm : e.message.isValid = true := (Bool.and_eq_true_iff.mp hvalid).1
  obtain ⟨hhost, hport⟩ : e.toHost ≠ [] ∧ e.toPort ≠ 0 := by
    simpa [DiscoveryEnvelope.hasDestination] using hdest
  have hdatagram := MessageCodec.makeDatagram_of_valid hser hm hhost hport
  have hvalid' : (Datagram.mk e.toHost e.toPort (encodeMessage ser e.message)).isValid = true :=
    (Datagram.isValid_iff _).mpr ⟨hhost, hport, MessageCodec.encodeMessage_ne_nil hser hm⟩
  simp only [send, hrunning, hvalid, hdest, hdatagram, hvalid', UdpSocket.sendDatagram,
    Bool.not_true, Bool.or_self, Bool.false_eq_true, if_false]

theorem send_eq_true_iff (hser : ser.Lawful) (hwhole : os.SendsWhole) :
    (b.send ser os e w).1 = true ↔ Sendable ser os b e w := by
  by_cases hchecks : b.running = true ∧ e.isValid = true ∧ e.hasDestination = true
  · obtain ⟨hrunning, hvalid, hdest⟩ := hchecks
    have hm : e.message.isValid = true := (Bool.and_eq_true_iff.mp hvalid).1
    have hne := MessageCodec.encodeMessage_ne_nil hser hm
    have hpos : 0 < (encodeMessage ser e.message).length := List.length_pos_of_ne_nil hne
    rw [send_eq hser hrunning hvalid hdest, beq_iff_eq]
    unfold UdpSocket.sendTo
    dsimp only
    split_ifs with hsocket hhost hfailed
    · refine ⟨fun h ↦ by omega, fun h ↦ ?_⟩
      simp [h.socket, hne] at hsocket
    · refine ⟨fun h ↦ by omega, fun h ↦ ?_⟩
      simp [h.host] at hhost
    · refine ⟨fun h ↦ by omega, fun h ↦ ?_⟩
      exact absurd h.sendto (by omega)
    · have hsocket' : b.socket.isValid = true := by
        rcases hs : b.socket.isValid <;> simp [hs] at hsocket ⊢
      refine ⟨fun _ ↦ ⟨hrunning, hsocket', hvalid, hdest, by simpa using hhost, by omega⟩,
        fun _ ↦ ?_⟩
      rcases hwhole w.calls (encodeMessage ser e.message) with hneg | hlen
      · exact absurd hneg hfailed
      · rw [hlen, Int.toNat_natCast]
  · constructor
    · intro h
      unfold send at h
      split_ifs at h with hguard
      simp only [Bool.or_eq_true, Bool.not_eq_true', not_or, Bool.not_eq_false] at hguard
      exact absurd ⟨hguard.1.1, hguard.1.2, hguard.2⟩ hchecks
    · rintro ⟨hrunning, -, hvalid, hdest, -, -⟩
      exact absurd ⟨hrunning, hvalid, hdest⟩ hchecks

/-! ## What the receiver makes of it -/

theorem poll_of_received {host bytes : Bytes} {port : UInt16} {rest : List Arrival}
    {m : DiscoveryMessage} (hrunning : b.running = true) (hsocket : b.socket.isValid = true)
    (hinbox : w.inbox = .datagram host port bytes :: rest) (hsource : host ≠ [] ∧ port ≠ 0)
    (hm : decodeMessage ser (bytes.take b.config.maxDatagramSize) = some m) :
    ∃ received, (b.poll ser os w).1 = some received ∧ received.message = m := by
  have hmax : (b.config.maxDatagramSize == 0) = false := by
    rw [beq_eq_false_iff_ne]
    intro hzero
    rw [hzero, List.take_zero] at hm
    cases hm
  have hdecode := (DiscoveryEngine.decodeDatagram_received hsource).trans hm
  have hvalid := (DiscoveryEngine.isValid_of_decodeDatagram hdecode).1
  simp only [poll, hrunning, UdpSocket.recvDatagram, hsocket, hmax, hinbox, hvalid, hdecode,
    World.now, Bool.not_true, Bool.or_self, Bool.false_eq_true, if_false]
  exact ⟨_, rfl, rfl⟩

/-- What is reported as sent is within the limit, and a running backend of the
same configuration that receives it returns the sent message. -/
def Receivable (ser : Serializer) (os : Os) (b : UdpDiscoveryBackend) (e : DiscoveryEnvelope)
    (w : World) : Prop :=
  (b.send ser os e w).1 = true →
    (encodeMessage ser e.message).length ≤ b.config.maxDatagramSize ∧
    ∀ (receiver : UdpDiscoveryBackend) (os' : Os) (w' : World) host port rest,
      receiver.config = b.config → receiver.running = true → receiver.socket.isValid = true →
      host ≠ [] → port ≠ 0 →
      w'.inbox = .datagram host port (encodeMessage ser e.message) :: rest →
      ∃ received, (receiver.poll ser os' w').1 = some received ∧ received.message = e.message

/-- The fixed part of a message and its four fields. -/
def encodedSize (m : DiscoveryMessage) : ℕ :=
  minimumMessageSize +
    (m.fromNodeId.length + m.toNodeId.length + m.correlationId.length + m.payload.length)

/-- A send keeps its promise exactly when the encoded message is within the
limit or cannot be sent at all. -/
theorem send_receivable_iff (hser : ser.Lawful) (hwhole : os.SendsWhole)
    (hfits : e.message.Fits) :
    Receivable ser os b e w ↔
      encodedSize e.message ≤ b.config.maxDatagramSize ∨ ¬ Sendable ser os b e w := by
  constructor
  · intro h
    by_cases hsendable : Sendable ser os b e w
    · have hm : e.message.isValid = true := (Bool.and_eq_true_iff.mp hsendable.valid).1
      have hlimit := (h ((send_eq_true_iff hser hwhole).mpr hsendable)).1
      rw [MessageCodec.length_encodeMessage hser hm] at hlimit
      exact .inl hlimit
    · exact .inr hsendable
  · intro h hsent
    have hsendable := (send_eq_true_iff hser hwhole).mp hsent
    have hm : e.message.isValid = true := (Bool.and_eq_true_iff.mp hsendable.valid).1
    have hlimit : (encodeMessage ser e.message).length ≤ b.config.maxDatagramSize := by
      rw [MessageCodec.length_encodeMessage hser hm]
      exact h.resolve_right fun hnot ↦ hnot hsendable
    refine ⟨hlimit, fun receiver os' w' host port rest hconfig hrunning hsocket hhost hport
      hinbox ↦ ?_⟩
    apply poll_of_received hrunning hsocket hinbox ⟨hhost, hport⟩
    rw [hconfig, List.take_of_length_le hlimit]
    exact (MessageCodec.decodeMessage_eq_some_iff hser _ _).mpr ⟨hfits, hm, rfl⟩

section Probe

open Simulation

/-- The backend of `node-a` under a limit of `limit` bytes, after its start. -/
def limited (limit : ℕ) : UdpDiscoveryBackend :=
  (UdpDiscoveryBackend.start (system (ticking 1000))
    { config := { Simulation.config "node-a" 9500 with maxDatagramSize := limit } } {}).2.1

def probeEnvelope : DiscoveryEnvelope :=
  .outbound (.probe (ascii "node-a")) (ascii "127.0.0.1") 9500 ⟨1000⟩

theorem sendsWhole_system (clock : ℕ → Timestamp) : (system clock).SendsWhole :=
  fun _ _ ↦ .inr rfl

theorem fits_probe : (DiscoveryMessage.probe (ascii "node-a")).Fits := by
  constructor <;> decide

theorem send_receivable_probe :
    Receivable .littleEndian (system (ticking 1000)) (limited 23) probeEnvelope {} :=
  (send_receivable_iff Serializer.littleEndian_lawful (sendsWhole_system _) fits_probe).mpr
    (.inl (by decide))

/-- A probe of 23 bytes is reported as sent under a limit of 22, and a backend
of the same configuration does not receive it. -/
theorem send_oversized_probe :
    let b := limited 22
    let w : World := { inbox := [.datagram (ascii "127.0.0.1") 9500
      (encodeMessage .littleEndian probeEnvelope.message)] }
    b.config.isValid = true ∧ (system (ticking 1000)).SendsWhole ∧ probeEnvelope.message.Fits ∧
      (b.send .littleEndian (system (ticking 1000)) probeEnvelope {}).1 = true ∧
      (encodeMessage .littleEndian probeEnvelope.message).length = 23 ∧
      (b.poll .littleEndian (system (ticking 1000)) w).1 = none ∧
      ¬ Receivable .littleEndian (system (ticking 1000)) b probeEnvelope {} := by
  refine ⟨by decide, sendsWhole_system _, fits_probe, by decide, by decide, by decide, fun h ↦ ?_⟩
  have hlimit := (h (by decide)).1
  revert hlimit
  decide

end Probe

end UdpDiscoveryBackend

end Discovery
