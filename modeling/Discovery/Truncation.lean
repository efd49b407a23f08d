import Discovery.Exchange

/-!
# Truncation and concatenation

Both decoders are prefix-free, so a datagram that the receive buffer cuts
yields no envelope.
-/

namespace Discovery

open Lib DiscoveryEncoder DiscoveryDecoder

namespace UdpDiscoveryBackend

variable {ser : Serializer} {os : Os} {b : UdpDiscoveryBackend} {w : World}

theorem poll_eq_none
    (h : decodeDatagram ser (b.socket.recvDatagram b.config.maxDatagramSize w).1 = none) :
    (b.poll ser os w).1 = none := by
  unfold poll
  dsimp only
  split_ifs
  · rfl
  · rfl
  · rw [h]

theorem poll_eq_none_of_cut {host bytes : Bytes} {port : UInt16} {rest : List Arrival}
    (hinbox : w.inbox = .datagram host port bytes :: rest)
    (h : decodeMessage ser (bytes.take b.config.maxDatagramSize) = none) :
    (b.poll ser os w).1 = none := by
  apply poll_eq_none
  have hempty : decodeDatagram ser {} = none := rfl
  unfold UdpSocket.recvDatagram
  rw [hinbox]
  split_ifs
  · exact hempty
  · dsimp only
    by_contra hsome
    obtain ⟨m, hm⟩ := Option.ne_none_iff_exists'.mp hsome
    obtain ⟨hsource, -, -⟩ := DiscoveryEngine.received_of_decode hm
    rw [DiscoveryEngine.decodeDatagram_received hsource, h] at hm
    cases hm

end UdpDiscoveryBackend

namespace DiscoveryEngine

variable {T : Type} {deps : External T} {os : Os} {s : Runtime T} {c : DiscoveryConfig}

theorem decode_of_sent (hser : deps.ser.Lawful) (hfit : c.SizesFit) (hs : Reachable deps os s)
    (hc : s.context.config = some c) (op : Op) {ds : List Datagram}
    (hds : (exec deps os op s).world.outbox = s.world.outbox ++ ds) {d : Datagram} (hd : d ∈ ds) :
    ∃ m, Authored deps.ser c m ∧ decodeMessage deps.ser d.payload = some m := by
  obtain ⟨ds', hds', hall⟩ := exec_sent os (speaks_authored hser hfit) hc hs.sound op
  obtain rfl : ds = ds' := List.append_cancel_left (hds.symm.trans hds')
  obtain ⟨m, hm, hvalid, hpayload⟩ := hall d hd
  refine ⟨m, hm, ?_⟩
  rw [hpayload]
  exact (MessageCodec.decodeMessage_eq_some_iff hser _ _).mpr ⟨hm.fits, hvalid, rfl⟩

/-- Neither decoder accepts a proper prefix or a proper extension of what it
accepts.  So a datagram sent by any operation of an engine is never delivered
when the receive buffer is shorter than it. -/
theorem truncation_detected (hser : deps.ser.Lawful) :
    (∀ b b' m, decodeMessage deps.ser b = some m → b' ≠ b → b' <+: b ∨ b <+: b' →
      decodeMessage deps.ser b' = none) ∧
    (∀ b b' a, decodeAnnouncement deps.ser b = some a → b' ≠ b → b' <+: b ∨ b <+: b' →
      decodeAnnouncement deps.ser b' = none) ∧
    ∀ os (s : Runtime T) c op ds d, Reachable deps os s → s.context.config = some c → c.SizesFit →
      (exec deps os op s).world.outbox = s.world.outbox ++ ds → d ∈ ds →
      ∀ (receiver : UdpDiscoveryBackend) os' w host port rest,
        w.inbox = Arrival.datagram host port d.payload :: rest →
        receiver.config.maxDatagramSize < d.payload.length →
        (receiver.poll deps.ser os' w).1 = none := by
  have hmessage := MessageCodec.prefixFree_decodeMessage hser
  have hannouncement := AnnouncementCodec.prefixFree_decodeAnnouncement hser
  refine ⟨fun b b' m hb hne h ↦ ?_, fun b b' a hb hne h ↦ ?_,
    fun os s c op ds d hs hc hfit hds hd receiver os' w host port rest hinbox hlong ↦ ?_⟩
  · have hsome : (decodeMessage deps.ser b).isSome := by rw [hb]; rfl
    rcases h with h | h
    · exact hmessage.decode_eq_none_of_prefix hsome h hne
    · exact hmessage.decode_eq_none_of_extension hsome h hne.symm
  · have hsome : (decodeAnnouncement deps.ser b).isSome := by rw [hb]; rfl
    rcases h with h | h
    · exact hannouncement.decode_eq_none_of_prefix hsome h hne
    · exact hannouncement.decode_eq_none_of_extension hsome h hne.symm
  · obtain ⟨m, -, hm⟩ := decode_of_sent hser hfit hs hc op hds hd
    refine UdpDiscoveryBackend.poll_eq_none_of_cut hinbox ?_
    refine hmessage.decode_eq_none_of_prefix (by rw [hm]; rfl) (List.take_prefix _ _) fun heq ↦ ?_
    have hlen := congrArg List.length heq
    rw [List.length_take] at hlen
    omega

section Nodes

open Simulation

/-- What `node-a` sends when it announces itself. -/
def announcing : List Datagram :=
  (exec listing (system (ticking 1000)) .announceNow
    (started (system (ticking 1000)) "node-a" 9500)).world.outbox

/-- The backend of `node-b`, with room for 40 bytes. -/
def narrow : UdpDiscoveryBackend := { (receiver []).backend with config.maxDatagramSize := 40 }

/-- A probe that lacks its last byte does not decode, and the announcement of
`node-a` does not get through to `node-b`. -/
theorem truncation_detected_probe :
    decodeMessage listing.ser ((encodeMessage listing.ser (.probe [97])).take 17) = none ∧
      ∃ d ∈ announcing, narrow.running = true ∧ (narrow.poll listing.ser (system (ticking 1000))
        { inbox := [.datagram (ascii "127.0.0.1") 9500 d.payload] }).1 = none := by
  obtain ⟨hmessage, -, hreceive⟩ := truncation_detected (T := List PeerInfo) listing_lawful
  refine ⟨?_, ?_⟩
  · exact hmessage (encodeMessage listing.ser (.probe [97])) _ (.probe [97]) (by decide) (by decide)
      (.inl (List.take_prefix _ _))
  · have hreach : Reachable listing (system (ticking 1000))
        (started (system (ticking 1000)) "node-a" 9500) := .exec .start (reachable_node _ _ _)
    obtain ⟨d, hd, hlong⟩ : ∃ d ∈ announcing, 40 < d.payload.length := by decide +kernel
    refine ⟨d, hd, by decide, ?_⟩
    exact hreceive _ _ (config "node-a" 9500) .announceNow announcing d hreach (by decide)
      (by unfold DiscoveryConfig.SizesFit; decide) rfl hd narrow _ _ _ _ _ rfl hlong

end Nodes

end DiscoveryEngine

end Discovery
