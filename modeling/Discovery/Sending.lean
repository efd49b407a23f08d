import Discovery.Engine

/-!
# What an engine sends

One send hands at most one encoding to the network.  The messages of an engine
carry its own node id and either no payload or its own announcement, and they
fit the 32-bit sizes of the format.
-/

namespace Discovery

open DiscoveryEncoder DiscoveryDecoder

/-! ## One send -/

theorem makeDatagram_eq_of_isValid {ser : Serializer} {m : DiscoveryMessage} {host : Bytes}
    {port : UInt16} (h : (makeDatagram ser m host port).isValid = true) :
    makeDatagram ser m host port = ⟨host, port, encodeMessage ser m⟩ := by
  unfold makeDatagram at h ⊢
  dsimp only at h ⊢
  split_ifs at h ⊢ with h₁ h₂
  · simp [Datagram.isValid, Datagram.hasEndpoint] at h
  · simp [Datagram.isValid, Datagram.hasEndpoint] at h
  · rfl

/-- A send consumes nothing inbound and hands at most the encoded message to
the network. -/
structure SendSpec (ser : Serializer) (e : DiscoveryEnvelope) (tried : List DiscoveryEnvelope)
    (w w' : World) : Prop where
  inbox : w'.inbox = w.inbox
  ticks : w.ticks ≤ w'.ticks
  attempts : w'.attempts = w.attempts ++ tried
  outbox : w'.outbox = w.outbox ∨ e.message.isValid = true ∧
    w'.outbox = w.outbox ++ [⟨e.toHost, e.toPort, encodeMessage ser e.message⟩]

section Send

variable {ser : Serializer} {os : Os} {b : UdpDiscoveryBackend} {e : DiscoveryEnvelope} {w : World}

theorem SendSpec.none : SendSpec ser e [] w w := ⟨rfl, le_rfl, by simp, .inl rfl⟩

theorem sendDatagram_spec (socket : UdpSocket) {d : Datagram}
    (hd : d = ⟨e.toHost, e.toPort, encodeMessage ser e.message⟩) (hm : e.message.isValid = true) :
    SendSpec ser e [] w (socket.sendDatagram os d w).2 := by
  subst hd
  unfold UdpSocket.sendDatagram UdpSocket.sendTo
  dsimp only
  split_ifs
  · exact .none
  · exact .none
  · exact .none
  · exact ⟨rfl, le_rfl, by simp, .inr ⟨hm, rfl⟩⟩
  · exact ⟨rfl, le_rfl, by simp, .inr ⟨hm, rfl⟩⟩

variable (ser os b e w) in
theorem backendSend_spec : SendSpec ser e [] w (b.send ser os e w).2 := by
  unfold UdpDiscoveryBackend.send
  split_ifs with hchecks
  · exact .none
  · have hvalid : e.isValid = true := by
      rcases hv : e.isValid <;> simp [hv] at hchecks ⊢
    have hm : e.message.isValid = true := (Bool.and_eq_true_iff.mp hvalid).1
    dsimp only
    split_ifs with hdatagram
    · exact .none
    · exact sendDatagram_spec _ (makeDatagram_eq_of_isValid (by simpa using hdatagram)) hm

variable (ser os b e w) in
theorem clientSend_spec : SendSpec ser e [e] w (DiscoveryClient.send ser os b e w).2 := by
  unfold DiscoveryClient.send World.now
  dsimp only
  split_ifs
  · exact ⟨rfl, le_rfl, rfl, .inl rfl⟩
  · obtain ⟨hinbox, hticks, hattempts, houtbox⟩ := backendSend_spec ser os b
      (e.markAttempt (os.clock w.ticks))
      { w with attempts := w.attempts ++ [e], ticks := w.ticks + 1 }
    refine ⟨hinbox, (Nat.le_succ _).trans hticks, ?_, houtbox⟩
    simpa using hattempts

theorem sendDatagram_success (hsends : os.SendsSucceed) {socket : UdpSocket}
    (hsocket : socket.isValid = true) {d : Datagram} (hd : d.isValid = true)
    (hpton : os.inetPton d.host = true) (w : World) :
    socket.sendDatagram os d w =
      (d.payload.length, { w with calls := w.calls + 1, outbox := w.outbox ++ [d] }) := by
  have hne : d.payload.isEmpty = false :=
    List.isEmpty_eq_false_iff.mpr ((Datagram.isValid_iff d).mp hd).2.2
  have hlen : ¬ (d.payload.length : ℤ) < 0 := by omega
  simp only [UdpSocket.sendDatagram, UdpSocket.sendTo, hd, hsocket, hne, hpton, hsends _ _, hlen,
    Bool.not_true, Bool.or_self, Bool.false_eq_true, if_false, Int.toNat_natCast]

/-- The send of a valid envelope to a well-formed address succeeds, and the
whole encoding goes out. -/
theorem clientSend_success (hser : ser.Lawful) (hsends : os.SendsSucceed)
    (hrunning : b.running = true) (hsocket : b.socket.isValid = true) (he : e.isValid = true)
    (hhost : e.toHost ≠ []) (hport : e.toPort ≠ 0) (hpton : os.inetPton e.toHost = true) :
    DiscoveryClient.send ser os b e w =
      (true, { w with
        ticks := w.ticks + 1
        calls := w.calls + 1
        attempts := w.attempts ++ [e]
        outbox := w.outbox ++ [⟨e.toHost, e.toPort, encodeMessage ser e.message⟩] }) := by
  have hm : e.message.isValid = true := (Bool.and_eq_true_iff.mp he).1
  have hdest : e.hasDestination = true := by simp [DiscoveryEnvelope.hasDestination, hhost, hport]
  have hdatagram := MessageCodec.makeDatagram_of_valid hser hm hhost hport
  have hvalid : (Datagram.mk e.toHost e.toPort (encodeMessage ser e.message)).isValid = true :=
    (Datagram.isValid_iff _).mpr ⟨hhost, hport, MessageCodec.encodeMessage_ne_nil hser hm⟩
  have hmark (now : Timestamp) : (e.markAttempt now).message = e.message ∧
      (e.markAttempt now).toHost = e.toHost ∧ (e.markAttempt now).toPort = e.toPort :=
    ⟨rfl, rfl, rfl⟩
  simp only [DiscoveryClient.send, he, hdest, World.now, UdpDiscoveryBackend.send, hrunning,
    DiscoveryEnvelope.markAttempt_isValid, DiscoveryEnvelope.markAttempt_hasDestination, hmark,
    hdatagram, hvalid, sendDatagram_success hsends hsocket hvalid hpton, Bool.not_true,
    Bool.or_self, Bool.false_eq_true, if_false, beq_self_eq_true]

end Send

/-- All that the process handed to the network since `w` are encodings of valid
messages with the property `P`. -/
def Sent (ser : Serializer) (P : DiscoveryMessage → Prop) (w w' : World) : Prop :=
  ∃ ds, w'.outbox = w.outbox ++ ds ∧
    ∀ d ∈ ds, ∃ m, P m ∧ m.isValid = true ∧ d.payload = encodeMessage ser m

namespace Sent

variable {ser : Serializer} {P : DiscoveryMessage → Prop} {w w' w'' : World}

theorem of_outbox_eq (h : w'.outbox = w.outbox) : Sent ser P w w' := ⟨[], by simp [h], by simp⟩

theorem refl (w : World) : Sent ser P w w := of_outbox_eq rfl

theorem trans (h : Sent ser P w w') (h' : Sent ser P w' w'') : Sent ser P w w'' := by
  obtain ⟨ds, hds, hall⟩ := h
  obtain ⟨ds', hds', hall'⟩ := h'
  refine ⟨ds ++ ds', by rw [hds', hds, List.append_assoc], fun d hd ↦ ?_⟩
  rcases List.mem_append.mp hd with hd | hd
  · exact hall d hd
  · exact hall' d hd

end Sent

theorem SendSpec.sent {ser : Serializer} {P : DiscoveryMessage → Prop} {e : DiscoveryEnvelope}
    {tried : List DiscoveryEnvelope} {w w' : World} (h : SendSpec ser e tried w w')
    (he : P e.message) : Sent ser P w w' := by
  rcases h.outbox with heq | ⟨hvalid, heq⟩
  · exact .of_outbox_eq heq
  · refine ⟨_, heq, fun d hd ↦ ⟨e.message, he, hvalid, ?_⟩⟩
    rw [List.mem_singleton.mp hd]

/-! ## The messages of an engine -/

namespace DiscoveryEngine

variable {T : Type} {deps : External T} {os : Os} {ctx : DiscoveryContext T} {c : DiscoveryConfig}

def localAnnouncement (c : DiscoveryConfig) (now : Timestamp) : DiscoveryAnnouncement :=
  .create c.nodeId c.announceHost c.announcePort now

def correlationIdAt (label : String) (now : Timestamp) : Bytes :=
  ascii label ++ ascii "-" ++ ascii (toString now.millis.toInt)

def announceMessage (ser : Serializer) (c : DiscoveryConfig) (now stamp : Timestamp) :
    DiscoveryMessage where
  type := .announce
  fromNodeId := c.nodeId
  correlationId := correlationIdAt "announce" stamp
  payload := encodeAnnouncement ser (localAnnouncement c now)

def probeMessage (c : DiscoveryConfig) (stamp : Timestamp) : DiscoveryMessage where
  type := .probe
  fromNodeId := c.nodeId
  correlationId := correlationIdAt "probe" stamp

def replyMessage (ser : Serializer) (c : DiscoveryConfig) (toNodeId correlationId : Bytes)
    (now : Timestamp) : DiscoveryMessage where
  type := .reply
  fromNodeId := c.nodeId
  toNodeId := toNodeId
  correlationId := correlationId
  payload := encodeAnnouncement ser (localAnnouncement c now)

theorem localNodeId_eq (hc : ctx.configChecked = .ok c) : localNodeId ctx = c.nodeId := by
  simp [localNodeId, hc]

theorem makeLocalAnnouncement_eq (hc : ctx.configChecked = .ok c) (w : World) :
    makeLocalAnnouncement os ctx w =
      (localAnnouncement c (os.clock w.ticks), { w with ticks := w.ticks + 1 }) := by
  simp [makeLocalAnnouncement, hc, World.now, localAnnouncement, localNodeId_eq hc]

theorem makeAnnounceMessage_eq (hc : ctx.configChecked = .ok c) (w : World) :
    makeAnnounceMessage deps os ctx w =
      (announceMessage deps.ser c (os.clock w.ticks) (os.clock (w.ticks + 1)),
        { w with ticks := w.ticks + 2 }) := by
  simp [makeAnnounceMessage, makeLocalAnnouncement_eq hc, localNodeId_eq hc, makeCorrelationId,
    World.now, announceMessage, correlationIdAt, DiscoveryMessage.announce]

theorem makeProbeMessage_eq (hc : ctx.configChecked = .ok c) (w : World) :
    makeProbeMessage os ctx w =
      (probeMessage c (os.clock w.ticks), { w with ticks := w.ticks + 1 }) := by
  simp [makeProbeMessage, localNodeId_eq hc, makeCorrelationId, World.now, probeMessage,
    correlationIdAt, DiscoveryMessage.probe]

theorem makeReplyMessage_eq (hc : ctx.configChecked = .ok c) (toNodeId correlationId : Bytes)
    (w : World) :
    makeReplyMessage deps os ctx toNodeId correlationId w =
      (replyMessage deps.ser c toNodeId correlationId (os.clock w.ticks),
        { w with ticks := w.ticks + 1 }) := by
  simp [makeReplyMessage, makeLocalAnnouncement_eq hc, localNodeId_eq hc, replyMessage,
    DiscoveryMessage.reply]

theorem isValid_of_sender {m : DiscoveryMessage} (hc : c.Valid) (htype : m.type.isValid = true)
    (hfrom : m.fromNodeId = c.nodeId) : m.isValid = true :=
  (DiscoveryMessage.isValid_iff m).mpr ⟨htype, by rw [hfrom]; exact hc.nodeId⟩

theorem outbound_isValid {m : DiscoveryMessage} (hm : m.isValid = true) {now : Timestamp}
    (hnow : now.isValid = true) (host : Bytes) (port : UInt16) :
    (DiscoveryEnvelope.outbound m host port now).isValid = true :=
  Bool.and_eq_true_iff.mpr ⟨hm, hnow⟩

theorem localAnnouncement_isValid (hc : c.Valid) {now : Timestamp} (hnow : now.isValid = true) :
    (localAnnouncement c now).isValid = true :=
  (DiscoveryAnnouncement.isValid_iff _).mpr ⟨hc.nodeId, hc.announceHost, hc.announcePort, hnow⟩

end DiscoveryEngine

/-! ## Sizes -/

theorem length_toString_int {n : ℤ} {k : ℕ} (hk : 0 < k) (hn : n.natAbs < 10 ^ k) :
    (toString n).length ≤ k + 1 := by
  cases n with
  | ofNat m => exact ((Nat.length_repr_le_iff hk).mpr hn).trans (Nat.le_succ k)
  | negSucc m =>
      have hm : m.succ.repr.length ≤ k := (Nat.length_repr_le_iff hk).mpr hn
      change ("-" ++ m.succ.repr).length ≤ k + 1
      rw [String.length_append]
      change 1 + m.succ.repr.length ≤ k + 1
      omega

theorem length_ascii (text : String) : (ascii text).length = text.length := by
  simp [ascii, String.length_toList]

/-- The node id and the announced host leave room for the fixed part of an
announcement. -/
def DiscoveryConfig.SizesFit (c : DiscoveryConfig) : Prop :=
  c.nodeId.length + c.announceHost.length + 18 < 2 ^ 32

namespace DiscoveryEngine

variable {T : Type} {deps : External T} {os : Os} {ctx : DiscoveryContext T} {c : DiscoveryConfig}

theorem length_correlationIdAt (label : String) (now : Timestamp) :
    (correlationIdAt label now).length ≤ label.length + 21 := by
  have hlt := now.millis.toInt_lt
  have hge := now.millis.le_toInt
  have hdigits := length_toString_int (n := now.millis.toInt) (k := 19) (by decide) (by omega)
  have hdash : "-".length = 1 := by decide
  simp only [correlationIdAt, List.length_append, length_ascii, hdash]
  omega

theorem length_encodeAnnouncement_le {ser : Serializer} (hser : ser.Lawful)
    (a : DiscoveryAnnouncement) :
    (encodeAnnouncement ser a).length ≤ a.nodeId.length + a.host.length + 18 := by
  cases ha : a.isValid with
  | true =>
      rw [AnnouncementCodec.encodeAnnouncement_eq hser ha, AnnouncementCodec.length_encodeBody hser]
  | false => simp [AnnouncementCodec.encodeAnnouncement_of_invalid ha]

/-- What every message sent under the configuration `c` looks like. -/
structure Authored (ser : Serializer) (c : DiscoveryConfig) (m : DiscoveryMessage) : Prop where
  fromNodeId : m.fromNodeId = c.nodeId
  payload : m.payload = [] ∨ ∃ now, m.payload = encodeAnnouncement ser (localAnnouncement c now)
  fits : m.Fits

variable {ser : Serializer}

theorem length_localPayload (hser : ser.Lawful) (hfit : c.SizesFit) (now : Timestamp) :
    (encodeAnnouncement ser (localAnnouncement c now)).length < 2 ^ 32 := by
  have hlen := length_encodeAnnouncement_le hser (localAnnouncement c now)
  unfold DiscoveryConfig.SizesFit at hfit
  change _ ≤ c.nodeId.length + c.announceHost.length + 18 at hlen
  omega

theorem length_nodeId (hfit : c.SizesFit) : c.nodeId.length < 2 ^ 32 := by
  unfold DiscoveryConfig.SizesFit at hfit
  omega

theorem authored_announceMessage (hser : ser.Lawful) (hfit : c.SizesFit) (now stamp : Timestamp) :
    Authored ser c (announceMessage ser c now stamp) where
  fromNodeId := rfl
  payload := .inr ⟨now, rfl⟩
  fits := by
    have hcorr := length_correlationIdAt "announce" stamp
    have hlabel : "announce".length = 8 := by decide
    have hcorr' : (correlationIdAt "announce" stamp).length < 2 ^ 32 := by omega
    exact ⟨length_nodeId hfit, by simp [announceMessage], hcorr', length_localPayload hser hfit now⟩

variable (ser) in
theorem authored_probeMessage (hfit : c.SizesFit) (stamp : Timestamp) :
    Authored ser c (probeMessage c stamp) where
  fromNodeId := rfl
  payload := .inl rfl
  fits := by
    have hcorr := length_correlationIdAt "probe" stamp
    have hlabel : "probe".length = 5 := by decide
    have hcorr' : (correlationIdAt "probe" stamp).length < 2 ^ 32 := by omega
    exact ⟨length_nodeId hfit, by simp [probeMessage], hcorr', by simp [probeMessage]⟩

theorem authored_replyMessage (hser : ser.Lawful) (hfit : c.SizesFit) {probe : DiscoveryMessage}
    (hprobe : probe.Fits) (now : Timestamp) :
    Authored ser c (replyMessage ser c probe.fromNodeId probe.correlationId now) where
  fromNodeId := rfl
  payload := .inr ⟨now, rfl⟩
  fits := ⟨length_nodeId hfit, hprobe.fromNodeId, hprobe.correlationId,
    length_localPayload hser hfit now⟩

theorem fits_localAnnouncement (hfit : c.SizesFit) (now : Timestamp) :
    (localAnnouncement c now).Fits := by
  unfold DiscoveryConfig.SizesFit at hfit
  constructor
  · change c.nodeId.length < 2 ^ 32
    omega
  · change c.announceHost.length < 2 ^ 32
    omega

theorem decodeAnnouncement_localPayload (hser : ser.Lawful) (hfit : c.SizesFit) {now : Timestamp}
    (hvalid : (localAnnouncement c now).isValid = true) :
    decodeAnnouncement ser (encodeAnnouncement ser (localAnnouncement c now)) =
      some (localAnnouncement c now) :=
  (AnnouncementCodec.decodeAnnouncement_eq_some_iff hser _ _).mpr
    ⟨fits_localAnnouncement hfit now, hvalid, rfl⟩

/-- The payload of an authored message decodes to the sender's own announcement
if it decodes at all. -/
theorem Authored.decodeAnnouncement_eq (hser : ser.Lawful) (hfit : c.SizesFit)
    {m : DiscoveryMessage} (hm : Authored ser c m) {a : DiscoveryAnnouncement}
    (ha : decodeAnnouncement ser m.payload = some a) : ∃ now, a = localAnnouncement c now := by
  rcases hm.payload with hempty | ⟨now, hpayload⟩
  · simp [hempty, decodeAnnouncement] at ha
  · refine ⟨now, ?_⟩
    cases hvalid : (localAnnouncement c now).isValid with
    | true =>
        rw [hpayload, decodeAnnouncement_localPayload hser hfit hvalid] at ha
        exact (Option.some.inj ha).symm
    | false =>
        rw [hpayload, AnnouncementCodec.encodeAnnouncement_of_invalid hvalid] at ha
        simp [decodeAnnouncement] at ha

end DiscoveryEngine

end Discovery
