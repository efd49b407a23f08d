import Discovery.Drain

/-!
# Whom a message speaks for

A message carries three identities: its sender, its recipient, and the node that
its payload announces.  Only the last one decides which entry changes.  The
sender is compared with the local node alone, and the recipient with nothing.
-/

namespace Discovery

open DiscoveryEncoder DiscoveryDecoder

namespace DiscoveryEngine

variable {T : Type} {deps : External T} {os : Os} {s : Runtime T} {c : DiscoveryConfig}
  {host bytes bytes' : Bytes} {port : UInt16} {rest : List Arrival}

/-! ## The announced node -/

theorem connects_of_accept (h : Live s c) {a : DiscoveryAnnouncement}
    (hr : nextReaction deps c s = .accept a) :
    (pollOnce deps os s).2.connects = s.connects ∨
      ∃ t, (pollOnce deps os s).2.connects =
        s.connects ++ [(t, ⟨a.nodeId, a.host, a.port⟩)] := by
  have hsteady := (timeDriven_steady deps os s).connects
  rw [pollOnce_of_accept os h hr]
  rcases integrateWithTransport_cases deps a
    (upsertDiscoveredPeer os a (consumed (timeDriven deps os s) s.world.inbox.tail 2)) with
    heq | ⟨t, -, -, -, -, heq⟩
  · rw [heq]
    exact .inl hsteady
  · rw [heq]
    exact .inr ⟨t, congrArg (· ++ _) hsteady⟩

/-- An accepted message changes the entry of the node that its payload
announces, and may have the transport engine connect to that node. -/
theorem accepted_concerns_announced (hs : Reachable deps os s) (hrunning : isRunning s = true)
    (hc : s.context.config = some c) (hinbox : s.world.inbox = .datagram host port bytes :: rest)
    {a : DiscoveryAnnouncement}
    (ha : Announces deps.ser c.nodeId host port
      (bytes.take s.backend.config.maxDatagramSize) a) :
    let s' := (pollOnce deps os s).2
    (∃ p, s'.engine.registry.get a.nodeId = some p ∧ p.announcement = a ∧ p.state = .alive) ∧
      (∀ n, n ≠ a.nodeId →
        s'.engine.registry.get n = (refreshedRegistry deps os c s).get n) ∧
      (s'.connects = s.connects ∨
        ∃ t, s'.connects = s.connects ++ [(t, ⟨a.nodeId, a.host, a.port⟩)]) := by
  have hlive := hs.live hrunning hc
  have hr := (nextReaction_eq_accept_iff hinbox).mpr ha
  obtain ⟨⟨now, hself⟩, hothers⟩ := stored_of_accept os hlive hr
  exact ⟨⟨_, hself, rfl, rfl⟩, hothers, connects_of_accept hlive hr⟩

section Forgery

open Simulation

/-- A message of `node-c` that announces another address of `node-a`. -/
def forgery : DiscoveryMessage :=
  { announcement "node-c" 9600 with
    payload := encodeAnnouncement .littleEndian (localAnnouncement (config "node-a" 6666) ⟨7⟩) }

def forged : Arrival := .datagram (ascii "127.0.0.1") 9600 (encodeMessage .littleEndian forgery)

/-- The engine of `node-b` after an announcement of `node-a`, about to read the
forgery. -/
def deceived : Runtime (List PeerInfo) :=
  environment [forged] id 0
    (pollOnce listing (system (ticking 1000)) (receiver [announced "node-a" 9500 9400])).2

theorem reachable_deceived : Reachable listing (system (ticking 1000)) deceived :=
  .environment _ _ _ (.exec .pollOnce (reachable_receiver _))

theorem announces_forgery :
    Announces .littleEndian (ascii "node-b") (ascii "127.0.0.1") 9600
      ((encodeMessage .littleEndian forgery).take (64 * 1024))
      (localAnnouncement (config "node-a" 6666) ⟨7⟩) :=
  ⟨by decide, ⟨forgery, by decide⟩, by decide, by decide⟩

theorem accepted_concerns_announced_forgery :
    (pollOnce listing (system (ticking 1000)) deceived).2.engine.registry.get (ascii "node-c") =
      (refreshedRegistry listing (system (ticking 1000)) (config "node-b" 9400) deceived).get
        (ascii "node-c") :=
  (accepted_concerns_announced reachable_deceived (by decide) (c := config "node-b" 9400) rfl rfl
    announces_forgery).2.1 _ (by decide)

/-- The forgery is accepted and gives `node-a` the port that `node-c` chose. -/
theorem accepted_redirects_another_node :
    let s := deceived
    let r := pollOnce listing (system (ticking 1000)) s
    Reachable listing (system (ticking 1000)) s ∧ isRunning s = true ∧
      s.context.config = some (config "node-b" 9400) ∧
      s.world.inbox = [.datagram (ascii "127.0.0.1") 9600 (encodeMessage listing.ser forgery)] ∧
      (encodeMessage listing.ser forgery).length ≤ s.backend.config.maxDatagramSize ∧
      decodeMessage listing.ser (encodeMessage listing.ser forgery) = some forgery ∧
      forgery.type = .announce ∧ forgery.fromNodeId = ascii "node-c" ∧ r.1 = true ∧
      (s.engine.registry.get (ascii "node-a")).map (fun p ↦ p.announcement.port) = some 9501 ∧
      ((refreshedRegistry listing (system (ticking 1000)) (config "node-b" 9400) s).get
        (ascii "node-a")).map (fun p ↦ p.announcement.port) = some 9501 ∧
      (r.2.engine.registry.get (ascii "node-a")).map (fun p ↦ p.announcement.port) =
        some 6667 :=
  ⟨reachable_deceived, by decide⟩

end Forgery

/-! ## The recipient -/

/-- The dispatch reads every field of a message but its recipient. -/
theorem dispatch_recipient (m : DiscoveryMessage) (recipient : Bytes) (host : Bytes)
    (port : UInt16) (now : Timestamp) (s : Runtime T) :
    dispatch deps os (inboundEnvelope { m with toNodeId := recipient } host port now) s =
      dispatch deps os (inboundEnvelope m host port now) s := rfl

theorem decodeDatagram_bad_source {ser : Serializer} {maxSize : ℕ}
    (hsource : ¬ (host ≠ [] ∧ port ≠ 0)) (bytes : Bytes) :
    decodeDatagram ser (UdpSocket.received maxSize (.datagram host port bytes)) = none := by
  by_contra hsome
  obtain ⟨m, hm⟩ := Option.ne_none_iff_exists'.mp hsome
  exact hsource (received_of_decode hm).1

theorem receive_recipient (h : Live s c)
    (hinbox : s.world.inbox = .datagram host port bytes :: rest)
    {m : DiscoveryMessage} {recipient : Bytes}
    (hm : decodeMessage deps.ser (bytes.take s.backend.config.maxDatagramSize) = some m)
    (hm' : decodeMessage deps.ser (bytes'.take s.backend.config.maxDatagramSize) =
      some { m with toNodeId := recipient }) :
    receive deps os s =
      receive deps os (withInbox (.datagram host port bytes' :: rest) s) := by
  have h' : Live (withInbox (.datagram host port bytes' :: rest) s) c :=
    h.of_kept ⟨rfl, rfl, rfl, rfl, le_rfl⟩
  have hbackend : (withInbox (.datagram host port bytes' :: rest) s).backend = s.backend := rfl
  rw [receive_cons deps os h hinbox, receive_cons deps os h' rfl, hbackend]
  by_cases hsource : host ≠ [] ∧ port ≠ 0
  · have hdecode := (decodeDatagram_received hsource).trans hm
    have hdecode' := (decodeDatagram_received hsource).trans hm'
    obtain ⟨-, hhost, hport⟩ := received_of_decode hdecode
    obtain ⟨-, hhost', hport'⟩ := received_of_decode hdecode'
    simp only [hdecode, hdecode', hhost, hport, hhost', hport', dispatch_recipient]
    rfl
  · simp only [decodeDatagram_bad_source hsource]
    rfl

/-- Two datagrams whose messages differ in the recipient alone have the same
effect. -/
theorem pollOnce_ignores_recipient (hs : Reachable deps os s) (hrunning : isRunning s = true)
    (hc : s.context.config = some c) (hinbox : s.world.inbox = .datagram host port bytes :: rest)
    {m : DiscoveryMessage} {recipient : Bytes}
    (hm : decodeMessage deps.ser (bytes.take s.backend.config.maxDatagramSize) = some m)
    (hm' : decodeMessage deps.ser (bytes'.take s.backend.config.maxDatagramSize) =
      some { m with toNodeId := recipient }) :
    pollOnce deps os s =
      pollOnce deps os (withInbox (.datagram host port bytes' :: rest) s) := by
  have hsteady := timeDriven_steady deps os s
  have hlive := (hs.live hrunning hc).of_kept hsteady.kept
  have hrunning' : isRunning (withInbox (.datagram host port bytes' :: rest) s) = true := hrunning
  rw [← hsteady.backend] at hm hm'
  simp only [pollOnce, hrunning, hrunning', timeDriven_withInbox, Bool.not_true,
    Bool.false_eq_true, if_false]
  exact receive_recipient hlive (hsteady.inbox.trans hinbox) hm hm'

section Directed

open Simulation

def directed (m : DiscoveryMessage) (recipient : String) : Arrival :=
  .datagram (ascii "127.0.0.1") 9500
    (encodeMessage .littleEndian { m with toNodeId := ascii recipient })

def directedReply : DiscoveryMessage :=
  replyMessage .littleEndian (config "node-a" 9500) (ascii "node-x") (ascii "probe-1") ⟨5⟩

theorem pollOnce_ignores_recipient_reply :
    pollOnce listing (system (ticking 1000)) (receiver [directed directedReply "node-x"]) =
      pollOnce listing (system (ticking 1000)) (receiver [directed directedReply ""]) :=
  have hm' : decodeMessage listing.ser ((encodeMessage .littleEndian
      { directedReply with toNodeId := [] }).take (64 * 1024)) =
        some { directedReply with toNodeId := [] } := by decide
  pollOnce_ignores_recipient (m := directedReply) (c := config "node-b" 9400)
    (reachable_receiver _) (by decide) rfl rfl (by decide) hm'

/-- The engine of `node-b` stores the sender of an announcement and of a reply
to `node-x`, and answers a probe of `node-x`. -/
theorem directed_messages_processed :
    let os := system (ticking 1000)
    let announce := receiver [directed (announcement "node-a" 9500) "node-x"]
    let reply := receiver [directed directedReply "node-x"]
    let probe := receiver [directed (probeMessage (config "node-a" 9500) ⟨5⟩) "node-x"]
    (∀ s ∈ [announce, reply, probe], Reachable listing os s) ∧
      (∀ s ∈ [announce, reply, probe],
        isRunning s = true ∧ s.context.config = some (config "node-b" 9400) ∧
          (s.world.inbox.all fun arrival ↦
            match arrival with
            | .datagram _ _ bytes => (decodeMessage listing.ser bytes).any fun m ↦
                m.isValid && decide (m.toNodeId = ascii "node-x")
            | .failure => false) = true) ∧
      ((pollOnce listing os announce).2.engine.registry.get (ascii "node-a")).isSome = true ∧
      (pollOnce listing os announce).2.connects.length = announce.connects.length + 1 ∧
      ((pollOnce listing os reply).2.engine.registry.get (ascii "node-a")).isSome = true ∧
      (pollOnce listing os reply).2.connects.length = reply.connects.length + 1 ∧
      ((pollOnce listing os probe).2.world.attempts.map fun e ↦ e.message.type) =
        ((timeDriven listing os probe).world.attempts.map fun e ↦ e.message.type) ++ [.reply] := by
  refine ⟨fun s hs ↦ ?_, by decide⟩
  simp only [List.mem_cons, List.not_mem_nil, or_false] at hs
  rcases hs with rfl | rfl | rfl <;> exact reachable_receiver _

end Directed

end DiscoveryEngine

end Discovery
