import Discovery.Simulation

/-!
# The effect of one inbound datagram

The conditions under which a datagram announces a peer or probes the engine,
stated on its bytes, and what one poll does in each case.
-/

namespace Discovery

open DiscoveryEncoder DiscoveryDecoder

namespace DiscoveryEngine

/-- The datagram from `host` and `port` with the contents `data` announces `a`
to the node `localId`. -/
structure Announces (ser : Serializer) (localId host : Bytes) (port : UInt16) (data : Bytes)
    (a : DiscoveryAnnouncement) : Prop where
  source : host ≠ [] ∧ port ≠ 0
  message : ∃ m, decodeMessage ser data = some m ∧ m.isValid = true ∧ m.fromNodeId ≠ localId ∧
    (m.type = .announce ∨ m.type = .reply) ∧ decodeAnnouncement ser m.payload = some a
  isValid : a.isValid = true
  nodeId : a.nodeId ≠ localId

/-- It probes the node with the message `m`. -/
structure Probes (ser : Serializer) (localId host : Bytes) (port : UInt16) (data : Bytes)
    (m : DiscoveryMessage) : Prop where
  source : host ≠ [] ∧ port ≠ 0
  message : decodeMessage ser data = some m
  isValid : m.isValid = true
  sender : m.fromNodeId ≠ localId
  type : m.type = .probe

section React

variable {ser : Serializer} {maxSize : ℕ} {localId host : Bytes} {port : UInt16} {bytes : Bytes}

theorem decodeDatagram_received (hsource : host ≠ [] ∧ port ≠ 0) :
    decodeDatagram ser (UdpSocket.received maxSize (.datagram host port bytes)) =
      decodeMessage ser (bytes.take maxSize) := by
  obtain ⟨hhost, hport⟩ := hsource
  unfold UdpSocket.received
  dsimp only
  split_ifs with hempty
  · rw [List.isEmpty_iff.mp hempty]
    rfl
  · have hvalid : (Datagram.mk host port (bytes.take maxSize)).isValid = true :=
      (Datagram.isValid_iff _).mpr ⟨hhost, hport, by simpa using hempty⟩
    rw [decodeDatagram, hvalid, Bool.not_true, if_neg Bool.false_ne_true,
      MessageCodec.decodeBuffer_eq]

theorem received_of_decode {m : DiscoveryMessage}
    (h : decodeDatagram ser (UdpSocket.received maxSize (.datagram host port bytes)) = some m) :
    (host ≠ [] ∧ port ≠ 0) ∧
      (UdpSocket.received maxSize (.datagram host port bytes)).host = host ∧
      (UdpSocket.received maxSize (.datagram host port bytes)).port = port := by
  obtain ⟨hhost, hport, -⟩ := (Datagram.isValid_iff _).mp (isValid_of_decodeDatagram h).1
  unfold UdpSocket.received at hhost hport ⊢
  dsimp only at hhost hport ⊢
  split_ifs at hhost hport ⊢ with hempty
  · exact absurd rfl hhost
  · exact ⟨⟨hhost, hport⟩, rfl, rfl⟩

theorem react_eq_accept_iff {a : DiscoveryAnnouncement} :
    react ser maxSize localId (.datagram host port bytes) = .accept a ↔
      Announces ser localId host port (bytes.take maxSize) a := by
  unfold react
  constructor
  · intro h
    cases hdecode : decodeDatagram ser (UdpSocket.received maxSize (.datagram host port bytes)) with
    | none => simp [hdecode] at h
    | some m =>
        obtain ⟨hsource, -, -⟩ := received_of_decode hdecode
        have hm := (isValid_of_decodeDatagram hdecode).2
        simp only [hdecode, reactTo] at h
        split_ifs at h with hself hprobe
        cases ha : decodeAnnouncement ser m.payload with
        | none => simp [ha] at h
        | some a' =>
            simp only [ha] at h
            split_ifs at h with hlocal
            obtain rfl : a' = a := by simpa using h
            have htype := (DiscoveryMessageType.isValid_iff _).mp
              ((DiscoveryMessage.isValid_iff m).mp hm).1
            rw [decodeDatagram_received hsource] at hdecode
            refine ⟨hsource, ⟨m, hdecode, hm, hself, ?_, ha⟩,
              AnnouncementCodec.isValid_of_decodeAnnouncement ha, hlocal⟩
            tauto
  · rintro ⟨hsource, ⟨m, hdecode, hm, hself, htype, ha⟩, -, hlocal⟩
    have hprobe : m.type ≠ .probe := by rcases htype with h | h <;> simp [h]
    rw [decodeDatagram_received hsource, hdecode]
    simp [reactTo, hself, hprobe, ha, hlocal]

theorem react_eq_answer_iff {m : DiscoveryMessage} {host' : Bytes} {port' : UInt16} :
    react ser maxSize localId (.datagram host port bytes) = .answer m host' port' ↔
      Probes ser localId host port (bytes.take maxSize) m ∧ host' = host ∧ port' = port := by
  constructor
  · intro h
    have hm := answered_of_react h
    unfold react at h
    cases hdecode : decodeDatagram ser (UdpSocket.received maxSize (.datagram host port bytes)) with
    | none => simp [hdecode] at h
    | some m' =>
        obtain ⟨hsource, hhost, hport⟩ := received_of_decode hdecode
        simp only [hdecode, reactTo, hhost, hport] at h
        split_ifs at h with hself hprobe
        · obtain ⟨rfl, rfl, rfl⟩ : m' = m ∧ host = host' ∧ port = port' := by simpa using h
          rw [decodeDatagram_received hsource] at hdecode
          exact ⟨⟨hsource, hdecode, hm.isValid, hm.sender, hm.type⟩, rfl, rfl⟩
        · split at h
          · cases h
          · split_ifs at h
  · rintro ⟨⟨hsource, hdecode, hm, hself, hprobe⟩, rfl, rfl⟩
    have hdecode' := (decodeDatagram_received hsource).trans hdecode
    obtain ⟨-, hhost, hport⟩ := received_of_decode hdecode'
    unfold react
    rw [hdecode']
    simp [reactTo, hself, hprobe, hhost, hport]

end React

/-! ## The periodic announcement -/

variable {T : Type} {deps : External T} {os : Os} {s : Runtime T} {c : DiscoveryConfig}

/-- Nothing was tried since `w`, or one announcement was. -/
def AtMostOneAnnounce (w w' : World) : Prop :=
  w'.attempts = w.attempts ∨
    ∃ e : DiscoveryEnvelope, e.message.type = .announce ∧ w'.attempts = w.attempts ++ [e]

theorem announceNow_attempts (s : Runtime T) :
    AtMostOneAnnounce s.world (announceNow deps os s).2.world := by
  cases hrunning : isRunning s with
  | false => exact .inl (by simp [announceNow, hrunning])
  | true =>
      cases hc : s.context.configChecked with
      | error e => exact .inl (by simp [announceNow, hrunning, hc])
      | ok c =>
          have hsend := clientSend_spec deps.ser os s.backend
            (announceEnvelope deps.ser os c s.world.ticks)
            { s.world with ticks := s.world.ticks + 3 }
          refine .inr ⟨announceEnvelope deps.ser os c s.world.ticks, rfl, ?_⟩
          rw [announceNow_eq hrunning hc]
          dsimp only
          split_ifs
          · exact hsend.attempts
          · exact hsend.attempts

theorem timeDriven_attempts (s : Runtime T) :
    AtMostOneAnnounce s.world (timeDriven deps os s).world := by
  have hrefresh (t : Runtime T) :
      (refreshPeerStates os t).world.attempts = t.world.attempts := by
    unfold refreshPeerStates World.now
    split <;> rfl
  have hannounce : AtMostOneAnnounce s.world (maybeAnnounce deps os s).world := by
    unfold maybeAnnounce World.now
    split
    · exact .inl rfl
    · dsimp only
      split_ifs
      · exact announceNow_attempts { s with world.ticks := s.world.ticks + 1 }
      · exact .inl rfl
  rw [AtMostOneAnnounce, timeDriven, hrefresh]
  exact hannounce

/-! ## The effect of a poll -/

section Effect

variable {host bytes : Bytes} {port : UInt16} {rest : List Arrival}

variable (deps c) in
theorem nextReaction_cons (hinbox : s.world.inbox = .datagram host port bytes :: rest) :
    nextReaction deps c s =
      react deps.ser s.backend.config.maxDatagramSize c.nodeId (.datagram host port bytes) := by
  rw [nextReaction, hinbox]

theorem nextReaction_eq_accept_iff (hinbox : s.world.inbox = .datagram host port bytes :: rest)
    {a : DiscoveryAnnouncement} : nextReaction deps c s = .accept a ↔
      Announces deps.ser c.nodeId host port (bytes.take s.backend.config.maxDatagramSize) a := by
  rw [nextReaction_cons deps c hinbox, react_eq_accept_iff]

variable (os) in
/-- An accepted announcement is stored for its node and for no other. -/
theorem stored_of_accept {a : DiscoveryAnnouncement} (h : Live s c)
    (hr : nextReaction deps c s = .accept a) :
    let refreshed := refreshedRegistry deps os c s
    let registry := (pollOnce deps os s).2.engine.registry
    (∃ now, registry.get a.nodeId = some (refreshed.refreshed a now)) ∧
      ∀ n, n ≠ a.nodeId → registry.get n = refreshed.get n := by
  have hspec := (pollOnce_spec deps os h).registry
  rw [hr] at hspec
  dsimp only
  rw [hspec]
  refine ⟨?_, fun n hn ↦ DiscoveryRegistry.get_upsertAnnouncement_ne _ hn _⟩
  obtain ⟨i, -, -, hget⟩ := DiscoveryRegistry.get_upsertAnnouncement_self os.clock
    (isValid_of_nextReaction hr) (r := refreshedRegistry deps os c s)
    ((timeDriven deps os s).world.ticks + 2)
  exact ⟨_, hget⟩

variable (os) in
theorem unchanged_of_not_accept (h : Live s c) (hr : ∀ a, nextReaction deps c s ≠ .accept a) :
    (pollOnce deps os s).2.engine.registry = refreshedRegistry deps os c s ∧
      (pollOnce deps os s).2.connects = s.connects ∧
      (pollOnce deps os s).2.context = s.context := by
  have hspec := (pollOnce_spec deps os h).registry
  have hsteady := timeDriven_steady deps os s
  rcases pollOnce_cases deps os h with ⟨hr', k, heq⟩ | ⟨a, hr', -⟩ | ⟨m, host, port, hr', heq⟩
  · rw [hspec, hr', heq]
    exact ⟨rfl, hsteady.connects, hsteady.context⟩
  · exact absurd hr' (hr a)
  · rw [hspec, hr', heq]
    exact ⟨rfl, hsteady.connects, hsteady.context⟩

theorem silent_of_not_answer (h : Live s c)
    (hr : ∀ m host port, nextReaction deps c s ≠ .answer m host port) :
    (pollOnce deps os s).2.world.attempts = (timeDriven deps os s).world.attempts ∧
      (pollOnce deps os s).2.world.outbox = (timeDriven deps os s).world.outbox := by
  rcases pollOnce_cases deps os h with ⟨-, k, heq⟩ | ⟨a, -, heq⟩ | ⟨m, host, port, hr', -⟩
  · rw [heq]
    exact ⟨rfl, rfl⟩
  · rw [heq, (integrateWithTransport_handOff _ _ _).world]
    exact ⟨rfl, rfl⟩
  · exact absurd hr' (hr m host port)

/-- One poll on a datagram.  An announced peer is stored and nothing else in the
refreshed registry changes; without one, or when the poll returns false, the
registry is the refreshed one and the transport engine is left alone.  Beyond
the periodic announcement, a probe leads to one reply to its source, and
anything else to no send at all. -/
theorem pollOnce_effect (hs : Reachable deps os s) (hrunning : isRunning s = true)
    (hc : s.context.config = some c) (hinbox : s.world.inbox = .datagram host port bytes :: rest) :
    let data := bytes.take s.backend.config.maxDatagramSize
    let refreshed := refreshedRegistry deps os c s
    let timed := (timeDriven deps os s).world
    let s' := (pollOnce deps os s).2
    (∀ a, Announces deps.ser c.nodeId host port data a →
      (pollOnce deps os s).1 = true ∧
        (∃ now, s'.engine.registry.get a.nodeId = some (refreshed.refreshed a now)) ∧
          ∀ n, n ≠ a.nodeId → s'.engine.registry.get n = refreshed.get n) ∧
    ((∀ a, ¬ Announces deps.ser c.nodeId host port data a) ∨ (pollOnce deps os s).1 = false →
      s'.engine.registry = refreshed ∧ s'.connects = s.connects ∧ s'.context = s.context) ∧
    AtMostOneAnnounce s.world timed ∧
    (∀ m, Probes deps.ser c.nodeId host port data m →
      ∃ e : DiscoveryEnvelope, s'.world.attempts = timed.attempts ++ [e] ∧
        e.message.type = .reply ∧ e.toHost = host ∧ e.toPort = port) ∧
    ((∀ m, ¬ Probes deps.ser c.nodeId host port data m) →
      s'.world.attempts = timed.attempts ∧ s'.world.outbox = timed.outbox) := by
  have hlive := hs.live hrunning hc
  have haccept (a : DiscoveryAnnouncement) : nextReaction deps c s = .accept a ↔
      Announces deps.ser c.nodeId host port (bytes.take s.backend.config.maxDatagramSize) a :=
    nextReaction_eq_accept_iff hinbox
  have hanswer (m : DiscoveryMessage) (h' : Bytes) (p' : UInt16) :
      nextReaction deps c s = .answer m h' p' ↔
        Probes deps.ser c.nodeId host port (bytes.take s.backend.config.maxDatagramSize) m ∧
          h' = host ∧ p' = port := by
    rw [nextReaction_cons deps c hinbox, react_eq_answer_iff]
  dsimp only
  simp only [← haccept]
  refine ⟨fun a ha ↦ ?_, fun h ↦ ?_, timeDriven_attempts s, fun m hm ↦ ?_, fun h ↦ ?_⟩
  · exact ⟨by rw [pollOnce_of_accept os hlive ha], stored_of_accept os hlive ha⟩
  · refine unchanged_of_not_accept os hlive fun a ha ↦ ?_
    rcases h with hnone | hfalse
    · exact hnone a ha
    · rw [pollOnce_of_accept os hlive ha] at hfalse
      cases hfalse
  · have hsend := clientSend_spec deps.ser os s.backend
      (replyEnvelope deps.ser os c m host port ((timeDriven deps os s).world.ticks + 2))
      (consumed (timeDriven deps os s) s.world.inbox.tail 4).world
    rw [pollOnce_of_answer hlive ((hanswer m host port).mpr ⟨hm, rfl, rfl⟩)]
    exact ⟨_, hsend.attempts, rfl, rfl, rfl⟩
  · exact silent_of_not_answer hlive fun m h' p' hr ↦ h m ((hanswer m h' p').mp hr).1

open Simulation in
theorem pollOnce_effect_hello :
    (pollOnce listing (system (ticking 1000)) (receiver [announced "node-a" 9500 9400])).1 = true :=
  ((pollOnce_effect (c := config "node-b" 9400) (reachable_receiver _) (by decide) (by decide)
    rfl).1 (localAnnouncement (config "node-a" 9500) ⟨5⟩)
      ⟨by decide, ⟨announcement "node-a" 9500, by decide⟩, by decide, by decide⟩).1

open Simulation in
/-- A datagram whose source port is 0 is dropped, whatever its bytes say. -/
theorem pollOnce_effect_port_zero :
    let s := receiver [announced "node-a" 9500 0]
    let m := announcement "node-a" 9500
    let a := localAnnouncement (config "node-a" 9500) ⟨5⟩
    Reachable listing (system (ticking 1000)) s ∧ isRunning s = true ∧
      s.context.config = some (config "node-b" 9400) ∧
      s.world.inbox = [.datagram (ascii "127.0.0.1") 0 (encodeMessage listing.ser m)] ∧
      (encodeMessage listing.ser m).length ≤ s.backend.config.maxDatagramSize ∧
      decodeMessage listing.ser (encodeMessage listing.ser m) = some m ∧ m.isValid = true ∧
      m.fromNodeId ≠ ascii "node-b" ∧ m.type = .announce ∧
      decodeAnnouncement listing.ser m.payload = some a ∧ a.nodeId ≠ ascii "node-b" ∧
      (pollOnce listing (system (ticking 1000)) s).1 = false ∧
      (pollOnce listing (system (ticking 1000)) s).2.engine.registry.get a.nodeId = none :=
  ⟨reachable_receiver _, by decide⟩

end Effect

end DiscoveryEngine

end Discovery
