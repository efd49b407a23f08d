import Discovery.Sending

/-!
# What one step of the engine can do

Each function of the engine gets one lemma that says all it may change.  Sending
touches the process only, the refresh rewrites the registry at one reading of
the clock, and an inbound datagram is rejected, accepted or answered.
-/

namespace Discovery

open DiscoveryEncoder DiscoveryDecoder

namespace DiscoveryEngine

variable {T : Type} {deps : External T} {os : Os} {s s' s'' : Runtime T} {c : DiscoveryConfig}

/-! ## Frames -/

/-- `s'` differs from `s` at most in the registry, clock readings, system calls,
the records of what was sent and the time of the last announcement. -/
structure Steady (s s' : Runtime T) : Prop where
  status : s'.engine.status = s.engine.status
  context : s'.context = s.context
  backend : s'.backend = s.backend
  connects : s'.connects = s.connects
  inbox : s'.world.inbox = s.world.inbox
  ticks : s.world.ticks ≤ s'.world.ticks

/-- A steady step that keeps the registry too. -/
structure Quiet (s s' : Runtime T) : Prop extends Steady s s' where
  registry : s'.engine.registry = s.engine.registry

theorem Steady.refl (s : Runtime T) : Steady s s := ⟨rfl, rfl, rfl, rfl, rfl, le_rfl⟩

theorem Steady.trans (h : Steady s s') (h' : Steady s' s'') : Steady s s'' :=
  ⟨h'.status.trans h.status, h'.context.trans h.context, h'.backend.trans h.backend,
    h'.connects.trans h.connects, h'.inbox.trans h.inbox, h.ticks.trans h'.ticks⟩

theorem Quiet.refl (s : Runtime T) : Quiet s s := ⟨.refl s, rfl⟩

theorem Quiet.trans (h : Quiet s s') (h' : Quiet s' s'') : Quiet s s'' :=
  ⟨h.toSteady.trans h'.toSteady, h'.registry.trans h.registry⟩

theorem Quiet.of_world {w : World} (hinbox : w.inbox = s.world.inbox)
    (hticks : s.world.ticks ≤ w.ticks) : Quiet s { s with world := w } :=
  ⟨⟨rfl, rfl, rfl, rfl, hinbox, hticks⟩, rfl⟩

/-- What announcing, probing and polling never change. -/
structure Kept (s s' : Runtime T) : Prop where
  status : s'.engine.status = s.engine.status
  backend : s'.backend = s.backend
  config : s'.context.config = s.context.config
  transport : s'.context.transport.isSome = s.context.transport.isSome
  ticks : s.world.ticks ≤ s'.world.ticks

theorem Kept.refl (s : Runtime T) : Kept s s := ⟨rfl, rfl, rfl, rfl, le_rfl⟩

theorem Kept.trans (h : Kept s s') (h' : Kept s' s'') : Kept s s'' :=
  ⟨h'.status.trans h.status, h'.backend.trans h.backend, h'.config.trans h.config,
    h'.transport.trans h.transport, h.ticks.trans h'.ticks⟩

theorem Steady.kept (h : Steady s s') : Kept s s' :=
  ⟨h.status, h.backend, by rw [h.context], by rw [h.context], h.ticks⟩

theorem Kept.configChecked (h : Kept s s') :
    s'.context.configChecked = s.context.configChecked := by
  simp [DiscoveryContext.configChecked, h.config]

theorem Kept.isRunning (h : Kept s s') : isRunning s' = isRunning s := by
  simp [DiscoveryEngine.isRunning, h.status, h.backend]

/-! ## Announcing and probing -/

/-- The envelope of `announce_now` when the clock has been read `ticks` times. -/
def announceEnvelope (ser : Serializer) (os : Os) (c : DiscoveryConfig) (ticks : ℕ) :
    DiscoveryEnvelope :=
  .outbound (announceMessage ser c (os.clock ticks) (os.clock (ticks + 1))) c.broadcastHost
    c.broadcastPort (os.clock (ticks + 2))

def probeEnvelope (os : Os) (c : DiscoveryConfig) (ticks : ℕ) : DiscoveryEnvelope :=
  .outbound (probeMessage c (os.clock ticks)) c.broadcastHost c.broadcastPort
    (os.clock (ticks + 1))


theorem announceNow_eq (hrunning : isRunning s = true) (hc : s.context.configChecked = .ok c) :
    announceNow deps os s =
      let sent := DiscoveryClient.send deps.ser os s.backend
        (announceEnvelope deps.ser os c s.world.ticks) { s.world with ticks := s.world.ticks + 3 }
      if sent.1 then
        (true, { s with
          world := { sent.2 with ticks := sent.2.ticks + 1 }
          engine.lastAnnounceAt := os.clock sent.2.ticks })
      else (false, { s with world := sent.2 }) := by
  simp only [announceNow, hrunning, hc, makeAnnounceMessage_eq hc, makeOutboundEnvelope, World.now,
    announceEnvelope, Bool.not_true, Bool.false_eq_true, if_false]
  split_ifs with h <;> simp [h]

theorem probeNow_eq (hrunning : isRunning s = true) (hc : s.context.configChecked = .ok c) :
    probeNow deps os s =
      let sent := DiscoveryClient.send deps.ser os s.backend (probeEnvelope os c s.world.ticks)
        { s.world with ticks := s.world.ticks + 2 }
      (sent.1, { s with world := sent.2 }) := by
  simp only [probeNow, hrunning, hc, makeProbeMessage_eq hc, makeOutboundEnvelope, World.now,
    probeEnvelope, Bool.not_true, Bool.false_eq_true, if_false]

theorem announceNow_of_not_running (h : isRunning s = false) :
    announceNow deps os s = (false, s) := by
  simp [announceNow, h]

theorem announceNow_of_error {e : Error} (h : s.context.configChecked = .error e) :
    announceNow deps os s = (false, s) := by
  unfold announceNow
  rw [h]
  split <;> rfl

variable (deps os) in
theorem announceNow_quiet (s : Runtime T) : Quiet s (announceNow deps os s).2 := by
  cases hrunning : isRunning s with
  | false => simpa [announceNow, hrunning] using Quiet.refl s
  | true =>
      cases hc : s.context.configChecked with
      | error e => simpa [announceNow, hrunning, hc] using Quiet.refl s
      | ok c =>
          have hsend := clientSend_spec deps.ser os s.backend
            (announceEnvelope deps.ser os c s.world.ticks)
            { s.world with ticks := s.world.ticks + 3 }
          have hticks := (Nat.le_add_right _ 3).trans hsend.ticks
          rw [announceNow_eq hrunning hc]
          dsimp only
          split_ifs
          · exact ⟨⟨rfl, rfl, rfl, rfl, hsend.inbox, hticks.trans (Nat.le_succ _)⟩, rfl⟩
          · exact .of_world hsend.inbox hticks

variable (deps os) in
theorem probeNow_quiet (s : Runtime T) : Quiet s (probeNow deps os s).2 := by
  cases hrunning : isRunning s with
  | false => simpa [probeNow, hrunning] using Quiet.refl s
  | true =>
      cases hc : s.context.configChecked with
      | error e => simpa [probeNow, hrunning, hc] using Quiet.refl s
      | ok c =>
          have hsend := clientSend_spec deps.ser os s.backend
            (probeEnvelope os c s.world.ticks)
            { s.world with ticks := s.world.ticks + 2 }
          rw [probeNow_eq hrunning hc]
          exact .of_world hsend.inbox ((Nat.le_add_right _ 2).trans hsend.ticks)

theorem maybeAnnounce_cases (hc : s.context.configChecked = .ok c) :
    maybeAnnounce deps os s =
      let t := { s with world.ticks := s.world.ticks + 1 }
      if !s.engine.lastAnnounceAt.isValid ∨
          (os.clock s.world.ticks).millis - s.engine.lastAnnounceAt.millis ≥
            c.announceInterval.millis then
        (announceNow deps os t).2
      else t := by
  simp only [maybeAnnounce, hc, World.now]
  rfl

variable (deps os) in
theorem maybeAnnounce_quiet (s : Runtime T) : Quiet s (maybeAnnounce deps os s) := by
  cases hc : s.context.configChecked with
  | error e => simpa [maybeAnnounce, hc] using Quiet.refl s
  | ok c =>
      have htick : Quiet s { s with world.ticks := s.world.ticks + 1 } :=
        .of_world rfl (Nat.le_succ _)
      rw [maybeAnnounce_cases hc]
      dsimp only
      split_ifs
      · exact htick.trans (announceNow_quiet _ _ _)
      · exact htick

/-! ## The refresh -/

/-- The clock value at which `poll_once` refreshes the registry. -/
def refreshTime (deps : External T) (os : Os) (s : Runtime T) : Timestamp :=
  os.clock (maybeAnnounce deps os s).world.ticks

def refreshedRegistry (deps : External T) (os : Os) (c : DiscoveryConfig) (s : Runtime T) :
    DiscoveryRegistry :=
  (s.engine.registry.refreshStates (refreshTime deps os s) (.fromMillis (c.peerTtl.millis / 2))
    c.peerTtl).2

variable (deps os) in
theorem timeDriven_registry (hc : s.context.configChecked = .ok c) :
    (timeDriven deps os s).engine.registry = refreshedRegistry deps os c s := by
  have hq := maybeAnnounce_quiet deps os s
  have hc' : (maybeAnnounce deps os s).context.configChecked = .ok c := by rw [hq.context, hc]
  simp only [timeDriven, refreshPeerStates, hc', World.now, refreshedRegistry, refreshTime,
    hq.registry]

theorem refreshPeerStates_steady (s : Runtime T) : Steady s (refreshPeerStates os s) := by
  cases hc : s.context.configChecked with
  | error e => simpa [refreshPeerStates, hc] using Steady.refl s
  | ok c =>
      simp only [refreshPeerStates, hc, World.now]
      exact ⟨rfl, rfl, rfl, rfl, rfl, Nat.le_succ _⟩

variable (deps os) in
theorem timeDriven_steady (s : Runtime T) : Steady s (timeDriven deps os s) :=
  (maybeAnnounce_quiet _ _ s).toSteady.trans (refreshPeerStates_steady _)

variable (deps os) in
theorem timeDriven_ticks (hc : s.context.configChecked = .ok c) :
    (timeDriven deps os s).world.ticks = (maybeAnnounce deps os s).world.ticks + 1 := by
  have hc' : (maybeAnnounce deps os s).context.configChecked = .ok c := by
    rw [(maybeAnnounce_quiet _ _ s).context, hc]
  simp only [timeDriven, refreshPeerStates, hc', World.now]

/-! ## One inbound datagram -/

/-- What an engine makes of one arrival. -/
inductive Reaction where
  | reject
  | accept (announcement : DiscoveryAnnouncement)
  | answer (probe : DiscoveryMessage) (host : Bytes) (port : UInt16)
deriving DecidableEq

def reactTo (ser : Serializer) (localId : Bytes) (d : Datagram) (m : DiscoveryMessage) : Reaction :=
  if m.fromNodeId = localId then .reject
  else if m.type = .probe then .answer m d.host d.port
  else match decodeAnnouncement ser m.payload with
    | none => .reject
    | some a => if a.nodeId = localId then .reject else .accept a

/-- The reaction of the engine of node `localId` with receive buffers of
`maxSize` bytes. -/
def react (ser : Serializer) (maxSize : ℕ) (localId : Bytes) (arrival : Arrival) : Reaction :=
  match decodeDatagram ser (UdpSocket.received maxSize arrival) with
  | none => .reject
  | some m => reactTo ser localId (UdpSocket.received maxSize arrival) m

/-- An engine that runs under a valid configuration. -/
structure Live (s : Runtime T) (c : DiscoveryConfig) : Prop where
  isRunning : isRunning s = true
  config : s.context.configChecked = .ok c
  socket : s.backend.socket.isValid = true
  maxDatagramSize : 0 < s.backend.config.maxDatagramSize

theorem Live.backend (h : Live s c) : s.backend.running = true :=
  (Bool.and_eq_true_iff.mp h.isRunning).2

theorem Live.context (h : Live s c) : s.context.config = some c :=
  ((DiscoveryContext.configChecked_eq_ok_iff _ _).mp h.config).1

theorem Live.valid (h : Live s c) : c.Valid :=
  ((DiscoveryContext.configChecked_eq_ok_iff _ _).mp h.config).2

theorem Live.of_kept (h : Live s c) (hs : Kept s s') : Live s' c :=
  ⟨hs.isRunning.trans h.isRunning, hs.configChecked.trans h.config, by rw [hs.backend, h.socket],
    by rw [hs.backend]; exact h.maxDatagramSize⟩

/-- The state once an arrival is read, with `k` more readings of the clock. -/
def consumed (s : Runtime T) (rest : List Arrival) (k : ℕ) : Runtime T :=
  { s with world.inbox := rest, world.ticks := s.world.ticks + k }

def inboundEnvelope (m : DiscoveryMessage) (host : Bytes) (port : UInt16) (now : Timestamp) :
    DiscoveryEnvelope where
  message := m
  fromHost := host
  fromPort := port
  timestamp := now

theorem poll_nil (hinbox : s.world.inbox = []) :
    s.backend.poll deps.ser os s.world = (none, s.world) := by
  have hrecv : s.backend.socket.recvDatagram s.backend.config.maxDatagramSize s.world =
      ({}, s.world) := by
    simp [UdpSocket.recvDatagram, hinbox]
  have hempty : Datagram.isValid {} = false := rfl
  simp [UdpDiscoveryBackend.poll, hrecv, hempty]

theorem poll_cons (h : Live s c) {arrival : Arrival} {rest : List Arrival}
    (hinbox : s.world.inbox = arrival :: rest) :
    s.backend.poll deps.ser os s.world =
      let d := UdpSocket.received s.backend.config.maxDatagramSize arrival
      match decodeDatagram deps.ser d with
      | none => (none, (consumed s rest 0).world)
      | some m => (some (inboundEnvelope m d.host d.port (os.clock (s.world.ticks + 1))),
          (consumed s rest 2).world) := by
  have hmax : (s.backend.config.maxDatagramSize == 0) = false :=
    beq_false_of_ne h.maxDatagramSize.ne'
  simp only [UdpDiscoveryBackend.poll, h.backend, UdpSocket.recvDatagram, h.socket, hmax, hinbox,
    Bool.not_true, Bool.or_self, Bool.false_eq_true, if_false]
  cases hvalid : (UdpSocket.received s.backend.config.maxDatagramSize arrival).isValid with
  | false => simp [decodeDatagram, hvalid, consumed]
  | true =>
      simp only [Bool.not_true, Bool.false_eq_true, if_false]
      cases decodeDatagram deps.ser
          (UdpSocket.received s.backend.config.maxDatagramSize arrival) with
      | none => simp [consumed]
      | some m => simp [consumed, World.now, DiscoveryEnvelope.ofMessage, inboundEnvelope]

theorem receive_nil (hinbox : s.world.inbox = []) : receive deps os s = (false, s) := by
  simp [receive, poll_nil hinbox]

variable {arrival : Arrival} {rest : List Arrival}

variable (deps os) in
theorem receive_cons (h : Live s c) (hinbox : s.world.inbox = arrival :: rest) :
    receive deps os s =
      let d := UdpSocket.received s.backend.config.maxDatagramSize arrival
      match decodeDatagram deps.ser d with
      | none => (false, consumed s rest 0)
      | some m => dispatch deps os
          (inboundEnvelope m d.host d.port (os.clock (s.world.ticks + 1))) (consumed s rest 2) := by
  simp only [receive, poll_cons h hinbox]
  cases decodeDatagram deps.ser (UdpSocket.received s.backend.config.maxDatagramSize arrival) with
  | none => rfl
  | some m => rfl

theorem isValid_of_decodeDatagram {ser : Serializer} {d : Datagram} {m : DiscoveryMessage}
    (h : decodeDatagram ser d = some m) : d.isValid = true ∧ m.isValid = true := by
  unfold decodeDatagram decodeBuffer decodeMessage at h
  split_ifs at h with h₁ h₂ h₃
  refine ⟨by simpa using h₁, ?_⟩
  rw [MessageCodec.decodeFields_eq] at h
  exact (Option.filter_eq_some_iff.mp h).2

theorem handleAnnouncement_eq (hc : s.context.configChecked = .ok c) (e : DiscoveryEnvelope) :
    handleAnnouncement deps os e s =
      match decodeAnnouncement deps.ser e.message.payload with
      | none => (false, s)
      | some a => if a.nodeId = c.nodeId then (false, s)
          else (true, integrateWithTransport deps a (upsertDiscoveredPeer os a s)) := by
  simp only [handleAnnouncement, localNodeId_eq hc]
  cases ha : decodeAnnouncement deps.ser e.message.payload with
  | none => rfl
  | some a =>
      have hvalid := AnnouncementCodec.isValid_of_decodeAnnouncement ha
      simp [hvalid]

theorem dispatch_eq (hc : s.context.configChecked = .ok c) {d : Datagram} {m : DiscoveryMessage}
    (hm : m.isValid = true) (now : Timestamp) :
    dispatch deps os (inboundEnvelope m d.host d.port now) s =
      match reactTo deps.ser c.nodeId d m with
      | .reject => (false, s)
      | .accept a => (true, integrateWithTransport deps a (upsertDiscoveredPeer os a s))
      | .answer m host port => handleProbe deps os (inboundEnvelope m host port now) s := by
  have htype := (DiscoveryMessageType.isValid_iff _).mp ((DiscoveryMessage.isValid_iff m).mp hm).1
  by_cases hself : m.fromNodeId = c.nodeId
  · simp [dispatch, inboundEnvelope, hm, localNodeId_eq hc, reactTo, hself]
  · have hdispatch (e : DiscoveryEnvelope) (he : e.message = m) : dispatch deps os e s =
        if m.type = .probe then handleProbe deps os e s else handleAnnouncement deps os e s := by
      simp only [dispatch, he, hm, localNodeId_eq hc, hself, Bool.not_true, Bool.false_eq_true,
        if_false, beq_iff_eq]
      rcases htype with h | h | h <;> simp [h, handleAnnounce, handleReply]
    rw [hdispatch _ rfl, handleAnnouncement_eq hc]
    simp only [reactTo, hself, if_false, inboundEnvelope]
    split_ifs with hprobe
    · rfl
    · cases decodeAnnouncement deps.ser m.payload with
      | none => rfl
      | some a => dsimp only; split_ifs <;> rfl

variable (deps os) in
/-- `receive` follows `react`.  A rejected datagram costs at most the two clock
readings of the envelope. -/
theorem receive_eq (h : Live s c) (hinbox : s.world.inbox = arrival :: rest) :
    match react deps.ser s.backend.config.maxDatagramSize c.nodeId arrival with
    | .reject => ∃ k, receive deps os s = (false, consumed s rest k)
    | .accept a => receive deps os s =
        (true, integrateWithTransport deps a (upsertDiscoveredPeer os a (consumed s rest 2)))
    | .answer m host port => receive deps os s =
        handleProbe deps os (inboundEnvelope m host port (os.clock (s.world.ticks + 1)))
          (consumed s rest 2) := by
  have hreceive := receive_cons deps os h hinbox
  unfold react
  cases hdecode : decodeDatagram deps.ser
      (UdpSocket.received s.backend.config.maxDatagramSize arrival) with
  | none =>
      simp only [hdecode] at hreceive
      exact ⟨0, hreceive⟩
  | some m =>
      have hm := (isValid_of_decodeDatagram hdecode).2
      have hc : (consumed s rest 2).context.configChecked = .ok c := h.config
      simp only [hdecode, dispatch_eq hc hm] at hreceive
      rw [hreceive]
      dsimp only
      cases reactTo deps.ser c.nodeId
          (UdpSocket.received s.backend.config.maxDatagramSize arrival) m with
      | reject => exact ⟨2, rfl⟩
      | accept a => rfl
      | answer m host port => rfl

theorem receive_reject (h : Live s c) (hinbox : s.world.inbox = arrival :: rest)
    (hr : react deps.ser s.backend.config.maxDatagramSize c.nodeId arrival = .reject) :
    ∃ k, receive deps os s = (false, consumed s rest k) := by
  have heq := receive_eq deps os h hinbox
  rwa [hr] at heq

theorem receive_accept (h : Live s c) (hinbox : s.world.inbox = arrival :: rest)
    {a : DiscoveryAnnouncement}
    (hr : react deps.ser s.backend.config.maxDatagramSize c.nodeId arrival = .accept a) :
    receive deps os s =
      (true, integrateWithTransport deps a (upsertDiscoveredPeer os a (consumed s rest 2))) := by
  have heq := receive_eq deps os h hinbox
  rwa [hr] at heq

theorem isValid_of_react {ser : Serializer} {maxSize : ℕ} {localId : Bytes}
    {a : DiscoveryAnnouncement} (hr : react ser maxSize localId arrival = .accept a) :
    a.isValid = true := by
  unfold react at hr
  split at hr
  · cases hr
  · unfold reactTo at hr
    split_ifs at hr
    split at hr
    · cases hr
    next a' ha' =>
      split_ifs at hr
      obtain rfl : a' = a := by simpa using hr
      exact AnnouncementCodec.isValid_of_decodeAnnouncement ha'

/-! ## Answers -/

structure Answered (ser : Serializer) (localId : Bytes) (m : DiscoveryMessage) (host : Bytes)
    (port : UInt16) : Prop where
  type : m.type = .probe
  sender : m.fromNodeId ≠ localId
  isValid : m.isValid = true
  host : host ≠ []
  port : port ≠ 0
  fits : ser.Lawful → m.Fits

theorem answered_of_react {ser : Serializer} {maxSize : ℕ} {localId : Bytes} {m : DiscoveryMessage}
    {host : Bytes} {port : UInt16} (hr : react ser maxSize localId arrival = .answer m host port) :
    Answered ser localId m host port := by
  unfold react at hr
  cases hdecode : decodeDatagram ser (UdpSocket.received maxSize arrival) with
  | none => simp [hdecode] at hr
  | some m' =>
      obtain ⟨hd, hm⟩ := isValid_of_decodeDatagram hdecode
      obtain ⟨hhost, hport, -⟩ := (Datagram.isValid_iff _).mp hd
      simp only [hdecode, reactTo] at hr
      split_ifs at hr with hself hprobe
      · injection hr with h₁ h₂ h₃
        subst h₁ h₂ h₃
        refine ⟨hprobe, hself, hm, hhost, hport, fun hser ↦ ?_⟩
        rw [decodeDatagram, hd, Bool.not_true, if_neg Bool.false_ne_true,
          MessageCodec.decodeBuffer_eq] at hdecode
        exact ((MessageCodec.decodeMessage_eq_some_iff hser _ _).mp hdecode).1
      · split at hr
        · cases hr
        · split_ifs at hr

def replyEnvelope (ser : Serializer) (os : Os) (c : DiscoveryConfig) (probe : DiscoveryMessage)
    (host : Bytes) (port : UInt16) (ticks : ℕ) : DiscoveryEnvelope :=
  .outbound (replyMessage ser c probe.fromNodeId probe.correlationId (os.clock ticks)) host port
    (os.clock (ticks + 1))

theorem handleProbe_eq (hc : s.context.configChecked = .ok c) {m : DiscoveryMessage} {host : Bytes}
    {port : UInt16} (hhost : host ≠ []) (hport : port ≠ 0) (now : Timestamp) :
    handleProbe deps os (inboundEnvelope m host port now) s =
      let sent := DiscoveryClient.send deps.ser os s.backend
        (replyEnvelope deps.ser os c m host port s.world.ticks)
        { s.world with ticks := s.world.ticks + 2 }
      (sent.1, { s with world := sent.2 }) := by
  have hsource : (inboundEnvelope m host port now).hasSource = true := by
    simp [DiscoveryEnvelope.hasSource, inboundEnvelope, hhost, hport]
  unfold handleProbe
  simp only [hsource, makeReplyMessage_eq hc, makeOutboundEnvelope, World.now, replyEnvelope,
    Bool.not_true, Bool.false_eq_true, if_false]
  rfl

theorem receive_answer (h : Live s c) (hinbox : s.world.inbox = arrival :: rest)
    {m : DiscoveryMessage} {host : Bytes} {port : UInt16}
    (hr : react deps.ser s.backend.config.maxDatagramSize c.nodeId arrival = .answer m host port) :
    receive deps os s =
      let sent := DiscoveryClient.send deps.ser os s.backend
        (replyEnvelope deps.ser os c m host port (s.world.ticks + 2))
        (consumed s rest 4).world
      (sent.1, { s with world := sent.2 }) := by
  have heq := receive_eq deps os h hinbox
  have hm := answered_of_react hr
  have hc : (consumed s rest 2).context.configChecked = .ok c := h.config
  rw [hr] at heq
  rw [heq, handleProbe_eq hc hm.host hm.port]
  rfl

/-! ## Acceptance -/

theorem le_upsertAnnouncement_ticks (r : DiscoveryRegistry) (a : DiscoveryAnnouncement)
    (ticks : ℕ) : ticks ≤ (r.upsertAnnouncement os.clock a ticks).2 := by
  unfold DiscoveryRegistry.upsertAnnouncement
  split
  · exact le_rfl
  · cases r.get a.nodeId with
    | some _ => exact Nat.le_add_right _ 1
    | none => exact Nat.le_add_right _ 2

/-- The transport hand-off touches nothing but the transport and its record. -/
structure HandOff (s s' : Runtime T) : Prop where
  engine : s'.engine = s.engine
  backend : s'.backend = s.backend
  world : s'.world = s.world
  config : s'.context.config = s.context.config
  transport : s'.context.transport.isSome = s.context.transport.isSome

variable (deps) in
theorem integrateWithTransport_handOff (a : DiscoveryAnnouncement) (s : Runtime T) :
    HandOff s (integrateWithTransport deps a s) := by
  have hsame : HandOff s s := ⟨rfl, rfl, rfl, rfl, rfl⟩
  unfold integrateWithTransport
  dsimp only
  split_ifs with hvalid
  · exact hsame
  · cases htransport : s.context.transportChecked deps.transportIsRunning with
    | error e => exact hsame
    | ok t =>
        have hsome : s.context.transport.isSome = true := by
          cases hnone : s.context.transport with
          | none => simp [DiscoveryContext.transportChecked, hnone] at htransport
          | some _ => rfl
        dsimp only
        split_ifs
        · exact hsame
        · exact ⟨rfl, rfl, rfl, rfl, by simp [hsome]⟩

variable (deps) in
/-- The hand-off does nothing, or makes one call for a valid peer that a running
transport engine does not contain. -/
theorem integrateWithTransport_cases (a : DiscoveryAnnouncement) (s : Runtime T) :
    integrateWithTransport deps a s = s ∨
      ∃ t, s.context.transport = some t ∧ deps.transportIsRunning t = true ∧
        deps.peerInfoIsValid ⟨a.nodeId, a.host, a.port⟩ = true ∧
        deps.transportContains t a.nodeId = false ∧
        integrateWithTransport deps a s =
          { s with
            context.transport := some (deps.connectPeer t ⟨a.nodeId, a.host, a.port⟩)
            connects := s.connects ++ [(t, ⟨a.nodeId, a.host, a.port⟩)] } := by
  unfold integrateWithTransport
  dsimp only
  split_ifs with hvalid
  · exact .inl rfl
  · cases htransport : s.context.transport with
    | none => exact .inl (by simp [DiscoveryContext.transportChecked, htransport])
    | some t =>
        cases hrunning : deps.transportIsRunning t with
        | false => exact .inl (by simp [DiscoveryContext.transportChecked, htransport, hrunning])
        | true =>
            simp only [DiscoveryContext.transportChecked, htransport, hrunning, if_true]
            cases hnew : deps.transportContains t a.nodeId with
            | true => exact .inl rfl
            | false => exact .inr ⟨t, rfl, hrunning, by simpa using hvalid, hnew, rfl⟩

/-! ## One poll -/

/-- The reaction to the next arrival; without one there is nothing to accept. -/
def nextReaction (deps : External T) (c : DiscoveryConfig) (s : Runtime T) : Reaction :=
  match s.world.inbox with
  | [] => .reject
  | arrival :: _ => react deps.ser s.backend.config.maxDatagramSize c.nodeId arrival

/-- Whatever is not rejected is the reaction to some arrival. -/
theorem react_of_nextReaction {r : Reaction} (h : nextReaction deps c s = r) (hr : r ≠ .reject) :
    ∃ arrival ∈ s.world.inbox,
      react deps.ser s.backend.config.maxDatagramSize c.nodeId arrival = r := by
  unfold nextReaction at h
  split at h
  · exact absurd h.symm hr
  next arrival rest hinbox =>
    refine ⟨arrival, ?_, h⟩
    rw [hinbox]
    exact List.mem_cons_self

theorem isValid_of_nextReaction {a : DiscoveryAnnouncement}
    (h : nextReaction deps c s = .accept a) : a.isValid = true := by
  obtain ⟨arrival, -, hreact⟩ := react_of_nextReaction h (by simp)
  exact isValid_of_react hreact

variable (deps os) in
/-- A poll refreshes, reads one arrival, and then does one of three things. -/
theorem pollOnce_cases (h : Live s c) :
    (nextReaction deps c s = .reject ∧ ∃ k, pollOnce deps os s =
      (false, consumed (timeDriven deps os s) s.world.inbox.tail k)) ∨
    (∃ a, nextReaction deps c s = .accept a ∧ pollOnce deps os s =
      (true, integrateWithTransport deps a (upsertDiscoveredPeer os a
        (consumed (timeDriven deps os s) s.world.inbox.tail 2)))) ∨
    ∃ m host port, nextReaction deps c s = .answer m host port ∧ pollOnce deps os s =
      let t := timeDriven deps os s
      let sent := DiscoveryClient.send deps.ser os s.backend
        (replyEnvelope deps.ser os c m host port (t.world.ticks + 2))
        (consumed t s.world.inbox.tail 4).world
      (sent.1, { t with world := sent.2 }) := by
  have hsteady := timeDriven_steady deps os s
  have hlive := h.of_kept hsteady.kept
  have hpoll : pollOnce deps os s = receive deps os (timeDriven deps os s) := by
    simp [pollOnce, h.isRunning]
  rw [hpoll, nextReaction, ← hsteady.backend, ← hsteady.inbox]
  cases hinbox : (timeDriven deps os s).world.inbox with
  | nil =>
      refine .inl ⟨rfl, 0, ?_⟩
      rw [receive_nil hinbox, List.tail_nil, consumed, ← hinbox]
      rfl
  | cons arrival rest =>
      dsimp only [List.tail_cons]
      cases hr : react deps.ser (timeDriven deps os s).backend.config.maxDatagramSize c.nodeId
          arrival with
      | reject => exact .inl ⟨rfl, receive_reject hlive hinbox hr⟩
      | accept a => exact .inr (.inl ⟨a, rfl, receive_accept hlive hinbox hr⟩)
      | answer m host port =>
          exact .inr (.inr ⟨m, host, port, rfl, receive_answer hlive hinbox hr⟩)

theorem pollOnce_of_reject (h : Live s c) (hr : nextReaction deps c s = .reject) :
    ∃ k, pollOnce deps os s =
      (false, consumed (timeDriven deps os s) s.world.inbox.tail k) := by
  rcases pollOnce_cases deps os h with ⟨-, heq⟩ | ⟨_, hr', -⟩ | ⟨_, _, _, hr', -⟩
  · exact heq
  · rw [hr] at hr'; cases hr'
  · rw [hr] at hr'; cases hr'

variable (os) in
theorem pollOnce_of_accept {a : DiscoveryAnnouncement} (h : Live s c)
    (hr : nextReaction deps c s = .accept a) :
    pollOnce deps os s = (true, integrateWithTransport deps a (upsertDiscoveredPeer os a
      (consumed (timeDriven deps os s) s.world.inbox.tail 2))) := by
  rcases pollOnce_cases deps os h with ⟨hr', -⟩ | ⟨a', hr', heq⟩ | ⟨_, _, _, hr', -⟩
  · rw [hr] at hr'; cases hr'
  · obtain rfl : a = a' := by rw [hr] at hr'; simpa using hr'
    exact heq
  · rw [hr] at hr'; cases hr'

theorem pollOnce_of_answer {m : DiscoveryMessage} {host : Bytes} {port : UInt16} (h : Live s c)
    (hr : nextReaction deps c s = .answer m host port) :
    pollOnce deps os s =
      let t := timeDriven deps os s
      let sent := DiscoveryClient.send deps.ser os s.backend
        (replyEnvelope deps.ser os c m host port (t.world.ticks + 2))
        (consumed t s.world.inbox.tail 4).world
      (sent.1, { t with world := sent.2 }) := by
  rcases pollOnce_cases deps os h with ⟨hr', -⟩ | ⟨_, hr', -⟩ | ⟨m', host', port', hr', heq⟩
  · rw [hr] at hr'; cases hr'
  · rw [hr] at hr'; cases hr'
  · obtain ⟨rfl, rfl, rfl⟩ : m = m' ∧ host = host' ∧ port = port' := by
      rw [hr] at hr'
      simpa using hr'
    exact heq

theorem HandOff.kept (h : HandOff s s') : Kept s s' :=
  ⟨by rw [h.engine], h.backend, h.config, h.transport, by rw [h.world]⟩

theorem consumed_kept (s : Runtime T) (rest : List Arrival) (k : ℕ) : Kept s (consumed s rest k) :=
  ⟨rfl, rfl, rfl, rfl, Nat.le_add_right _ _⟩

variable (os) in
theorem upsertDiscoveredPeer_kept (a : DiscoveryAnnouncement) (s : Runtime T) :
    Kept s (upsertDiscoveredPeer os a s) :=
  ⟨rfl, rfl, rfl, rfl, le_upsertAnnouncement_ticks _ _ _⟩

structure PollSpec (deps : External T) (os : Os) (c : DiscoveryConfig) (s : Runtime T)
    (r : Bool × Runtime T) : Prop where
  kept : Kept s r.2
  refreshed : (timeDriven deps os s).world.ticks ≤ r.2.world.ticks
  inbox : r.2.world.inbox = s.world.inbox.tail
  registry : r.2.engine.registry = match nextReaction deps c s with
    | .accept a => ((refreshedRegistry deps os c s).upsertAnnouncement os.clock a
        ((timeDriven deps os s).world.ticks + 2)).1
    | _ => refreshedRegistry deps os c s
  upserted : ∀ a, nextReaction deps c s = .accept a →
    r.2.world.ticks = ((refreshedRegistry deps os c s).upsertAnnouncement os.clock a
      ((timeDriven deps os s).world.ticks + 2)).2

variable (deps os) in
theorem pollOnce_spec (h : Live s c) : PollSpec deps os c s (pollOnce deps os s) := by
  have hregistry := timeDriven_registry deps os h.config
  have hsteady := timeDriven_steady deps os s
  rcases pollOnce_cases deps os h with
    ⟨hr, k, heq⟩ | ⟨a, hr, heq⟩ | ⟨m, host, port, hr, heq⟩
  · rw [heq]
    refine ⟨hsteady.kept.trans (consumed_kept _ _ _), Nat.le_add_right _ _, rfl, ?_,
      fun a ha ↦ by rw [hr] at ha; cases ha⟩
    rw [hr]
    exact hregistry
  · have hoff := integrateWithTransport_handOff deps a
      (upsertDiscoveredPeer os a (consumed (timeDriven deps os s) s.world.inbox.tail 2))
    have hupsert := (consumed_kept (timeDriven deps os s) s.world.inbox.tail 2).trans
      (upsertDiscoveredPeer_kept os a _)
    rw [heq]
    refine ⟨hsteady.kept.trans (hupsert.trans hoff.kept), (hupsert.trans hoff.kept).ticks, ?_, ?_,
      fun a' ha' ↦ ?_⟩
    · rw [hoff.world]
      rfl
    · rw [hoff.engine, hr, ← hregistry]
      rfl
    · obtain rfl : a = a' := by rw [hr] at ha'; simpa using ha'
      rw [hoff.world, ← hregistry]
      rfl
  · have hsend := clientSend_spec deps.ser os s.backend
      (replyEnvelope deps.ser os c m host port ((timeDriven deps os s).world.ticks + 2))
      ((consumed (timeDriven deps os s) s.world.inbox.tail 4).world)
    have hquiet : Kept (timeDriven deps os s) (pollOnce deps os s).2 := by
      rw [heq]
      exact ⟨rfl, rfl, rfl, rfl, (Nat.le_add_right _ 4).trans hsend.ticks⟩
    refine ⟨hsteady.kept.trans hquiet, hquiet.ticks, ?_, ?_,
      fun a ha ↦ by rw [hr] at ha; cases ha⟩
    · rw [heq]
      exact hsend.inbox
    · rw [heq, hr]
      exact hregistry

end DiscoveryEngine

end Discovery
