import Discovery.EngineSteps

/-!
# The states that an engine can reach

An engine is constructed stopped, is driven by its operations, and shares the
inbox and the transport engine with its environment.  In every reachable state
a running backend owns a socket and a valid configuration, and an engine that
is not running knows no peer.
-/

namespace Discovery

namespace DiscoveryEngine

variable {T : Type} {deps : External T} {os : Os} {s s' : Runtime T} {c : DiscoveryConfig}

/-- A property of states that every primitive operation keeps is kept by a whole
`poll_many`. -/
theorem pollMany_induction {P : Runtime T → Prop} (hpoll : ∀ s, P s → P (pollOnce deps os s).2)
    (maxMessages : ℕ) (hs : P s) : P (pollMany deps os maxMessages s).2 := by
  suffices ∀ processed s, P s → P (pollManyLoop deps os maxMessages processed s).2 from this 0 s hs
  induction maxMessages with
  | zero => exact fun _ _ h ↦ h
  | succ rounds ih =>
      intro processed s h
      have hnext := hpoll s h
      simp only [pollManyLoop]
      split_ifs
      · exact hnext
      · exact ih _ _ hnext

/-! ## Soundness -/

structure Sound (s : Runtime T) : Prop where
  socket : s.backend.running = true → s.backend.socket.isValid = true
  config : s.backend.running = true → s.backend.config.isValid = true
  coupled : s.engine.status.isRunning = true → s.backend.running = true
  context : s.engine.status.isRunning = true → s.context.isValid = true
  idle : s.engine.status.isRunning = false → s.engine.registry = {}

theorem Sound.registry_of_not_running (h : Sound s) (hrunning : isRunning s = false) :
    s.engine.registry = {} := by
  apply h.idle
  by_contra hstatus
  rw [Bool.not_eq_false] at hstatus
  simp [isRunning, hstatus, h.coupled hstatus] at hrunning

theorem Sound.exists_live (h : Sound s) (hrunning : isRunning s = true) : ∃ c, Live s c := by
  obtain ⟨hstatus, hbackend⟩ := Bool.and_eq_true_iff.mp hrunning
  obtain ⟨-, c, hc⟩ := (DiscoveryContext.isValid_iff _).mp (h.context hstatus)
  exact ⟨c, hrunning, hc, h.socket hbackend,
    ((DiscoveryConfig.isValid_iff _).mp (h.config hbackend)).maxDatagramSize⟩

theorem Sound.live (h : Sound s) (hrunning : isRunning s = true)
    (hc : s.context.config = some c) : Live s c := by
  obtain ⟨c', hlive⟩ := h.exists_live hrunning
  have hsome := hlive.context
  rw [hc, Option.some.injEq] at hsome
  exact hsome ▸ hlive

theorem isValid_of_kept (h : Kept s s') (hs : s.context.isValid = true) :
    s'.context.isValid = true := by
  rw [DiscoveryContext.isValid_iff, h.configChecked, h.transport]
  exact (DiscoveryContext.isValid_iff _).mp hs

theorem Sound.of_kept (h : Sound s) (hk : Kept s s')
    (hidle : s.engine.status.isRunning = false → s'.engine.registry = s.engine.registry) :
    Sound s' where
  socket := by rw [hk.backend]; exact h.socket
  config := by rw [hk.backend]; exact h.config
  coupled hstatus := by
    rw [hk.status] at hstatus
    rw [hk.backend]
    exact h.coupled hstatus
  context hstatus := isValid_of_kept hk (h.context (by rwa [hk.status] at hstatus))
  idle hstatus := by
    rw [hk.status] at hstatus
    rw [hidle hstatus, h.idle hstatus]

theorem pollOnce_of_not_running (h : isRunning s = false) : pollOnce deps os s = (false, s) := by
  simp [pollOnce, h]

theorem Sound.pollOnce_kept (h : Sound s) : Kept s (pollOnce deps os s).2 := by
  cases hrunning : isRunning s with
  | false => rw [pollOnce_of_not_running hrunning]; exact .refl s
  | true =>
      obtain ⟨c, hlive⟩ := h.exists_live hrunning
      exact (pollOnce_spec _ _ hlive).kept

theorem Sound.pollOnce (h : Sound s) : Sound (pollOnce deps os s).2 := by
  refine h.of_kept h.pollOnce_kept fun hstatus ↦ ?_
  rw [pollOnce_of_not_running (by simp [isRunning, hstatus])]

/-- The polls of a `poll_many` all start from sound states in which the engine
is still set up as before. -/
theorem Sound.pollMany_induction {P : Runtime T → Prop} (hs : Sound s)
    (hpoll : ∀ t, Sound t → Kept s t → P t → P (DiscoveryEngine.pollOnce deps os t).2)
    (maxMessages : ℕ) (h : P s) :
    let t := (pollMany deps os maxMessages s).2
    Sound t ∧ Kept s t ∧ P t := by
  refine DiscoveryEngine.pollMany_induction (P := fun t ↦ Sound t ∧ Kept s t ∧ P t) ?_ maxMessages
    ⟨hs, .refl s, h⟩
  rintro t ⟨hsound, hkept, ht⟩
  exact ⟨hsound.pollOnce, hkept.trans hsound.pollOnce_kept, hpoll t hsound hkept ht⟩

theorem Sound.pollMany_kept (h : Sound s) (maxMessages : ℕ) :
    Kept s (pollMany deps os maxMessages s).2 :=
  (h.pollMany_induction (P := fun _ ↦ True) (fun _ _ _ _ ↦ trivial) maxMessages trivial).2.1

theorem Sound.pollMany (h : Sound s) (maxMessages : ℕ) :
    Sound (pollMany deps os maxMessages s).2 :=
  (h.pollMany_induction (P := fun _ ↦ True) (fun _ _ _ _ ↦ trivial) maxMessages trivial).1

/-! ### Starting and stopping -/

section Backend

variable {b : UdpDiscoveryBackend} {w : World}

theorem isValid_of_openSocket {socket : UdpSocket} (h : (socket.openSocket os w).1 = true) :
    (socket.openSocket os w).2.1.isValid = true := h

theorem bind_socket {socket : UdpSocket} (h : socket.isValid = true) (host : Bytes)
    (port : UInt16) : (socket.bind os host port w).2.1 = socket := by
  unfold UdpSocket.bind
  simp only [h, if_true, Bool.not_true, Bool.false_eq_true, if_false]
  split_ifs <;> rfl

/-- Nothing but the count of system calls differs. -/
def CallsOnly (w w' : World) : Prop := w' = { w with calls := w'.calls }

variable (os) in
theorem setOption_callsOnly (socket : UdpSocket) (option : SocketOption) (w : World) :
    CallsOnly w (socket.setOption os option w).2 := by
  unfold UdpSocket.setOption
  split_ifs <;> rfl

theorem CallsOnly.trans {w w' w'' : World} (h : CallsOnly w w') (h' : CallsOnly w' w'') :
    CallsOnly w w'' := by
  unfold CallsOnly at *
  rw [h', h]

theorem configureSocket_callsOnly (b : UdpDiscoveryBackend) (w : World) :
    CallsOnly w (b.configureSocket os w).2 := by
  have h (o : SocketOption) (w : World) := setOption_callsOnly os b.socket o w
  unfold UdpDiscoveryBackend.configureSocket UdpSocket.setReuseAddr UdpSocket.setBroadcast
    UdpSocket.setRecvTimeout UdpSocket.setSendTimeout
  dsimp only
  split_ifs
  · exact h _ _
  · exact (h _ _).trans (h _ _)
  · exact ((h _ _).trans (h _ _)).trans (h _ _)
  · exact (((h _ _).trans (h _ _)).trans (h _ _)).trans (h _ _)
  · exact (((h _ _).trans (h _ _)).trans (h _ _)).trans (h _ _)

variable (os) in
theorem openSocket_callsOnly (socket : UdpSocket) (w : World) :
    CallsOnly w (socket.openSocket os w).2.2 := rfl

theorem bind_callsOnly (socket : UdpSocket) (host : Bytes) (port : UInt16) (w : World) :
    CallsOnly w (socket.bind os host port w).2.2 := by
  unfold UdpSocket.bind
  dsimp only
  split_ifs <;> rfl

variable (os) in
theorem backendStart_callsOnly (b : UdpDiscoveryBackend) (w : World) :
    CallsOnly w (b.start os w).2.2 := by
  have hopen := openSocket_callsOnly os b.socket w
  unfold UdpDiscoveryBackend.start
  dsimp only
  split_ifs
  · rfl
  · rfl
  · exact hopen
  · exact hopen.trans (configureSocket_callsOnly _ _)
  · exact (hopen.trans (configureSocket_callsOnly _ _)).trans (bind_callsOnly _ _ _ _)
  · exact (hopen.trans (configureSocket_callsOnly _ _)).trans (bind_callsOnly _ _ _ _)

variable (os w) in
/-- A start keeps the configuration; if the backend runs afterwards, it has a
socket and the configuration is valid. -/
theorem backendStart_spec (hsocket : b.running = true → b.socket.isValid = true)
    (hconfig : b.running = true → b.config.isValid = true) :
    let r := b.start os w
    r.2.1.config = b.config ∧ (r.1 = true → r.2.1.running = true) ∧
      (r.2.1.running = true → r.2.1.socket.isValid = true ∧ r.2.1.config.isValid = true) := by
  unfold UdpDiscoveryBackend.start
  cases hrunning : b.running with
  | true => simpa [hrunning] using ⟨hsocket hrunning, hconfig hrunning⟩
  | false =>
      cases hvalid : b.config.isValid with
      | false => simp [hrunning]
      | true =>
          have hopen (h : (b.socket.openSocket os w).1 = true) := isValid_of_openSocket h
          simp only [Bool.false_eq_true, if_false, Bool.not_true]
          split_ifs with h₁ h₂ h₃
          · simp
          · simp
          · simp
          · have hsock := hopen (by simpa using h₁)
            simp [bind_socket hsock, hsock, hvalid]

end Backend

variable (os) in
/-- A start finds the engine running, fails before or in the start of the
backend, or succeeds. -/
theorem start_cases (s : Runtime T) :
    let r := s.backend.start os s.world
    let t : Runtime T := { s with backend := r.2.1, world := r.2.2 }
    (s.engine.status.isRunning = true ∧ start os s = (true, s)) ∨
    s.engine.status.isRunning = false ∧
      (s.context.isValid = false ∧ start os s = (false, { s with engine.status := .failed }) ∨
        s.context.isValid = true ∧ r.1 = false ∧
          start os s = (false, { t with engine.status := .failed }) ∨
        s.context.isValid = true ∧ r.1 = true ∧ start os s =
          (true, { t with engine.lastAnnounceAt := {}, engine.status := .running })) := by
  dsimp only
  cases hstatus : s.engine.status.isRunning with
  | true => exact .inl ⟨rfl, by simp [start, hstatus]⟩
  | false =>
      refine .inr ⟨rfl, ?_⟩
      cases hctx : s.context.isValid with
      | false => exact .inl ⟨rfl, by simp [start, hstatus, hctx]⟩
      | true =>
          cases hok : (s.backend.start os s.world).1 with
          | false => exact .inr (.inl ⟨rfl, rfl, by simp [start, hstatus, hctx, hok]⟩)
          | true => exact .inr (.inr ⟨rfl, rfl, by simp [start, hstatus, hctx, hok]⟩)

theorem Sound.start (h : Sound s) : Sound (start os s).2 := by
  obtain ⟨-, hstarted, hrun⟩ := backendStart_spec os s.world h.socket h.config
  rcases start_cases os s with ⟨-, heq⟩ | ⟨hstatus, ⟨-, heq⟩ | ⟨-, -, heq⟩ | ⟨hctx, hok, heq⟩⟩
  · rw [heq]
    exact h
  · rw [heq]
    exact ⟨h.socket, h.config, by simp [DiscoveryStatus.isRunning],
      by simp [DiscoveryStatus.isRunning], fun _ ↦ h.idle hstatus⟩
  · rw [heq]
    exact ⟨fun hr ↦ (hrun hr).1, fun hr ↦ (hrun hr).2, by simp [DiscoveryStatus.isRunning],
      by simp [DiscoveryStatus.isRunning], fun _ ↦ h.idle hstatus⟩
  · rw [heq]
    exact ⟨fun hr ↦ (hrun hr).1, fun hr ↦ (hrun hr).2, fun _ ↦ hstarted hok, fun _ ↦ hctx,
      by simp [DiscoveryStatus.isRunning]⟩

theorem start_registry (s : Runtime T) :
    (DiscoveryEngine.start os s).2.engine.registry = s.engine.registry := by
  rcases start_cases os s with ⟨-, heq⟩ | ⟨-, ⟨-, heq⟩ | ⟨-, -, heq⟩ | ⟨-, -, heq⟩⟩ <;> rw [heq]

theorem start_connects (s : Runtime T) :
    (DiscoveryEngine.start os s).2.connects = s.connects := by
  rcases start_cases os s with ⟨-, heq⟩ | ⟨-, ⟨-, heq⟩ | ⟨-, -, heq⟩ | ⟨-, -, heq⟩⟩ <;> rw [heq]

theorem start_context (s : Runtime T) :
    (DiscoveryEngine.start os s).2.context = s.context := by
  rcases start_cases os s with ⟨-, heq⟩ | ⟨-, ⟨-, heq⟩ | ⟨-, -, heq⟩ | ⟨-, -, heq⟩⟩ <;> rw [heq]

theorem stop_context (s : Runtime T) : (DiscoveryEngine.stop s).context = s.context := by
  unfold DiscoveryEngine.stop
  split_ifs <;> rfl

theorem isRunning_stop (s : Runtime T) : isRunning (DiscoveryEngine.stop s) = false := by
  unfold DiscoveryEngine.stop
  split_ifs with hstatus
  · simp [isRunning, hstatus, DiscoveryStatus.isRunning]
  · rfl

theorem Sound.isRunning_of_start (h : Sound s) (hok : (DiscoveryEngine.start os s).1 = true) :
    isRunning (DiscoveryEngine.start os s).2 = true := by
  have hsound : Sound (DiscoveryEngine.start os s).2 := h.start
  have hstatus : (DiscoveryEngine.start os s).2.engine.status.isRunning = true := by
    rcases start_cases os s with ⟨hstatus, heq⟩ | ⟨-, ⟨-, heq⟩ | ⟨-, -, heq⟩ | ⟨-, -, heq⟩⟩
    · rw [heq]
      exact hstatus
    · rw [heq] at hok
      cases hok
    · rw [heq] at hok
      cases hok
    · rw [heq]
      rfl
  simp [isRunning, hstatus, hsound.coupled hstatus]

theorem Sound.stop (h : Sound s) : Sound (stop s) := by
  unfold DiscoveryEngine.stop
  split_ifs with hstatus
  · exact h
  · constructor <;>
      simp [UdpDiscoveryBackend.stop, DiscoveryStatus.isRunning, DiscoveryRegistry.clear]

theorem Sound.exec (h : Sound s) (op : Op) : Sound (exec deps os op s) := by
  cases op with
  | start => exact h.start
  | stop => exact h.stop
  | announceNow =>
      have hq := announceNow_quiet deps os s
      exact h.of_kept hq.kept fun _ ↦ hq.registry
  | probeNow =>
      have hq := probeNow_quiet deps os s
      exact h.of_kept hq.kept fun _ ↦ hq.registry
  | pollOnce => exact h.pollOnce
  | pollMany maxMessages => exact h.pollMany maxMessages

/-! ## Reachable states -/

/-- What goes on outside the engine at any time: the network, the owner of the
transport engine, and other readers of the clock. -/
def environment (inbox : List Arrival) (transport : T → T) (readings : ℕ) (s : Runtime T) :
    Runtime T :=
  { s with
    world.inbox := inbox
    world.ticks := s.world.ticks + readings
    context.transport := s.context.transport.map transport }

/-- The states of an engine that is constructed, driven and exposed to its
environment, in any order. -/
inductive Reachable (deps : External T) (os : Os) : Runtime T → Prop where
  | create (context : DiscoveryContext T) (config : DiscoveryConfig) (world : World) :
      Reachable deps os { context, backend := { config }, world }
  | exec (op : Op) {s : Runtime T} : Reachable deps os s → Reachable deps os (exec deps os op s)
  | environment (inbox : List Arrival) (transport : T → T) (readings : ℕ) {s : Runtime T} :
      Reachable deps os s → Reachable deps os (environment inbox transport readings s)

theorem environment_kept (inbox : List Arrival) (transport : T → T) (readings : ℕ)
    (s : Runtime T) : Kept s (environment inbox transport readings s) :=
  ⟨rfl, rfl, rfl, by simp [environment], Nat.le_add_right _ _⟩

theorem Sound.environment (h : Sound s) (inbox : List Arrival) (transport : T → T)
    (readings : ℕ) : Sound (environment inbox transport readings s) := by
  have hk := environment_kept inbox transport readings s
  exact h.of_kept hk fun _ ↦ rfl

theorem Reachable.sound (h : Reachable deps os s) : Sound s := by
  induction h with
  | create context config world =>
      constructor <;> simp [DiscoveryStatus.isRunning]
  | exec op _ ih => exact ih.exec op
  | environment inbox transport readings _ ih => exact ih.environment inbox transport readings

theorem Reachable.live (h : Reachable deps os s) (hrunning : isRunning s = true)
    (hc : s.context.config = some c) : Live s c :=
  h.sound.live hrunning hc

/-! ## What the operations send -/

section Sent

variable {P : DiscoveryMessage → Prop}

/-- The messages that an engine under `c` may send have the property `P`. -/
structure Speaks (ser : Serializer) (c : DiscoveryConfig) (P : DiscoveryMessage → Prop) : Prop where
  announce : ∀ now stamp, P (announceMessage ser c now stamp)
  probe : ∀ stamp, P (probeMessage c stamp)
  reply : ∀ probe : DiscoveryMessage, (ser.Lawful → probe.Fits) →
    ∀ now, P (replyMessage ser c probe.fromNodeId probe.correlationId now)

theorem speaks_authored {ser : Serializer} (hser : ser.Lawful) (hfit : c.SizesFit) :
    Speaks ser c (Authored ser c) :=
  ⟨authored_announceMessage hser hfit, authored_probeMessage _ hfit,
    fun _ hprobe ↦ authored_replyMessage hser hfit (hprobe hser)⟩

theorem announceNow_sent (hP : Speaks deps.ser c P) (hc : s.context.config = some c) :
    Sent deps.ser P s.world (announceNow deps os s).2.world := by
  cases hrunning : isRunning s with
  | false => simpa [announceNow, hrunning] using Sent.refl s.world
  | true =>
      cases hchecked : s.context.configChecked with
      | error e => simpa [announceNow, hrunning, hchecked] using Sent.refl s.world
      | ok c' =>
          have hsome := ((DiscoveryContext.configChecked_eq_ok_iff _ _).mp hchecked).1
          obtain rfl : c = c' := by simpa [hc] using hsome
          have hsend := clientSend_spec deps.ser os s.backend
            (announceEnvelope deps.ser os c s.world.ticks)
            { s.world with ticks := s.world.ticks + 3 }
          have hsent := hsend.sent (hP.announce _ _)
          rw [announceNow_eq hrunning hchecked]
          dsimp only
          split_ifs
          · exact hsent
          · exact hsent

theorem probeNow_sent (hP : Speaks deps.ser c P) (hc : s.context.config = some c) :
    Sent deps.ser P s.world (probeNow deps os s).2.world := by
  cases hrunning : isRunning s with
  | false => simpa [probeNow, hrunning] using Sent.refl s.world
  | true =>
      cases hchecked : s.context.configChecked with
      | error e => simpa [probeNow, hrunning, hchecked] using Sent.refl s.world
      | ok c' =>
          have hsome := ((DiscoveryContext.configChecked_eq_ok_iff _ _).mp hchecked).1
          obtain rfl : c = c' := by simpa [hc] using hsome
          have hsend := clientSend_spec deps.ser os s.backend
            (probeEnvelope os c s.world.ticks)
            { s.world with ticks := s.world.ticks + 2 }
          rw [probeNow_eq hrunning hchecked]
          exact hsend.sent (hP.probe _)

variable (os) in
theorem timeDriven_sent (hP : Speaks deps.ser c P) (hc : s.context.config = some c) :
    Sent deps.ser P s.world (timeDriven deps os s).world := by
  have hrefresh (t : Runtime T) : Sent deps.ser P t.world (refreshPeerStates os t).world := by
    unfold refreshPeerStates World.now
    split
    · exact .refl _
    · exact .of_outbox_eq rfl
  have hannounce : Sent deps.ser P s.world (maybeAnnounce deps os s).world := by
    unfold maybeAnnounce World.now
    split
    · exact .refl _
    · dsimp only
      split_ifs
      · have hread : Sent deps.ser P s.world { s.world with ticks := s.world.ticks + 1 } :=
          .of_outbox_eq rfl
        exact hread.trans (announceNow_sent hP hc)
      · exact .of_outbox_eq rfl
  exact hannounce.trans (hrefresh _)

theorem pollOnce_sent (hP : Speaks deps.ser c P) (hc : s.context.config = some c) (hs : Sound s) :
    Sent deps.ser P s.world (pollOnce deps os s).2.world := by
  cases hrunning : isRunning s with
  | false => rw [pollOnce_of_not_running hrunning]; exact .refl _
  | true =>
      have htime := timeDriven_sent os hP hc
      rcases pollOnce_cases deps os (hs.live hrunning hc) with
        ⟨hr, k, heq⟩ | ⟨a, hr, heq⟩ | ⟨m, host, port, hr, heq⟩
      · rw [heq]
        exact htime.trans (.of_outbox_eq rfl)
      · rw [heq, (integrateWithTransport_handOff _ _ _).world]
        exact htime.trans (.of_outbox_eq rfl)
      · obtain ⟨arrival, -, hreact⟩ := react_of_nextReaction hr (by simp)
        have hfits : deps.ser.Lawful → m.Fits := (answered_of_react hreact).fits
        have hsend := clientSend_spec deps.ser os s.backend
          (replyEnvelope deps.ser os c m host port ((timeDriven deps os s).world.ticks + 2))
          ((consumed (timeDriven deps os s) s.world.inbox.tail 4).world)
        rw [heq]
        exact (htime.trans (.of_outbox_eq rfl)).trans (hsend.sent (hP.reply m hfits _))

theorem pollMany_sent (hP : Speaks deps.ser c P) (hc : s.context.config = some c) (hs : Sound s)
    (maxMessages : ℕ) : Sent deps.ser P s.world (pollMany deps os maxMessages s).2.world := by
  refine (hs.pollMany_induction (P := fun t ↦ Sent deps.ser P s.world t.world) ?_ maxMessages
    (.refl _)).2.2
  intro t hsound hkept hsent
  exact hsent.trans (pollOnce_sent hP (hkept.config.trans hc) hsound)

theorem start_sent : Sent deps.ser P s.world (start os s).2.world := by
  have houtbox : (s.backend.start os s.world).2.2.outbox = s.world.outbox := by
    rw [backendStart_callsOnly _]
  rcases start_cases os s with ⟨-, heq⟩ | ⟨-, ⟨-, heq⟩ | ⟨-, -, heq⟩ | ⟨-, -, heq⟩⟩
  · rw [heq]
    exact .refl _
  · rw [heq]
    exact .refl _
  · rw [heq]
    exact .of_outbox_eq houtbox
  · rw [heq]
    exact .of_outbox_eq houtbox

variable (os) in
/-- Whatever an operation sends is one of the engine's own messages. -/
theorem exec_sent (hP : Speaks deps.ser c P) (hc : s.context.config = some c) (hs : Sound s)
    (op : Op) : Sent deps.ser P s.world (exec deps os op s).world := by
  cases op with
  | start => exact start_sent
  | stop =>
      refine .of_outbox_eq ?_
      simp only [exec, stop]
      split_ifs <;> rfl
  | announceNow => exact announceNow_sent hP hc
  | probeNow => exact probeNow_sent hP hc
  | pollOnce => exact pollOnce_sent hP hc hs
  | pollMany maxMessages => exact pollMany_sent hP hc hs maxMessages

end Sent

variable (deps os) in
theorem exec_config (hs : Sound s) (op : Op) :
    (exec deps os op s).context.config = s.context.config := by
  cases op with
  | start => rw [exec, start_context]
  | stop => rw [exec, stop_context]
  | announceNow => rw [exec, (announceNow_quiet _ _ s).context]
  | probeNow => rw [exec, (probeNow_quiet _ _ s).context]
  | pollOnce => exact hs.pollOnce_kept.config
  | pollMany maxMessages => exact (hs.pollMany_kept maxMessages).config

/-! ## The backend between start and stop -/

variable (deps os) in
theorem dispatch_backend (inbound : DiscoveryEnvelope) (s : Runtime T) :
    (dispatch deps os inbound s).2.backend = s.backend := by
  have hannounce : (handleAnnouncement deps os inbound s).2.backend = s.backend := by
    unfold handleAnnouncement
    cases decodeAnnouncement deps.ser inbound.message.payload with
    | none => rfl
    | some a =>
        dsimp only
        split_ifs
        · rfl
        · rfl
        · exact (integrateWithTransport_handOff deps a _).backend
  have hprobe : (handleProbe deps os inbound s).2.backend = s.backend := by
    unfold handleProbe
    split_ifs <;> rfl
  unfold dispatch
  split_ifs
  · rfl
  · rfl
  · cases inbound.message.type with
    | announce => exact hannounce
    | probe => exact hprobe
    | reply => exact hannounce
    | unknown => rfl
    | unnamed raw h => rfl

variable (deps os) in
theorem pollOnce_backend (s : Runtime T) : (pollOnce deps os s).2.backend = s.backend := by
  have hsteady := (timeDriven_steady deps os s).backend
  unfold pollOnce
  split_ifs
  · rfl
  · unfold receive
    dsimp only
    split
    · exact hsteady
    · exact (dispatch_backend deps os _ _).trans hsteady

theorem exec_backend {op : Op} (hstart : op ≠ .start) (hstop : op ≠ .stop) (s : Runtime T) :
    (exec deps os op s).backend = s.backend := by
  cases op with
  | start => exact absurd rfl hstart
  | stop => exact absurd rfl hstop
  | announceNow => exact (announceNow_quiet deps os s).backend
  | probeNow => exact (probeNow_quiet deps os s).backend
  | pollOnce => exact pollOnce_backend deps os s
  | pollMany maxMessages =>
      exact pollMany_induction (P := fun t ↦ t.backend = s.backend)
        (fun t ht ↦ (pollOnce_backend deps os t).trans ht) maxMessages rfl

end DiscoveryEngine

end Discovery
