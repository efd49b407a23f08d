import Discovery.Service

/-!
# The lifecycle of a service

The status of the engine, the flag of the backend and the descriptor of its
socket move together, at every failure of a start and in every order of starts
and stops.  A start succeeds exactly when the service runs already or each of
its socket calls does.
-/

namespace Discovery

/-! ## The socket calls of a start -/

/-- The system calls of a start succeed, from the call numbered `k` on: the
socket is opened, given its four options, and bound to a host that parses. -/
structure StartCallsSucceed (os : Os) (config : DiscoveryConfig) (k : ℕ) : Prop where
  openSocket : 0 ≤ os.socket k
  reuseAddr : os.setsockopt (k + 1) (.reuseAddr true) = 0
  broadcast : os.setsockopt (k + 2) (.broadcast config.enableBroadcast) = 0
  recvTimeout : os.setsockopt (k + 3)
    (.recvTimeout (UdpSocket.makeTimeval config.announceInterval)) = 0
  sendTimeout : os.setsockopt (k + 4)
    (.sendTimeout (UdpSocket.makeTimeval config.announceInterval)) = 0
  bindHost : os.inetPton config.bindHost = true
  bind : os.bind (k + 5) = 0

namespace UdpDiscoveryBackend

variable {os : Os} {b : UdpDiscoveryBackend} {w : World}

/-- The flag and the descriptor agree. -/
def Coupled (b : UdpDiscoveryBackend) : Prop := b.running = b.socket.isValid

theorem isValid_close (socket : UdpSocket) : socket.close.isValid = false := by
  unfold UdpSocket.close UdpSocket.isValid
  split_ifs with h <;> simp [h]

theorem Coupled.stop (b : UdpDiscoveryBackend) : b.stop.Coupled := by
  rw [Coupled, UdpDiscoveryBackend.stop, isValid_close]

variable (os) in
theorem configureSocket_eq (hsocket : b.socket.isValid = true) :
    (b.configureSocket os w).1 =
      (os.setsockopt w.calls (.reuseAddr true) == 0 &&
        (os.setsockopt (w.calls + 1) (.broadcast b.config.enableBroadcast) == 0 &&
          (os.setsockopt (w.calls + 2)
              (.recvTimeout (UdpSocket.makeTimeval b.config.announceInterval)) == 0 &&
            os.setsockopt (w.calls + 3)
              (.sendTimeout (UdpSocket.makeTimeval b.config.announceInterval)) == 0))) ∧
    ((b.configureSocket os w).1 = true → (b.configureSocket os w).2.calls = w.calls + 4) := by
  simp only [configureSocket, UdpSocket.setReuseAddr, UdpSocket.setBroadcast,
    UdpSocket.setRecvTimeout, UdpSocket.setSendTimeout, UdpSocket.setOption, hsocket,
    Bool.not_true, Bool.false_eq_true, if_false]
  split_ifs <;> simp_all

theorem bind_eq {socket : UdpSocket} (hsocket : socket.isValid = true) (host : Bytes)
    (port : UInt16) :
    (socket.bind os host port w).1 = (os.inetPton host && os.bind w.calls == 0) := by
  simp only [UdpSocket.bind, hsocket, if_true, Bool.not_true, Bool.false_eq_true, if_false]
  cases os.inetPton host <;> rfl

/-- A backend that is down, with the descriptor that `open` gave it. -/
def opened (os : Os) (b : UdpDiscoveryBackend) (w : World) : UdpDiscoveryBackend :=
  { config := b.config, socket := { fd := os.socket w.calls } }

/-- A start from the configuration of the socket on. -/
theorem start_of_open (hdown : b.running = false) (hvalid : b.config.isValid = true)
    (hopen : 0 ≤ os.socket w.calls) :
    b.start os w =
      let configured := (opened os b w).configureSocket os { w with calls := w.calls + 1 }
      let bound := (opened os b w).socket.bind os b.config.bindHost b.config.bindPort configured.2
      if configured.1 = false then
        (false, { opened os b w with socket := (opened os b w).socket.close }, configured.2)
      else if bound.1 = false then
        (false, { opened os b w with socket := bound.2.1.close }, bound.2.2)
      else (true, { opened os b w with socket := bound.2.1, running := true }, bound.2.2) := by
  simp only [start, hdown, hvalid, UdpSocket.openSocket, hopen, decide_true, Bool.not_true,
    Bool.false_eq_true, if_false, Bool.not_eq_true']
  rfl

theorem startCallsSucceed_iff (hopen : 0 ≤ os.socket w.calls) :
    let configured := (opened os b w).configureSocket os { w with calls := w.calls + 1 }
    let bound := (opened os b w).socket.bind os b.config.bindHost b.config.bindPort configured.2
    StartCallsSucceed os b.config w.calls ↔ configured.1 = true ∧ bound.1 = true := by
  have hsocket : (opened os b w).socket.isValid = true := decide_eq_true hopen
  obtain ⟨hconfigure, hcalls⟩ := configureSocket_eq os
    (w := { w with calls := w.calls + 1 }) hsocket
  dsimp only
  constructor
  · rintro ⟨-, h₁, h₂, h₃, h₄, hhost, hbind⟩
    have hconfigured :
        ((opened os b w).configureSocket os { w with calls := w.calls + 1 }).1 = true := by
      rw [hconfigure]
      simp [opened, h₁, h₂, h₃, h₄]
    refine ⟨hconfigured, ?_⟩
    rw [bind_eq hsocket, hcalls hconfigured, hhost, hbind]
    rfl
  · rintro ⟨hconfigured, hbound⟩
    rw [bind_eq hsocket, hcalls hconfigured, Bool.and_eq_true, beq_iff_eq] at hbound
    rw [hconfigure] at hconfigured
    simp only [Bool.and_eq_true, beq_iff_eq] at hconfigured
    obtain ⟨h₁, h₂, h₃, h₄⟩ := hconfigured
    exact ⟨hopen, h₁, h₂, h₃, h₄, hbound.1, hbound.2⟩

variable (os w) in
/-- The start of a backend that is down: it succeeds when all of its calls do,
and leaves no descriptor otherwise. -/
theorem start_of_down (hdown : b.running = false) (hcoupled : b.Coupled) :
    ((b.start os w).1 = true ↔ b.config.isValid = true ∧ StartCallsSucceed os b.config w.calls) ∧
      (b.start os w).2.1.running = (b.start os w).1 ∧ (b.start os w).2.1.Coupled := by
  cases hvalid : b.config.isValid with
  | false =>
      have hstart : b.start os w = (false, b, w) := by simp [start, hdown, hvalid]
      simpa [hstart, hdown] using hcoupled
  | true =>
      by_cases hopen : 0 ≤ os.socket w.calls
      · have hsocket : (opened os b w).socket.isValid = true := decide_eq_true hopen
        have hiff := startCallsSucceed_iff (b := b) hopen
        have hstart := start_of_open hdown hvalid hopen
        dsimp only at hstart hiff
        rw [hiff, hstart]
        split_ifs with hconfigured hbound
        · exact ⟨by simp [hconfigured], rfl, (isValid_close _).symm⟩
        · exact ⟨by simp [hbound], rfl, (isValid_close _).symm⟩
        · refine ⟨by simp [hconfigured, hbound], rfl, ?_⟩
          rw [Coupled, DiscoveryEngine.bind_socket hsocket, hsocket]
      · have hstart : b.start os w = (false, opened os b w, { w with calls := w.calls + 1 }) := by
          simp [start, hdown, hvalid, UdpSocket.openSocket, hopen, opened]
        have hsocket : (opened os b w).socket.isValid = false := decide_eq_false hopen
        rw [hstart]
        exact ⟨⟨by simp, fun h ↦ absurd h.2.openSocket hopen⟩, rfl, hsocket.symm⟩

end UdpDiscoveryBackend

/-! ## The engine between calls -/

namespace DiscoveryEngine

variable {T : Type} {deps : External T} {os : Os} {s s' : Runtime T} {c : DiscoveryConfig}

/-- What holds of an engine between calls.  An engine that does not run knows no
peer and no announcement. -/
structure Coherent (s : Runtime T) : Prop where
  status : s.engine.status = .stopped ∨ s.engine.status = .running ∨ s.engine.status = .failed
  running : s.engine.status = .running ↔ s.backend.running = true
  socket : s.backend.Coupled
  idle : s.engine.status ≠ .running → s.engine.registry = {} ∧ s.engine.lastAnnounceAt = {}

theorem Coherent.down (h : Coherent s) (hstatus : s.engine.status ≠ .running) :
    s.backend.running = false :=
  Bool.eq_false_iff.mpr fun hrunning ↦ hstatus (h.running.mpr hrunning)

theorem Coherent.of_running (h : Coherent s) (hstatus : s.engine.status = .running)
    (hk : Kept s s') : Coherent s' where
  status := .inr (.inl (hk.status.trans hstatus))
  running := by rw [hk.status, hk.backend]; exact h.running
  socket := by rw [hk.backend]; exact h.socket
  idle hidle := absurd (hk.status.trans hstatus) hidle

/-- An operation that needs a running engine keeps the coherence. -/
theorem Coherent.of_guarded (h : Coherent s) (hk : Kept s s')
    (hguard : isRunning s = false → s' = s) : Coherent s' := by
  by_cases hstatus : s.engine.status = .running
  · exact h.of_running hstatus hk
  · rw [hguard (by simp [isRunning, DiscoveryStatus.isRunning, hstatus])]
    exact h

theorem Coherent.failed (h : Coherent s) (hstatus : s.engine.status ≠ .running)
    {b : UdpDiscoveryBackend} (hdown : b.running = false) (hb : b.Coupled) (w : World) :
    Coherent { s with engine.status := .failed, backend := b, world := w } where
  status := .inr (.inr rfl)
  running := by simp [hdown]
  socket := hb
  idle _ := h.idle hstatus

theorem Coherent.start (h : Coherent s) : Coherent (start os s).2 := by
  rcases start_cases os s with ⟨-, heq⟩ | ⟨hstatus, hstart⟩
  · rw [heq]
    exact h
  · have hidle : s.engine.status ≠ .running := by simpa [DiscoveryStatus.isRunning] using hstatus
    have hdown := h.down hidle
    obtain ⟨-, hrunning, hcoupled⟩ :=
      UdpDiscoveryBackend.start_of_down os s.world hdown h.socket
    rcases hstart with ⟨-, heq⟩ | ⟨-, hok, heq⟩ | ⟨-, hok, heq⟩
    · rw [heq]
      exact h.failed hidle hdown h.socket s.world
    · rw [heq]
      exact h.failed hidle (hrunning.trans hok) hcoupled _
    · rw [heq]
      exact ⟨.inr (.inl rfl), by simp [hrunning, hok], hcoupled, fun hne ↦ absurd rfl hne⟩

theorem Coherent.stop (h : Coherent s) : Coherent (stop s) := by
  unfold DiscoveryEngine.stop
  split_ifs
  · exact h
  · exact ⟨.inl rfl, by simp [UdpDiscoveryBackend.stop], .stop s.backend, fun _ ↦ ⟨rfl, rfl⟩⟩

theorem Coherent.pollOnce (h : Coherent s) (hs : Sound s) :
    Coherent (DiscoveryEngine.pollOnce deps os s).2 :=
  h.of_guarded hs.pollOnce_kept fun hrunning ↦ by rw [pollOnce_of_not_running hrunning]

theorem Coherent.exec (h : Coherent s) (hs : Sound s) (op : Op) :
    Coherent (exec deps os op s) := by
  cases op with
  | start => exact h.start
  | stop => exact h.stop
  | announceNow =>
      apply h.of_guarded (announceNow_quiet deps os s).kept
      intro hrunning
      rw [announceNow_of_not_running hrunning]
  | probeNow =>
      apply h.of_guarded (probeNow_quiet deps os s).kept
      intro hrunning
      simp [probeNow, hrunning]
  | pollOnce => exact h.pollOnce hs
  | pollMany maxMessages =>
      refine (hs.pollMany_induction (P := fun t ↦ Coherent t) ?_ maxMessages h).2.2
      exact fun t hsound _ ht ↦ ht.pollOnce hsound

theorem Reachable.coherent (h : Reachable deps os s) : Coherent s := by
  induction h with
  | create context config world =>
      exact ⟨.inl rfl, by simp, rfl, fun _ ↦ ⟨rfl, rfl⟩⟩
  | exec op hreach ih => exact ih.exec hreach.sound op
  | environment inbox transport readings _ ih => exact ⟨ih.status, ih.running, ih.socket, ih.idle⟩

/-- What the owner of an engine set up: the shared configuration, the copy of
it in the backend, and a transport engine. -/
structure Setup (c : DiscoveryConfig) (s : Runtime T) : Prop where
  config : s.context.config = some c
  transport : s.context.transport.isSome = true
  backend : s.backend.config = c

theorem Setup.of_kept (h : Setup c s) (hk : Kept s s') : Setup c s' :=
  ⟨hk.config.trans h.config, hk.transport.trans h.transport, by rw [hk.backend]; exact h.backend⟩

variable (deps os) in
theorem Setup.exec (h : Setup c s) (hs : Sound s) (op : Op) : Setup c (exec deps os op s) := by
  cases op with
  | start =>
      obtain ⟨hconfig, -, -⟩ := backendStart_spec os s.world hs.socket hs.config
      rcases start_cases os s with ⟨-, heq⟩ | ⟨-, ⟨-, heq⟩ | ⟨-, -, heq⟩ | ⟨-, -, heq⟩⟩
      · rw [DiscoveryEngine.exec, heq]
        exact h
      · rw [DiscoveryEngine.exec, heq]
        exact ⟨h.config, h.transport, h.backend⟩
      · rw [DiscoveryEngine.exec, heq]
        exact ⟨h.config, h.transport, hconfig.trans h.backend⟩
      · rw [DiscoveryEngine.exec, heq]
        exact ⟨h.config, h.transport, hconfig.trans h.backend⟩
  | stop =>
      simp only [DiscoveryEngine.exec, DiscoveryEngine.stop]
      split_ifs
      · exact h
      · exact ⟨h.config, h.transport, h.backend⟩
  | announceNow => exact h.of_kept (announceNow_quiet deps os s).kept
  | probeNow => exact h.of_kept (probeNow_quiet deps os s).kept
  | pollOnce => exact h.of_kept hs.pollOnce_kept
  | pollMany maxMessages => exact h.of_kept (hs.pollMany_kept maxMessages)

theorem status_of_start_failed (h : (start os s).1 = false) :
    (start os s).2.engine.status = .failed := by
  rcases start_cases os s with ⟨-, heq⟩ | ⟨-, ⟨-, heq⟩ | ⟨-, -, heq⟩ | ⟨-, -, heq⟩⟩
  · rw [heq] at h
    cases h
  · rw [heq]
  · rw [heq]
  · rw [heq] at h
    cases h

variable (os) in
/-- The start of an engine that is set up. -/
theorem start_iff (h : Coherent s) (hsetup : Setup c s) :
    (start os s).1 = true ↔ s.engine.status = .running ∨
      c.isValid = true ∧ StartCallsSucceed os c s.world.calls := by
  have hctx : s.context.isValid = c.isValid := by
    simp [DiscoveryContext.isValid, hsetup.config, hsetup.transport]
  rcases start_cases os s with ⟨hstatus, heq⟩ | ⟨hstatus, hstart⟩
  · have hrunning : s.engine.status = .running := by
      simpa [DiscoveryStatus.isRunning] using hstatus
    simp [heq, hrunning]
  · have hidle : s.engine.status ≠ .running := by simpa [DiscoveryStatus.isRunning] using hstatus
    obtain ⟨hiff, -, -⟩ :=
      UdpDiscoveryBackend.start_of_down os s.world (h.down hidle) h.socket
    rw [hsetup.backend] at hiff
    rw [or_iff_right hidle, ← hiff]
    rcases hstart with ⟨hinvalid, heq⟩ | ⟨-, hok, heq⟩ | ⟨-, hok, heq⟩
    · rw [hctx] at hinvalid
      rw [heq, hiff, hinvalid]
      simp
    · rw [heq, hok]
    · rw [heq, hok]

end DiscoveryEngine

/-! ## The service -/

namespace DiscoveryService

variable {T : Type} {deps : External T} {os : Os} {sv : DiscoveryService T}

/-- The states of a service whose engine is also driven directly. -/
inductive Driven (deps : External T) (os : Os) : DiscoveryService T → Prop
  | create (options : DiscoveryOptions) (transport : T) (world : World) :
      Driven deps os (create options transport world)
  | start {sv : DiscoveryService T} : Driven deps os sv → Driven deps os (sv.start os).2
  | stop {sv : DiscoveryService T} : Driven deps os sv → Driven deps os sv.stop
  | setOnPeerFound (callable : Bool) {sv : DiscoveryService T} :
      Driven deps os sv → Driven deps os (sv.setOnPeerFound callable)
  | event (e : Event T) {sv : DiscoveryService T} :
      Driven deps os sv → Driven deps os (e.apply deps os sv)
  | engine (op : DiscoveryEngine.Op) {sv : DiscoveryService T} : Driven deps os sv →
      Driven deps os { sv with runtime := DiscoveryEngine.exec deps os op sv.runtime }

theorem toConfig_isValid (o : DiscoveryOptions) : o.toConfig.isValid = o.isValid := by
  rw [Bool.eq_iff_iff]
  simp only [DiscoveryConfig.isValid, DiscoveryOptions.isValid, DiscoveryOptions.toConfig,
    Bool.and_eq_true]
  tauto

theorem apply_options (e : Event T) (sv : DiscoveryService T) :
    (e.apply deps os sv).options = sv.options := by
  have hnotify (order : PeerOrder) (sv : DiscoveryService T) :
      (sv.notifyNewPeers os order).options = sv.options := by
    obtain ⟨k, hk⟩ := notifyNewPeers_eq os order sv
    rw [hk]
  cases e with
  | poll order => exact hnotify order _
  | pollMany maxMessages order => exact hnotify order _
  | _ => rfl

theorem Driven.runtime (h : Driven deps os sv) : DiscoveryEngine.Reachable deps os sv.runtime := by
  induction h with
  | create options transport world => exact .create _ _ _
  | start _ ih => exact reachable_start ih
  | stop _ ih => exact .exec .stop ih
  | setOnPeerFound _ _ ih => exact ih
  | event e _ ih => exact reachable_event ih e
  | engine op _ ih => exact .exec op ih

theorem Driven.config (h : Driven deps os sv) : sv.config = sv.options.toConfig := by
  induction h with
  | create options transport world => rfl
  | start _ ih =>
      unfold DiscoveryService.start
      split_ifs
      · exact ih
      · exact ih
  | stop _ ih => exact ih
  | setOnPeerFound _ _ ih => exact ih
  | event e _ ih => rw [apply_config, apply_options, ih]
  | engine op _ ih => exact ih

theorem Driven.setup (h : Driven deps os sv) : DiscoveryEngine.Setup sv.config sv.runtime := by
  induction h with
  | create options transport world => exact ⟨rfl, rfl, rfl⟩
  | start hdriven ih =>
      unfold DiscoveryService.start
      split_ifs
      · exact ih
      · exact ih.exec deps os hdriven.runtime.sound .start
  | stop hdriven ih => exact ih.exec deps os hdriven.runtime.sound .stop
  | setOnPeerFound _ _ ih => exact ih
  | event e hdriven ih =>
      obtain ⟨e', k, hruntime, -⟩ := apply_runtime deps os e _
      have hkept := ((e'.trace deps os _).kept hdriven.runtime.sound).2
      have hnext := ih.of_kept hkept
      rw [hruntime, apply_config]
      exact ⟨hnext.config, hnext.transport, hnext.backend⟩
  | engine op hdriven ih => exact ih.exec deps os hdriven.runtime.sound op

theorem start_iff (h : Driven deps os sv) :
    (sv.start os).1 = true ↔ sv.runtime.engine.status = .running ∨
      sv.options.isValid = true ∧ sv.config.isValid = true ∧
        StartCallsSucceed os sv.config sv.runtime.world.calls := by
  have hvalid : sv.config.isValid = sv.options.isValid := by rw [h.config, toConfig_isValid]
  have hengine := DiscoveryEngine.start_iff os h.runtime.coherent h.setup
  unfold DiscoveryService.start
  split_ifs with hinvalid
  · -- options that are not valid never let the engine run
    have hoptions : sv.options.isValid = false := by simpa using hinvalid
    have hidle : sv.runtime.engine.status ≠ .running := by
      intro hstatus
      have hctx := h.runtime.sound.context (by rw [hstatus]; rfl)
      obtain ⟨-, c, hc⟩ := (DiscoveryContext.isValid_iff _).mp hctx
      obtain ⟨hsome, hc'⟩ := (DiscoveryContext.configChecked_eq_ok_iff _ _).mp hc
      rw [h.setup.config, Option.some.injEq] at hsome
      rw [← hsome, ← DiscoveryConfig.isValid_iff, hvalid, hoptions] at hc'
      cases hc'
    simp [hidle, hoptions]
  · have hoptions : sv.options.isValid = true := by simpa using hinvalid
    rw [hoptions, hvalid, hoptions]
    rw [hvalid, hoptions] at hengine
    simpa using hengine

theorem status_of_start_failed (h : Driven deps os sv) (hfailed : (sv.start os).1 = false) :
    (sv.start os).2.runtime.engine.status ≠ .running := by
  have hidle : sv.runtime.engine.status ≠ .running := by
    intro hstatus
    rw [(start_iff h).mpr (.inl hstatus)] at hfailed
    cases hfailed
  unfold DiscoveryService.start at hfailed ⊢
  split_ifs at hfailed ⊢
  · exact hidle
  · dsimp only at hfailed ⊢
    rw [DiscoveryEngine.status_of_start_failed hfailed]
    simp

/-- Between calls a service is stopped, running or failed; it runs exactly when
its backend does and when the socket is open; and otherwise it knows no peer and
no announcement.  A start that fails leaves nothing open. -/
theorem lifecycle_coherent (h : Driven deps os sv) :
    let s := sv.runtime
    let s' := (sv.start os).2.runtime
    (s.engine.status = .stopped ∨ s.engine.status = .running ∨ s.engine.status = .failed) ∧
      (s.engine.status = .running ↔ s.backend.running = true) ∧
      (s.backend.running = true ↔ s.backend.socket.isValid = true) ∧
      (s.engine.status ≠ .running → s.engine.registry = {} ∧ s.engine.lastAnnounceAt = {}) ∧
      ((sv.start os).1 = true ↔ s.engine.status = .running ∨
        sv.options.isValid = true ∧ sv.config.isValid = true ∧
          StartCallsSucceed os sv.config s.world.calls) ∧
      ((sv.start os).1 = false → s'.engine.status ≠ .running ∧ s'.backend.running = false ∧
        s'.backend.socket.isValid = false ∧ s'.engine.registry = {}) := by
  obtain ⟨hstatus, hrunning, hsocket, hidle⟩ := h.runtime.coherent
  have hcoupled (b : UdpDiscoveryBackend) (hb : b.Coupled) :
      b.running = true ↔ b.socket.isValid = true := by rw [hb]
  refine ⟨hstatus, hrunning, hcoupled _ hsocket, hidle, start_iff h, fun hfailed ↦ ?_⟩
  have hafter := h.start.runtime.coherent
  have hidle' := status_of_start_failed h hfailed
  have hdown := hafter.down hidle'
  exact ⟨hidle', hdown, hafter.socket.symm.trans hdown, (hafter.idle hidle').1⟩

section Node

open Simulation

/-- A service of `node-a`, just constructed. -/
def fresh : DiscoveryService (List PeerInfo) :=
  create (.localDev (ascii "node-a") 9500 9501) [] {}

theorem driven_fresh : Driven listing (system (ticking 1000)) fresh := .create _ _ _

theorem lifecycle_coherent_fresh : (fresh.start (system (ticking 1000))).1 = true := by
  obtain ⟨-, -, -, -, hstart, -⟩ := lifecycle_coherent driven_fresh
  exact hstart.mpr (.inr ⟨by decide, by decide, by constructor <;> decide⟩)

end Node

end DiscoveryService

end Discovery
