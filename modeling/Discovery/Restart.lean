import Discovery.ServiceLifecycle

/-!
# What is left after a stop

A service that was stopped is the service that its constructor makes of the same
options.  The transport engine is all that remembers the session.
-/

namespace Discovery

/-- The documented results of `socket`: a descriptor, or -1. -/
def Os.SocketReports (os : Os) : Prop := ∀ k, -1 ≤ os.socket k

namespace UdpSocket

variable {os : Os} {socket : UdpSocket} {w : World}

theorem close_of_le (h : -1 ≤ socket.fd) : socket.close = { fd := -1 } := by
  unfold close
  split_ifs with hfd
  · have hclosed : socket.fd = -1 := by omega
    rw [← hclosed]
  · rfl

theorem le_fd_bind (hos : os.SocketReports) (h : -1 ≤ socket.fd) (host : Bytes) (port : UInt16) :
    -1 ≤ (socket.bind os host port w).2.1.fd := by
  unfold bind openSocket
  dsimp only
  split_ifs <;> first | exact h | exact hos _

end UdpSocket

theorem UdpDiscoveryBackend.le_fd_start {os : Os} (hos : os.SocketReports)
    {b : UdpDiscoveryBackend} (h : -1 ≤ b.socket.fd) (w : World) :
    -1 ≤ (b.start os w).2.1.socket.fd := by
  unfold start UdpSocket.openSocket
  dsimp only
  split_ifs
  · exact h
  · exact h
  · exact hos _
  · exact (congrArg UdpSocket.fd (UdpSocket.close_of_le (hos _))).ge
  · exact (congrArg UdpSocket.fd (UdpSocket.close_of_le (UdpSocket.le_fd_bind hos (hos _) _ _))).ge
  · exact UdpSocket.le_fd_bind hos (hos _) _ _

theorem UdpDiscoveryBackend.eq_of_down (b : UdpDiscoveryBackend) (h : -1 ≤ b.socket.fd)
    (hdown : b.running = false) (hclosed : b.socket.isValid = false) :
    b = { config := b.config } := by
  obtain ⟨config, running, ⟨fd⟩⟩ := b
  have hfd : fd = -1 := by
    have hneg : ¬ 0 ≤ fd := of_decide_eq_false hclosed
    dsimp only at h
    omega
  subst hfd hdown
  rfl

namespace DiscoveryEngine

variable {T : Type} {deps : External T} {os : Os} {s : Runtime T}

theorem le_fd_start (hos : os.SocketReports) (h : -1 ≤ s.backend.socket.fd) :
    -1 ≤ (start os s).2.backend.socket.fd := by
  have hstart := UdpDiscoveryBackend.le_fd_start hos h s.world
  rcases start_cases os s with ⟨-, heq⟩ | ⟨-, ⟨-, heq⟩ | ⟨-, -, heq⟩ | ⟨-, -, heq⟩⟩ <;> rw [heq]
  · exact h
  · exact h
  · exact hstart
  · exact hstart

theorem le_fd_stop (h : -1 ≤ s.backend.socket.fd) : -1 ≤ (stop s).backend.socket.fd := by
  unfold stop
  dsimp only
  split_ifs
  · exact h
  · exact (congrArg UdpSocket.fd (UdpSocket.close_of_le h)).ge

theorem Reachable.le_fd (hos : os.SocketReports) (h : Reachable deps os s) :
    -1 ≤ s.backend.socket.fd := by
  induction h with
  | create context config world => exact le_rfl
  | exec op _ ih =>
      by_cases hstart : op = .start
      · subst hstart
        exact le_fd_start hos ih
      · by_cases hstop : op = .stop
        · subst hstop
          exact le_fd_stop ih
        · rwa [exec_backend hstart hstop]
  | environment inbox transport readings _ ih => exact ih

theorem eq_of_stopped {e : DiscoveryEngine} (hregistry : e.registry = {})
    (hstatus : e.status = .stopped) (hannounced : e.lastAnnounceAt = {}) : e = {} := by
  obtain ⟨registry, status, lastAnnounceAt⟩ := e
  subst hregistry hstatus hannounced
  rfl

/-- A stop leaves an engine that never ran. -/
theorem Reachable.stop_eq (hos : os.SocketReports) (h : Reachable deps os s) :
    stop s = { s with engine := {}, backend := { config := s.backend.config } } := by
  have hfd := h.le_fd hos
  unfold stop
  dsimp only
  split_ifs with hstatus
  · have hidle : s.engine.status ≠ .running := by simp [hstatus]
    have hdown := h.coherent.down hidle
    obtain ⟨hregistry, hannounced⟩ := h.coherent.idle hidle
    have hengine := eq_of_stopped hregistry hstatus hannounced
    have hbackend := s.backend.eq_of_down hfd hdown (h.coherent.socket.symm.trans hdown)
    rw [← hengine, ← hbackend]
  · rw [UdpDiscoveryBackend.stop, UdpSocket.close_of_le hfd]
    rfl

end DiscoveryEngine

namespace DiscoveryService

variable {T : Type} {deps : External T} {os : Os} {sv : DiscoveryService T}

theorem Driven.context (h : Driven deps os sv) : ∃ transport, sv.runtime.context =
    { config := some sv.options.toConfig, transport := some transport } := by
  obtain ⟨hconfig, htransport, -⟩ := h.setup
  obtain ⟨transport, htransport⟩ := Option.isSome_iff_exists.mp htransport
  rw [h.config] at hconfig
  exact ⟨transport, by rw [← hconfig, ← htransport]⟩

/-- Whatever calls of a service and of its engine went before, its stop leaves the
service that the constructor makes, with the present transport engine. -/
theorem stop_restores (hos : os.SocketReports) (h : Driven deps os sv) :
    ∃ transport, sv.runtime.context.transport = some transport ∧
      sv.stop =
        { (create sv.options transport sv.runtime.world).setOnPeerFound sv.onPeerFound with
          found := sv.found
          runtime.connects := sv.runtime.connects } := by
  obtain ⟨transport, hcontext⟩ := h.context
  refine ⟨transport, by rw [hcontext], ?_⟩
  rw [stop, h.runtime.stop_eq hos, h.setup.backend, hcontext, h.config]
  simp only [create, setOnPeerFound]

section Nodes

open Simulation

/-- A service that heard an announcement. -/
def polled : DiscoveryService (List PeerInfo) :=
  after listing (system (ticking 1000))
    [.environment [announced "node-c" 9600 9500] id 0, .poll .inOrder]
    (fresh.start (system (ticking 1000))).2

theorem driven_polled : Driven listing (system (ticking 1000)) polled :=
  .event (.poll .inOrder) (.event (.environment _ id 0) (.start driven_fresh))

theorem stop_restores_polled : polled.runtime.engine.registry.size = 1 ∧
    polled.stop.runtime.engine = {} := by
  have hos : (system (ticking 1000)).SocketReports := fun _ ↦ (by decide : (-1 : ℤ) ≤ 3)
  obtain ⟨transport, -, heq⟩ := stop_restores hos driven_polled
  exact ⟨by decide +kernel, by rw [heq]; rfl⟩

end Nodes

end DiscoveryService

end Discovery
