import Discovery.Types

/-!
# Announcements, messages, envelopes and configuration

The plain records of the discovery module with their validity checks.  Every
constructor of the source that reads the system clock takes the reading here as
its last argument.
-/

namespace Discovery

/-! ## Announcements -/

structure DiscoveryAnnouncement where
  nodeId : Bytes := []
  host : Bytes := ascii "127.0.0.1"
  port : UInt16 := 0
  timestamp : Timestamp := {}
deriving DecidableEq

namespace DiscoveryAnnouncement

def create (nodeId host : Bytes) (port : UInt16) (now : Timestamp) : DiscoveryAnnouncement :=
  { nodeId, host, port, timestamp := now }

def isValid (a : DiscoveryAnnouncement) : Bool :=
  !a.nodeId.isEmpty && !a.host.isEmpty && a.port != 0 && a.timestamp.isValid

theorem isValid_iff (a : DiscoveryAnnouncement) :
    a.isValid = true ↔ a.nodeId ≠ [] ∧ a.host ≠ [] ∧ a.port ≠ 0 ∧ a.timestamp.isValid = true := by
  simp [isValid, and_assoc]

end DiscoveryAnnouncement

/-! ## Messages -/

structure DiscoveryMessage where
  type : DiscoveryMessageType := .unknown
  fromNodeId : Bytes := []
  toNodeId : Bytes := []
  correlationId : Bytes := []
  payload : Bytes := []
deriving DecidableEq

namespace DiscoveryMessage

def announce (sender payload : Bytes) : DiscoveryMessage :=
  { type := .announce, fromNodeId := sender, payload }

def probe (sender : Bytes) : DiscoveryMessage :=
  { type := .probe, fromNodeId := sender }

def reply (sender payload : Bytes) : DiscoveryMessage :=
  { type := .reply, fromNodeId := sender, payload }

def isValid (m : DiscoveryMessage) : Bool := m.type.isValid && !m.fromNodeId.isEmpty

theorem isValid_iff (m : DiscoveryMessage) :
    m.isValid = true ↔ m.type.isValid = true ∧ m.fromNodeId ≠ [] := by
  simp [isValid]

end DiscoveryMessage

/-! ## Envelopes and datagrams -/

structure DiscoveryEnvelope where
  message : DiscoveryMessage := {}
  fromHost : Bytes := []
  fromPort : UInt16 := 0
  toHost : Bytes := []
  toPort : UInt16 := 0
  timestamp : Timestamp := {}
  retryCount : UInt32 := 0
  lastAttemptAt : Timestamp := {}
deriving DecidableEq

namespace DiscoveryEnvelope

def ofMessage (message : DiscoveryMessage) (now : Timestamp) : DiscoveryEnvelope :=
  { message, timestamp := now }

def outbound (message : DiscoveryMessage) (host : Bytes) (port : UInt16) (now : Timestamp) :
    DiscoveryEnvelope :=
  { message, toHost := host, toPort := port, timestamp := now }

def hasSource (e : DiscoveryEnvelope) : Bool := !e.fromHost.isEmpty && e.fromPort != 0

def hasDestination (e : DiscoveryEnvelope) : Bool := !e.toHost.isEmpty && e.toPort != 0

def markAttempt (e : DiscoveryEnvelope) (now : Timestamp) : DiscoveryEnvelope :=
  { e with retryCount := e.retryCount + 1, lastAttemptAt := now }

def isValid (e : DiscoveryEnvelope) : Bool := e.message.isValid && e.timestamp.isValid

@[simp] theorem markAttempt_isValid (e : DiscoveryEnvelope) (now : Timestamp) :
    (e.markAttempt now).isValid = e.isValid := rfl

@[simp] theorem markAttempt_hasDestination (e : DiscoveryEnvelope) (now : Timestamp) :
    (e.markAttempt now).hasDestination = e.hasDestination := rfl

end DiscoveryEnvelope

structure Datagram where
  host : Bytes := []
  port : UInt16 := 0
  payload : Bytes := []
deriving DecidableEq

namespace Datagram

def hasEndpoint (d : Datagram) : Bool := !d.host.isEmpty && d.port != 0

def hasPayload (d : Datagram) : Bool := !d.payload.isEmpty

def isValid (d : Datagram) : Bool := d.hasEndpoint && d.hasPayload

theorem isValid_iff (d : Datagram) :
    d.isValid = true ↔ d.host ≠ [] ∧ d.port ≠ 0 ∧ d.payload ≠ [] := by
  simp [isValid, hasEndpoint, hasPayload, and_assoc]

end Datagram

/-- The address record of the transport module. -/
structure PeerInfo where
  nodeId : Bytes
  host : Bytes
  port : UInt16
deriving DecidableEq

/-! ## Configuration -/

structure DiscoveryConfig where
  bindHost : Bytes := ascii "0.0.0.0"
  bindPort : UInt16 := 0
  broadcastHost : Bytes := ascii "255.255.255.255"
  broadcastPort : UInt16 := 0
  nodeId : Bytes := []
  announceHost : Bytes := ascii "127.0.0.1"
  announcePort : UInt16 := 0
  announceInterval : Duration := Duration.fromSeconds 3
  peerTtl : Duration := Duration.fromSeconds 15
  maxDatagramSize : ℕ := 64 * 1024
  enableBroadcast : Bool := true
deriving DecidableEq

namespace DiscoveryConfig

def create (nodeId : Bytes) (bindPort announcePort : UInt16) : DiscoveryConfig :=
  { bindPort, broadcastPort := bindPort, nodeId, announcePort }

/-- `DiscoveryConfig::local`. -/
def localDev (nodeId : Bytes) (bindPort announcePort : UInt16) : DiscoveryConfig :=
  { create nodeId bindPort announcePort with
    bindHost := ascii "127.0.0.1"
    broadcastHost := ascii "127.0.0.1"
    announceHost := ascii "127.0.0.1" }

def isValid (c : DiscoveryConfig) : Bool :=
  !c.bindHost.isEmpty && c.bindPort != 0 && !c.broadcastHost.isEmpty && c.broadcastPort != 0 &&
    !c.nodeId.isEmpty && !c.announceHost.isEmpty && c.announcePort != 0 &&
      decide (0 < c.announceInterval.millis) && decide (0 < c.peerTtl.millis) &&
        decide (0 < c.maxDatagramSize)

structure Valid (c : DiscoveryConfig) : Prop where
  bindHost : c.bindHost ≠ []
  bindPort : c.bindPort ≠ 0
  broadcastHost : c.broadcastHost ≠ []
  broadcastPort : c.broadcastPort ≠ 0
  nodeId : c.nodeId ≠ []
  announceHost : c.announceHost ≠ []
  announcePort : c.announcePort ≠ 0
  announceInterval : 0 < c.announceInterval.millis.toInt
  peerTtl : 0 < c.peerTtl.millis.toInt
  maxDatagramSize : 0 < c.maxDatagramSize

theorem isValid_iff (c : DiscoveryConfig) : c.isValid = true ↔ c.Valid := by
  simp only [isValid, Bool.and_eq_true, Bool.not_eq_true', List.isEmpty_eq_false_iff, bne_iff_ne,
    decide_eq_true_eq, Int64.lt_iff_toInt_lt, and_assoc]
  exact ⟨fun ⟨h₁, h₂, h₃, h₄, h₅, h₆, h₇, h₈, h₉, h₁₀⟩ ↦
      ⟨h₁, h₂, h₃, h₄, h₅, h₆, h₇, h₈, h₉, h₁₀⟩,
    fun h ↦ ⟨h.1, h.2, h.3, h.4, h.5, h.6, h.7, h.8, h.9, h.10⟩⟩

end DiscoveryConfig

/-! ## The shared context -/

inductive ErrorCode where
  | invalidState
  | invalidArgument
deriving DecidableEq

structure Error where
  code : ErrorCode
  message : String
deriving DecidableEq

/-- The dependencies of an engine.  A null pointer is `none`; the transport
engine is kept in the place of the pointer to it. -/
structure DiscoveryContext (T : Type*) where
  config : Option DiscoveryConfig := none
  transport : Option T := none

namespace DiscoveryContext

variable {T : Type*}

def isValid (ctx : DiscoveryContext T) : Bool :=
  ctx.config.isSome && ctx.transport.isSome && ctx.config.any DiscoveryConfig.isValid

def configChecked (ctx : DiscoveryContext T) : Except Error DiscoveryConfig :=
  match ctx.config with
  | none => .error ⟨.invalidState, "discovery context config is null"⟩
  | some config =>
    if config.isValid then .ok config
    else .error ⟨.invalidArgument, "discovery config is invalid"⟩

/-- `running` is the transport engine's own `is_running`. -/
def transportChecked (running : T → Bool) (ctx : DiscoveryContext T) : Except Error T :=
  match ctx.transport with
  | none => .error ⟨.invalidState, "discovery context transport engine is null"⟩
  | some transport =>
    if running transport then .ok transport
    else .error ⟨.invalidState, "transport engine is not running"⟩

theorem configChecked_eq_ok_iff (ctx : DiscoveryContext T) (config : DiscoveryConfig) :
    ctx.configChecked = .ok config ↔ ctx.config = some config ∧ config.Valid := by
  rcases ctx with ⟨_ | c, t⟩
  · simp [configChecked]
  · by_cases hc : c.isValid = true
    · have := (DiscoveryConfig.isValid_iff c).mp hc
      simp only [configChecked, hc, if_true, Except.ok.injEq, Option.some.injEq]
      exact ⟨fun h ↦ ⟨h, h ▸ this⟩, fun h ↦ h.1⟩
    · have : ¬ c.Valid := fun h ↦ hc ((DiscoveryConfig.isValid_iff c).mpr h)
      simp only [configChecked, hc, Bool.false_eq_true, if_false, reduceCtorEq, Option.some.injEq,
        false_iff, not_and]
      rintro rfl
      exact this

theorem isValid_iff (ctx : DiscoveryContext T) :
    ctx.isValid = true ↔ ctx.transport.isSome = true ∧ ∃ c, ctx.configChecked = .ok c := by
  simp only [configChecked_eq_ok_iff]
  rcases ctx with ⟨_ | c, t⟩
  · simp [isValid]
  · simp [isValid, DiscoveryConfig.isValid_iff]

end DiscoveryContext

end Discovery
