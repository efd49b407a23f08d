import Discovery.Lifecycle

/-!
# A simulated environment

A concrete environment in which engines can be run: the transport engine is the
list of the peers it was told to connect, the clock ticks evenly and every
system call succeeds.  It satisfies each assumption that the results make.
-/

namespace Discovery

namespace Simulation

open DiscoveryEngine

/-- A transport engine that lists its peers, with the little-endian store. -/
def listing : External (List PeerInfo) where
  ser := .littleEndian
  peerInfoIsValid p := !p.nodeId.isEmpty && !p.host.isEmpty && p.port != 0
  transportIsRunning _ := true
  transportContains peers nodeId := peers.any fun p ↦ p.nodeId == nodeId
  connectPeer peers p := peers ++ [p]

/-- The clock of period `step`; it stands still in the far future. -/
def ticking (step i : ℕ) : Timestamp := ⟨Int64.ofNat (min (step * (i + 1)) (2 ^ 62))⟩

def system (clock : ℕ → Timestamp) : Os where
  clock := clock
  socket _ := 3
  setsockopt _ _ := 0
  bind _ := 0
  sendto _ data := data.length
  inetPton _ := true

theorem toInt_ticking (step i : ℕ) :
    (ticking step i).millis.toInt = (min (step * (i + 1)) (2 ^ 62) : ℕ) :=
  Int64.toInt_ofNat_of_lt (by omega)

theorem clockPositive_ticking {step : ℕ} (h : 0 < step) :
    (system (ticking step)).ClockPositive := by
  intro i
  have hpos : 0 < step * (i + 1) := Nat.mul_pos h (Nat.succ_pos i)
  simp only [system, Timestamp.isValid_iff, toInt_ticking]
  omega

theorem clockMonotone_ticking (step : ℕ) : (system (ticking step)).ClockMonotone := by
  intro i j hij
  have hle : step * (i + 1) ≤ step * (j + 1) := Nat.mul_le_mul_left _ (by omega)
  simp only [system, toInt_ticking]
  omega

theorem sendsSucceed_system (clock : ℕ → Timestamp) : (system clock).SendsSucceed := fun _ _ ↦ rfl

theorem listing_lawful : listing.ser.Lawful := Serializer.littleEndian_lawful

theorem peerInfoIsValid_listing (p : PeerInfo) :
    listing.peerInfoIsValid p = true ↔ p.nodeId ≠ [] ∧ p.host ≠ [] ∧ p.port ≠ 0 := by
  simp [listing, and_assoc]

def config (nodeId : String) (port : UInt16) : DiscoveryConfig :=
  .localDev (ascii nodeId) port (port + 1)

def node (nodeId : String) (port : UInt16) : Runtime (List PeerInfo) where
  context := { config := some (config nodeId port), transport := some [] }
  backend := { config := config nodeId port }

def started (os : Os) (nodeId : String) (port : UInt16) : Runtime (List PeerInfo) :=
  (start os (node nodeId port)).2

def announcement (nodeId : String) (port : UInt16) : DiscoveryMessage :=
  announceMessage .littleEndian (config nodeId port) ⟨5⟩ ⟨6⟩

def announced (nodeId : String) (port source : UInt16) : Arrival :=
  .datagram (ascii "127.0.0.1") source
    (DiscoveryEncoder.encodeMessage .littleEndian (announcement nodeId port))

/-- The engine of `node-b` just after its start, with a queue of arrivals. -/
def receiver (inbox : List Arrival) : Runtime (List PeerInfo) :=
  environment inbox id 0 (started (system (ticking 1000)) "node-b" 9400)

theorem reachable_node (os : Os) (nodeId : String) (port : UInt16) :
    Reachable listing os (node nodeId port) :=
  .create _ _ _

theorem reachable_started (os : Os) (nodeId : String) (port : UInt16) :
    Reachable listing os (started os nodeId port) :=
  .exec .start (reachable_node os nodeId port)

theorem reachable_receiver (inbox : List Arrival) :
    Reachable listing (system (ticking 1000)) (receiver inbox) :=
  .environment inbox id 0 (reachable_started _ _ _)

end Simulation

end Discovery
