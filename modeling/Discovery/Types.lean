import Mathlib.Data.Int.Basic

/-!
# Bytes, time and the enumerations of the discovery module

Strings and byte vectors of the source are both byte sequences.  A timestamp is
a signed 64-bit count of milliseconds and is valid when it is positive.
-/

namespace Discovery

abbrev Bytes := List UInt8

/-- The bytes of an ASCII literal of the source. -/
def ascii (text : String) : Bytes := text.toList.map fun c ↦ UInt8.ofNat c.toNat

/-! ## Time -/

structure Timestamp where
  millis : Int64 := 0
deriving DecidableEq

namespace Timestamp

def fromMillis (millis : Int64) : Timestamp := ⟨millis⟩

def isValid (t : Timestamp) : Bool := decide (0 < t.millis)

@[simp] theorem isValid_iff (t : Timestamp) : t.isValid = true ↔ 0 < t.millis.toInt := by
  simp [isValid, Int64.lt_iff_toInt_lt]

end Timestamp

structure Duration where
  millis : Int64 := 0
deriving DecidableEq

namespace Duration

def fromMillis (millis : Int64) : Duration := ⟨millis⟩

def fromSeconds (seconds : Int64) : Duration := ⟨seconds * 1000⟩

end Duration

/-- The source subtracts timestamps in 64 bits; between valid ones the
difference does not wrap. -/
theorem toInt_sub_of_pos {a b : Int64} (ha : 0 < a.toInt) (hb : 0 < b.toInt) :
    (a - b).toInt = a.toInt - b.toInt := by
  have ha' := a.toInt_lt
  have hb' := b.toInt_lt
  rw [Int64.toInt_sub, Int.bmod_eq_of_le] <;> omega

theorem toInt_half_of_pos {a : Int64} (ha : 0 < a.toInt) : (a / 2).toInt = a.toInt / 2 := by
  have ha' := a.toInt_lt
  have h2 : (2 : Int64).toInt = 2 := by decide
  rw [Int64.toInt_div, h2, Int.tdiv_eq_ediv_of_nonneg (by omega), Int.bmod_eq_of_le] <;> omega

/-! ## Message types -/

/-- `DiscoveryMessageType`: the scoped enumeration over a byte.  A cast may
produce a value that no enumerator names. -/
inductive DiscoveryMessageType where
  | unknown
  | announce
  | probe
  | reply
  | unnamed (raw : UInt8) (h : 3 < raw)
deriving DecidableEq

namespace DiscoveryMessageType

def ofRaw (raw : UInt8) : DiscoveryMessageType :=
  if h : 3 < raw then .unnamed raw h
  else if raw = 0 then .unknown
  else if raw = 1 then .announce
  else if raw = 2 then .probe
  else .reply

def toRaw : DiscoveryMessageType → UInt8
  | unknown => 0
  | announce => 1
  | probe => 2
  | reply => 3
  | unnamed raw _ => raw

def isValid (type : DiscoveryMessageType) : Bool :=
  type = .announce || type = .probe || type = .reply

@[simp] theorem ofRaw_toRaw (type : DiscoveryMessageType) : ofRaw type.toRaw = type := by
  cases type with
  | unnamed raw h => simp [toRaw, ofRaw, h]
  | _ => decide

@[simp] theorem toRaw_ofRaw (raw : UInt8) : (ofRaw raw).toRaw = raw := by
  unfold ofRaw
  split
  · rfl
  next h =>
    have hle : raw.toNat ≤ 3 := by
      simpa [UInt8.lt_iff_toNat_lt] using h
    split_ifs with h0 h1 h2
    · exact h0.symm
    · exact h1.symm
    · exact h2.symm
    · apply UInt8.toNat_inj.mp
      have h0' : raw.toNat ≠ 0 := fun e ↦ h0 (UInt8.toNat_inj.mp e)
      have h1' : raw.toNat ≠ 1 := fun e ↦ h1 (UInt8.toNat_inj.mp e)
      have h2' : raw.toNat ≠ 2 := fun e ↦ h2 (UInt8.toNat_inj.mp e)
      change 3 = raw.toNat
      omega

theorem isValid_iff (type : DiscoveryMessageType) :
    type.isValid = true ↔ type = .announce ∨ type = .probe ∨ type = .reply := by
  simp [isValid, or_assoc]

end DiscoveryMessageType

/-! ## Peer states and engine status -/

/-- `DiscoveryPeerState`, with the values a cast may produce. -/
inductive DiscoveryPeerState where
  | unknown
  | discovered
  | alive
  | stale
  | expired
  | unnamed (raw : UInt8) (h : 4 < raw)
deriving DecidableEq

namespace DiscoveryPeerState

def isValid (state : DiscoveryPeerState) : Bool :=
  state = .discovered || state = .alive || state = .stale || state = .expired

def isAvailable (state : DiscoveryPeerState) : Bool :=
  state = .discovered || state = .alive

def isUnavailable (state : DiscoveryPeerState) : Bool :=
  state = .unknown || state = .stale || state = .expired

end DiscoveryPeerState

/-- `DiscoveryStatus`.  Only the engine writes it, never through a cast. -/
inductive DiscoveryStatus where
  | stopped
  | starting
  | running
  | stopping
  | failed
deriving DecidableEq

def DiscoveryStatus.isRunning (status : DiscoveryStatus) : Bool := status = .running

end Discovery
