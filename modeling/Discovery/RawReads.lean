import Discovery.AnnouncementCodec
import Discovery.Lib.CheckedReader
import Mathlib.Data.Int.Basic

/-!
# Parsing of untrusted bytes

The two decoders once more, over raw memory: offsets are `size_t` words, and an
access outside the buffer is a fault.  With a serializer that checks its reads,
the fault is unreachable, and the decoders are those of the codecs.
-/

namespace Discovery

open Lib

/-- A read that succeeds takes `n` bytes, all of them in the buffer. -/
def Advances {α : Type} (read : Reader UInt8 α) (n : ℕ) : Prop :=
  ∀ data off v next, read data off = some (v, next) → next = off + n ∧ next ≤ data.length

/-- What the bounds of the decoders rest on. -/
structure Serializer.Checked (ser : Serializer) : Prop where
  canRead : ∀ data offset n, ser.canRead data offset n = true ↔ offset + n ≤ data.length
  readU16 : Advances ser.readU16 2
  readU32 : Advances ser.readU32 4
  readI64 : Advances ser.readI64 8

theorem FixedWidth.advances {α : Type} {append : Bytes → α → Bytes} {read : Reader UInt8 α}
    {n : ℕ} (h : FixedWidth append read n) (hn : 0 < n) : Advances read n := by
  intro data off v next hread
  obtain ⟨-, hp, rfl⟩ := (h.exact _ _ _ _).mp hread
  have hle := hp.length_le
  rw [List.length_drop] at hle
  have hlen := h.length_append v
  exact ⟨by rw [hlen], by omega⟩

theorem Serializer.Lawful.checked {ser : Serializer} (h : ser.Lawful) : ser.Checked where
  canRead := h.canRead
  readU16 := h.u16.advances (by decide)
  readU32 := h.u32.advances (by decide)
  readI64 := h.i64.advances (by decide)

namespace Raw

section Readers

variable (width : ℕ) (ser : Serializer) (data : Bytes)

/-- A 32-bit size as a `size_t`. -/
def toSize (length : UInt32) : ℕ := length.toNat % 2 ^ width

/-- The index that `begin + static_cast<std::ptrdiff_t>(offset)` points to.  The
cast is signed, and pointers wrap as words do. -/
def pointerAt (offset : ℕ) : ℕ := (Int.bmod offset (2 ^ width) % 2 ^ width).toNat

def readU16 : Scan UInt16 := Scan.reading (Scan.external ser.readU16 data)

def readU32 : Scan UInt32 := Scan.reading (Scan.external ser.readU32 data)

def readI64 : Scan Int64 := Scan.reading (Scan.external ser.readI64 data)

/-- The body that the two `read_string` of the source share. -/
def readSized : Scan Bytes := Scan.reading do
  let length ← readU32 ser data
  let offset ← Scan.position
  if ser.canRead data offset (toSize width length) then do
    -- `assign` takes a pointer and a count, so no sum of words is formed
    let out ← Scan.copy data offset (offset + toSize width length)
    Scan.moveTo (← Scan.add width offset (toSize width length))
    return out
  else throw .reject

end Readers

/-! ## Decoder -/

namespace DiscoveryDecoder

open Discovery.DiscoveryDecoder (minimumMessageSize)

variable (width : ℕ) (ser : Serializer) (data : Bytes)

def readU8 : Scan UInt8 := Scan.reading do
  let offset ← Scan.position
  if ser.canRead data offset 1 then do
    let value ← Scan.byteAt data offset
    Scan.moveTo (← Scan.add width offset 1)
    return value
  else throw .reject

def readString : Scan Bytes := readSized width ser data

/-- Unlike `read_string` it adds up the end of the range before it copies. -/
def readBytes : Scan Bytes := Scan.reading do
  let length ← readU32 ser data
  let offset ← Scan.position
  if ser.canRead data offset (toSize width length) then do
    let last ← Scan.add width offset (toSize width length)
    let out ← Scan.copy data (pointerAt width offset) (pointerAt width last)
    Scan.moveTo (← Scan.add width offset (toSize width length))
    return out
  else throw .reject

def readFields : Scan DiscoveryMessage := do
  let message : DiscoveryMessage := {}
  let rawType ← readU8 width ser data
  let message := { message with type := .ofRaw rawType }
  let fromNodeId ← readString width ser data
  let message := { message with fromNodeId }
  let toNodeId ← readString width ser data
  let message := { message with toNodeId }
  let correlationId ← readString width ser data
  let message := { message with correlationId }
  let payload ← readBytes width ser data
  let message := { message with payload }
  return message

/-- The overload over a span. -/
def decodeMessage : Scan DiscoveryMessage :=
  if data.length < minimumMessageSize then throw .reject else do
    let message ← readFields width ser data
    let offset ← Scan.position
    if offset ≠ data.length then throw .reject
    else if !message.isValid then throw .reject
    else return message

def decodeBuffer (buffer : Bytes) : Scan DiscoveryMessage :=
  if buffer.isEmpty then throw .reject else decodeMessage width ser buffer

end DiscoveryDecoder

namespace DiscoveryEngine

variable (width : ℕ) (ser : Serializer) (buffer : Bytes)

def readString : Scan Bytes := readSized width ser buffer

def readAnnouncement : Scan DiscoveryAnnouncement := do
  let announcement : DiscoveryAnnouncement := {}
  let nodeId ← readString width ser buffer
  let announcement := { announcement with nodeId }
  let host ← readString width ser buffer
  let announcement := { announcement with host }
  let port ← readU16 ser buffer
  let announcement := { announcement with port }
  let timestampMillis ← readI64 ser buffer
  let announcement := { announcement with timestamp := .fromMillis timestampMillis }
  return announcement

/-- The overload over a span. -/
def decodeAnnouncementSpan : Scan DiscoveryAnnouncement := do
  let announcement ← readAnnouncement width ser buffer
  let offset ← Scan.position
  if offset ≠ buffer.length then throw .reject
  else if !announcement.isValid then throw .reject
  else return announcement

def decodeAnnouncement : Scan DiscoveryAnnouncement :=
  if buffer.isEmpty then throw .reject else decodeAnnouncementSpan width ser buffer

end DiscoveryEngine

/-! ## Words -/

section Refinement

variable {width : ℕ} {ser : Serializer} {data : Bytes}

theorem toSize_eq (hwidth : 32 ≤ width) (length : UInt32) : toSize width length = length.toNat :=
  Nat.mod_eq_of_lt (length.toNat_lt.trans_le (Nat.pow_le_pow_right (by decide) hwidth))

theorem pointerAt_eq {offset : ℕ} (h : offset < 2 ^ width) : pointerAt width offset = offset := by
  have hmod : (Int.bmod offset (2 ^ width) % 2 ^ width : ℤ) = offset := by
    have hcast := Int.bmod_emod (x := offset) (m := 2 ^ width)
    rw [Nat.cast_pow, Nat.cast_ofNat] at hcast
    rw [hcast]
    exact_mod_cast Nat.mod_eq_of_lt h
  rw [pointerAt, hmod, Int.toNat_natCast]

/-! ## Refinement -/

theorem refines_external {α : Type} {read : Reader UInt8 α} {n : ℕ} (h : Advances read n)
    (hn : 0 < n) :
    Refines width data.length (Scan.reading (Scan.external read data)) (read data) := by
  refine (Refines.external fun off v next hread ↦ (h _ _ _ _ hread).2).reading ?_
  intro off v next hread
  have hnext := (h _ _ _ _ hread).1
  omega

theorem refines_readU32 (hser : ser.Checked) :
    Refines width data.length (readU32 ser data) (ser.readU32 data) :=
  refines_external hser.readU32 (by decide)

theorem lt_of_readSized (hser : ser.Checked) {off : ℕ} {v : Bytes} {next : ℕ}
    (h : Discovery.readSized ser data off = some (v, next)) : off < next := by
  simp only [Discovery.readSized, Option.bind_eq_bind, Option.bind_eq_some_iff] at h
  obtain ⟨⟨length, mid⟩, hlen, h⟩ := h
  have hmid := (hser.readU32 _ _ _ _ hlen).1
  dsimp only at h
  split at h
  · obtain ⟨rfl, rfl⟩ := Prod.mk.inj (Option.some.inj h)
    omega
  · cases h

/-- The tail of both bodies: the range has been copied, the offset moves behind it. -/
theorem refines_skip {α : Type} (hdata : data.length < 2 ^ width) {offset size : ℕ}
    (hend : offset + size ≤ data.length) (out : α) :
    Refines width data.length
      (do
        Scan.moveTo (← Scan.add width offset size)
        return out)
      fun _ ↦ some (out, offset + size) := by
  refine Refines.congr (Refines.step (Refines.add (hend.trans_lt hdata)) ?_) fun _ ↦ rfl
  exact Refines.congr (Refines.step (Refines.moveTo hend) (Refines.pure out)) fun _ ↦ rfl

theorem refines_copy {offset size : ℕ} (hend : offset + size ≤ data.length) :
    Refines width data.length (Scan.copy data offset (offset + size))
      fun off ↦ some ((data.drop offset).take size, off) := by
  have hcopy : Refines width data.length (Scan.copy data offset (offset + size)) _ :=
    Refines.copy (Nat.le_add_right offset size) hend
  rwa [Nat.add_sub_cancel_left] at hcopy

/-- The guarded part of `read_string`. -/
theorem refines_stringBody (hdata : data.length < 2 ^ width) {offset size : ℕ}
    (hend : offset + size ≤ data.length) :
    Refines width data.length
      (do
        let out ← Scan.copy data offset (offset + size)
        Scan.moveTo (← Scan.add width offset size)
        return out)
      fun _ ↦ some ((data.drop offset).take size, offset + size) :=
  Refines.congr (Refines.step (refines_copy hend) (refines_skip hdata hend _)) fun _ ↦ rfl

/-- The guarded part of `read_bytes`. -/
theorem refines_bytesBody (hdata : data.length < 2 ^ width) {offset size : ℕ}
    (hend : offset + size ≤ data.length) :
    Refines width data.length
      (do
        let last ← Scan.add width offset size
        let out ← Scan.copy data (pointerAt width offset) (pointerAt width last)
        Scan.moveTo (← Scan.add width offset size)
        return out)
      fun _ ↦ some ((data.drop offset).take size, offset + size) := by
  refine Refines.congr (Refines.step (Refines.add (hend.trans_lt hdata)) ?_) fun _ ↦ rfl
  rw [pointerAt_eq (hend.trans_lt hdata),
    pointerAt_eq ((Nat.le_add_right offset size).trans hend |>.trans_lt hdata)]
  exact refines_stringBody hdata hend

/-- Both readers of a sized field are one program around a guarded part. -/
theorem refines_sized {body : UInt32 → ℕ → Scan Bytes} (hwidth : 32 ≤ width)
    (hser : ser.Checked)
    (hbody : ∀ length offset, offset + toSize width length ≤ data.length →
      Refines width data.length (body length offset) fun _ ↦
        some ((data.drop offset).take (toSize width length), offset + toSize width length)) :
    Refines width data.length
      (Scan.reading do
        let length ← readU32 ser data
        let offset ← Scan.position
        if ser.canRead data offset (toSize width length) then body length offset
        else throw .reject)
      (Discovery.readSized ser data) := by
  have hguard (length : UInt32) (offset : ℕ) := Refines.ite
    (p := ser.canRead data offset (toSize width length) = true)
    (fun hread ↦ hbody length offset ((hser.canRead _ _ _).mp hread)) fun _ ↦ .reject
  have hread := (refines_readU32 hser).bind fun length ↦ Refines.position.bind (hguard length)
  refine (hread.congr fun off ↦ ?_).reading fun off v next ↦ lt_of_readSized hser
  simp only [toSize_eq hwidth]
  rfl

theorem refines_readSized (hwidth : 32 ≤ width) (hdata : data.length < 2 ^ width)
    (hser : ser.Checked) :
    Refines width data.length (readSized width ser data) (Discovery.readSized ser data) :=
  refines_sized hwidth hser fun _ _ hend ↦ refines_stringBody hdata hend

theorem refines_readBytes (hwidth : 32 ≤ width) (hdata : data.length < 2 ^ width)
    (hser : ser.Checked) :
    Refines width data.length (DiscoveryDecoder.readBytes width ser data)
      (Discovery.DiscoveryDecoder.readBytes ser data) :=
  refines_sized hwidth hser fun _ _ hend ↦ refines_bytesBody hdata hend

theorem refines_u8Body (hdata : data.length < 2 ^ width) {offset : ℕ}
    (hend : offset + 1 ≤ data.length) :
    Refines width data.length
      (do
        let value ← Scan.byteAt data offset
        Scan.moveTo (← Scan.add width offset 1)
        return value)
      fun _ ↦ (data[offset]?).bind fun value ↦ some (value, offset + 1) := by
  have hbyte : data[offset]? = some data[offset] := List.getElem?_eq_getElem hend
  rw [hbyte]
  exact Refines.congr (Refines.step (Refines.byteAt hbyte) (refines_skip hdata hend _)) fun _ ↦ rfl

theorem refines_readU8 (hdata : data.length < 2 ^ width) (hser : ser.Checked) :
    Refines width data.length (DiscoveryDecoder.readU8 width ser data)
      (Discovery.DiscoveryDecoder.readU8 ser data) := by
  have hguard (offset : ℕ) := Refines.ite (p := ser.canRead data offset 1 = true)
    (fun hread ↦ refines_u8Body hdata ((hser.canRead _ _ _).mp hread)) fun _ ↦ .reject
  refine (Refines.position.bind hguard).reading fun off v next hread ↦ ?_
  dsimp only [Option.bind_some] at hread
  split at hread
  · obtain ⟨_, -, hv⟩ := Option.bind_eq_some_iff.mp hread
    obtain ⟨-, rfl⟩ := Prod.mk.inj (Option.some.inj hv)
    exact Nat.lt_succ_self off
  · cases hread

theorem refines_readFields (hwidth : 32 ≤ width) (hdata : data.length < 2 ^ width)
    (hser : ser.Checked) :
    Refines width data.length (DiscoveryDecoder.readFields width ser data)
      (Discovery.DiscoveryDecoder.readFields ser data) := by
  have hs : Refines width data.length (DiscoveryDecoder.readString width ser data)
      (Discovery.DiscoveryDecoder.readString ser data) := refines_readSized hwidth hdata hser
  have hb := refines_readBytes hwidth hdata hser
  exact (refines_readU8 hdata hser).bind fun _ ↦ hs.bind fun _ ↦ hs.bind fun _ ↦
    hs.bind fun _ ↦ hb.bind fun _ ↦ .pure _

theorem refines_readAnnouncement (hwidth : 32 ≤ width) (hdata : data.length < 2 ^ width)
    (hser : ser.Checked) :
    Refines width data.length (DiscoveryEngine.readAnnouncement width ser data)
      (Discovery.DiscoveryEngine.readAnnouncement ser data) := by
  have hs : Refines width data.length (DiscoveryEngine.readString width ser data)
      (Discovery.DiscoveryEngine.readString ser data) := refines_readSized hwidth hdata hser
  exact hs.bind fun _ ↦ hs.bind fun _ ↦ (refines_external hser.readU16 (by decide)).bind fun _ ↦
    (refines_external hser.readI64 (by decide)).bind fun _ ↦ .pure _

end Refinement

/-! ## Safety of the decoders -/

/-- A run from the start of the buffer never leaves it, and returns `expected`. -/
structure Confined (width : ℕ) (data : Bytes) {α : Type} (m : Scan α) (expected : Option α) :
    Prop where
  inRange : m.outcome ≠ .error .outOfRange
  outcome : m.outcome = expected.elim (.error .reject) .ok
  offset : m.final.offset ≤ data.length
  log : ∀ t ∈ m.final.log, t.InRange width data.length

section Confined

variable {width : ℕ} {ser : Serializer} {data : Bytes} {α : Type}

theorem Confined.of_refines {m : Scan α} {r : ℕ → Option (α × ℕ)}
    (hm : Refines width data.length m r) : Confined width data m ((r 0).map Prod.fst) := by
  have houtcome : m.outcome = ((r 0).map Prod.fst).elim (.error .reject) .ok := by
    rw [hm.outcome_eq]
    cases r 0 <;> rfl
  refine ⟨?_, houtcome, hm.final_inRange.offset, hm.final_inRange.log⟩
  rw [houtcome]
  cases r 0 <;> simp

theorem Confined.reject : Confined width data (throw .reject : Scan α) none :=
  .of_refines .reject

theorem Confined.ite {p : Prop} [Decidable p] {m : Scan α} {expected : Option α}
    (hm : ¬p → Confined width data m expected) :
    Confined width data (if p then throw .reject else m) (if p then none else expected) := by
  by_cases h : p
  · simpa only [if_pos h] using Confined.reject
  · simpa only [if_neg h] using hm h

/-- The end check and the validity check, as both decoders make them last. -/
theorem Confined.checked {m : Scan α} {r : ℕ → Option (α × ℕ)} (isValid : α → Bool)
    (hm : Refines width data.length m r) :
    Confined width data
      (do
        let v ← m
        let offset ← Scan.position
        if offset ≠ data.length then throw .reject
        else if !isValid v then throw .reject
        else return v)
      (do
        let (v, offset) ← r 0
        if offset ≠ data.length then none
        else if !isValid v then none
        else return v) := by
  have hrun := Confined.of_refines (hm.bind fun v ↦ Refines.position.bind fun offset ↦
    Refines.ite (p := offset ≠ data.length) (fun _ ↦ .reject) fun _ ↦
      Refines.ite (p := !isValid v) (fun _ ↦ .reject) fun _ ↦ .pure v)
  convert hrun using 1
  cases r 0 with
  | none => rfl
  | some p =>
      by_cases hend : p.2 = data.length <;> cases hv : isValid p.1 <;> simp [hend, hv]

theorem confined_decodeMessage (hwidth : 32 ≤ width) (hdata : data.length < 2 ^ width)
    (hser : ser.Checked) :
    Confined width data (DiscoveryDecoder.decodeMessage width ser data)
      (Discovery.DiscoveryDecoder.decodeMessage ser data) :=
  .ite fun _ ↦ .checked _ (refines_readFields hwidth hdata hser)

theorem confined_decodeAnnouncementSpan (hwidth : 32 ≤ width) (hdata : data.length < 2 ^ width)
    (hser : ser.Checked) :
    Confined width data (DiscoveryEngine.decodeAnnouncementSpan width ser data)
      (Discovery.DiscoveryEngine.decodeAnnouncementSpan ser data) :=
  .checked _ (refines_readAnnouncement hwidth hdata hser)

end Confined

/-- Whatever bytes arrive, every overload of both decoders keeps its offset, its
accesses and its sums in range, moves forward with every read, and returns what
the codec returns. -/
theorem decoders_never_leave_buffer (width : ℕ) (ser : Serializer) (data : Bytes)
    (hwidth : 32 ≤ width) (hdata : data.length < 2 ^ width) (hser : ser.Checked) :
    Confined width data (DiscoveryDecoder.decodeMessage width ser data)
      (Discovery.DiscoveryDecoder.decodeMessage ser data) ∧
    Confined width data (DiscoveryDecoder.decodeBuffer width ser data)
      (Discovery.DiscoveryDecoder.decodeBuffer ser data) ∧
    Confined width data (DiscoveryEngine.decodeAnnouncementSpan width ser data)
      (Discovery.DiscoveryEngine.decodeAnnouncementSpan ser data) ∧
    Confined width data (DiscoveryEngine.decodeAnnouncement width ser data)
      (Discovery.DiscoveryEngine.decodeAnnouncement ser data) := by
  have hmessage := confined_decodeMessage hwidth hdata hser
  have hannouncement := confined_decodeAnnouncementSpan hwidth hdata hser
  exact ⟨hmessage, .ite fun _ ↦ hmessage, hannouncement, .ite fun _ ↦ hannouncement⟩

/-- A message of the minimum size whose first field claims `2 ^ 32 - 1` bytes. -/
def overlong : Bytes := [1, 255, 255, 255, 255] ++ List.replicate 12 0

theorem decoders_never_leave_buffer_overlong :
    Confined 32 overlong (DiscoveryDecoder.decodeMessage 32 .littleEndian overlong) none ∧
    Confined 32 overlong (DiscoveryEngine.decodeAnnouncement 32 .littleEndian overlong) none := by
  have h := decoders_never_leave_buffer 32 .littleEndian overlong (by decide) (by decide)
    Serializer.littleEndian_lawful.checked
  have hmessage : Discovery.DiscoveryDecoder.decodeMessage .littleEndian overlong = none := by
    decide
  have hannouncement :
      Discovery.DiscoveryEngine.decodeAnnouncement .littleEndian overlong = none := by
    decide
  exact ⟨hmessage ▸ h.1, hannouncement ▸ h.2.2.2⟩

example : (DiscoveryDecoder.decodeMessage 32 .littleEndian overlong).final.log =
    [.access 0 1, .sum 0 1, .moved 1, .read 0 1, .moved 5, .read 1 5] := by
  decide

end Raw

end Discovery
