import Discovery.Serializer

/-!
# The message codec

`DiscoveryEncoder` and `DiscoveryDecoder`.  A message is one type byte followed
by four fields, each prefixed by its size in 32 bits.  The encoder narrows the
size of a field to 32 bits without a check.
-/

namespace Discovery

open Lib

/-! ## Size-prefixed fields -/

/-- The body that all `append_string` and `append_bytes` of the source share. -/
def appendSized (ser : Serializer) (buffer value : Bytes) : Bytes :=
  ser.appendU32 buffer (UInt32.ofNat value.length) ++ value

/-- The body that all `read_string` and `read_bytes` of the source share. -/
def readSized (ser : Serializer) : Reader UInt8 Bytes := fun data offset ↦ do
  let (length, offset) ← ser.readU32 data offset
  if ser.canRead data offset length.toNat then
    return ((data.drop offset).take length.toNat, offset + length.toNat)
  else none

/-! ## Encoder -/

namespace DiscoveryEncoder

def appendString (ser : Serializer) (buffer value : Bytes) : Bytes := appendSized ser buffer value

def appendBytes (ser : Serializer) (buffer value : Bytes) : Bytes := appendSized ser buffer value

def encodeMessage (ser : Serializer) (message : DiscoveryMessage) : Bytes :=
  if !message.isValid then [] else
  let buffer := [message.type.toRaw]
  let buffer := appendString ser buffer message.fromNodeId
  let buffer := appendString ser buffer message.toNodeId
  let buffer := appendString ser buffer message.correlationId
  appendBytes ser buffer message.payload

def makeDatagram (ser : Serializer) (message : DiscoveryMessage) (host : Bytes) (port : UInt16) :
    Datagram :=
  if host.isEmpty || port == 0 then {} else
  let payload := encodeMessage ser message
  if payload.isEmpty then {} else { host, port, payload }

end DiscoveryEncoder

/-! ## Decoder -/

namespace DiscoveryDecoder

def minimumMessageSize : ℕ := 1 + 4 + 4 + 4 + 4

/-- The access to the byte is partial here; the bounds test guards it. -/
def readU8 (ser : Serializer) : Reader UInt8 UInt8 := fun data offset ↦
  if ser.canRead data offset 1 then do
    let value ← data[offset]?
    return (value, offset + 1)
  else none

def readString (ser : Serializer) : Reader UInt8 Bytes := readSized ser

def readBytes (ser : Serializer) : Reader UInt8 Bytes := readSized ser

/-- The field reads of `decode_message`. -/
def readFields (ser : Serializer) : Reader UInt8 DiscoveryMessage := fun data offset ↦ do
  let message : DiscoveryMessage := {}
  let (rawType, offset) ← readU8 ser data offset
  let message := { message with type := .ofRaw rawType }
  let (fromNodeId, offset) ← readString ser data offset
  let message := { message with fromNodeId }
  let (toNodeId, offset) ← readString ser data offset
  let message := { message with toNodeId }
  let (correlationId, offset) ← readString ser data offset
  let message := { message with correlationId }
  let (payload, offset) ← readBytes ser data offset
  let message := { message with payload }
  return (message, offset)

/-- `decode_message` behind its early size check. -/
def decodeFields (ser : Serializer) (data : Bytes) : Option DiscoveryMessage := do
  let (message, offset) ← readFields ser data 0
  if offset ≠ data.length then none
  else if !message.isValid then none
  else return message

/-- The overload over a span. -/
def decodeMessage (ser : Serializer) (data : Bytes) : Option DiscoveryMessage :=
  if data.length < minimumMessageSize then none else decodeFields ser data

def decodeBuffer (ser : Serializer) (buffer : Bytes) : Option DiscoveryMessage :=
  if buffer.isEmpty then none else decodeMessage ser buffer

def decodeDatagram (ser : Serializer) (datagram : Datagram) : Option DiscoveryMessage :=
  if !datagram.isValid then none else decodeBuffer ser datagram.payload

end DiscoveryDecoder

/-! ## Exactness of the readers -/

section Exactness

variable {ser : Serializer}

theorem readSized_eq (hser : ser.Lawful) :
    readSized ser = Reader.sized ser.readU32 UInt32.toNat := by
  funext data offset
  unfold readSized Reader.sized
  cases ser.readU32 data offset with
  | none => rfl
  | some n =>
      by_cases h : n.2 + n.1.toNat ≤ data.length
      · simp [h, (hser.canRead _ _ _).mpr h]
      · simp [h, mt (hser.canRead _ _ _).mp h]

/-- A size-prefixed field holds exactly the strings below `2 ^ 32` bytes. -/
theorem exact_readSized (hser : ser.Lawful) :
    Exact (readSized ser) (fun s ↦ s.length < 2 ^ 32) (appendSized ser []) := by
  rw [readSized_eq hser]
  refine hser.u32.exact.sized (fun n ↦ ?_) UInt32.toNat_lt
    (fun n hn ↦ UInt32.toNat_ofNat_of_lt' hn) (by simp)
  rw [hser.u32.length_append]
  decide

theorem appendSized_eq (hser : ser.Lawful) (buffer value : Bytes) :
    appendSized ser buffer value = buffer ++ appendSized ser [] value := by
  rw [appendSized, hser.u32.append_eq, List.append_assoc, appendSized]

theorem length_appendSized (hser : ser.Lawful) (value : Bytes) :
    (appendSized ser [] value).length = 4 + value.length := by
  rw [appendSized, List.length_append, hser.u32.length_append]

theorem exact_readU8 (hser : ser.Lawful) :
    Exact (DiscoveryDecoder.readU8 ser) (fun _ ↦ True) (fun b ↦ [b]) := by
  intro data off b next
  unfold DiscoveryDecoder.readU8
  by_cases h : off + 1 ≤ data.length
  · have hhead : [b] <+: data.drop off ↔ b = data[off] := by
      rw [List.drop_eq_getElem_cons (by omega), List.cons_prefix_cons]
      simp
    rw [if_pos ((hser.canRead _ _ _).mpr h), List.getElem?_eq_getElem (by omega), hhead]
    simp [eq_comm]
  · rw [if_neg (mt (hser.canRead _ _ _).mp h), List.drop_eq_nil_of_le (by omega)]
    simp

end Exactness

end Discovery
