import Discovery.Encoding

/-!
# What the message decoder accepts

The field reader is exact for the body of an encoding, so the decoder accepts
the encodings of valid messages with short fields and nothing else.
-/

namespace Discovery

open Lib DiscoveryEncoder DiscoveryDecoder

/-- Every variable field is small enough for its 32-bit size. -/
structure DiscoveryMessage.Fits (m : DiscoveryMessage) : Prop where
  fromNodeId : m.fromNodeId.length < 2 ^ 32
  toNodeId : m.toNodeId.length < 2 ^ 32
  correlationId : m.correlationId.length < 2 ^ 32
  payload : m.payload.length < 2 ^ 32

namespace MessageCodec

variable {ser : Serializer}

def fieldsEquiv : UInt8 × Bytes × Bytes × Bytes × Bytes ≃ DiscoveryMessage where
  toFun p := ⟨.ofRaw p.1, p.2.1, p.2.2.1, p.2.2.2.1, p.2.2.2.2⟩
  invFun m := (m.type.toRaw, m.fromNodeId, m.toNodeId, m.correlationId, m.payload)
  left_inv p := by simp
  right_inv m := by simp

def encodeBody (ser : Serializer) (m : DiscoveryMessage) : Bytes :=
  [m.type.toRaw] ++ (appendSized ser [] m.fromNodeId ++ (appendSized ser [] m.toNodeId ++
    (appendSized ser [] m.correlationId ++ appendSized ser [] m.payload)))

theorem readFields_eq (ser : Serializer) :
    readFields ser = ((readU8 ser).andThen ((readString ser).andThen ((readString ser).andThen
      ((readString ser).andThen (readBytes ser))))).via fieldsEquiv := by
  funext data offset
  simp only [readFields, Reader.via, Reader.andThen, fieldsEquiv, Option.bind_assoc,
    Option.bind_some, Option.bind_eq_bind, Option.pure_def, Equiv.coe_fn_mk]

theorem exact_readFields (hser : ser.Lawful) :
    Exact (readFields ser) DiscoveryMessage.Fits (encodeBody ser) := by
  have hs := exact_readSized hser
  have h := ((exact_readU8 hser).andThen (hs.andThen (hs.andThen (hs.andThen hs)))).via fieldsEquiv
  rw [readFields_eq]
  intro data off m next
  refine (h data off m next).trans (and_congr_left fun _ ↦ ?_)
  exact ⟨fun ⟨_, h₁, h₂, h₃, h₄⟩ ↦ ⟨h₁, h₂, h₃, h₄⟩,
    fun ⟨h₁, h₂, h₃, h₄⟩ ↦ ⟨trivial, h₁, h₂, h₃, h₄⟩⟩

theorem encodeMessage_eq (hser : ser.Lawful) {m : DiscoveryMessage} (hm : m.isValid = true) :
    encodeMessage ser m = encodeBody ser m := by
  simp only [encodeMessage, hm, Bool.not_true, Bool.false_eq_true, if_false, appendString,
    appendBytes]
  rw [appendSized_eq hser (appendSized ser _ m.correlationId),
    appendSized_eq hser (appendSized ser _ m.toNodeId),
    appendSized_eq hser (appendSized ser _ m.fromNodeId), appendSized_eq hser [m.type.toRaw]]
  simp only [encodeBody, List.append_assoc]

theorem encodeMessage_of_invalid {m : DiscoveryMessage} (hm : m.isValid = false) :
    encodeMessage ser m = [] := by
  simp [encodeMessage, hm]

theorem length_encodeMessage (hser : ser.Lawful) {m : DiscoveryMessage} (hm : m.isValid = true) :
    (encodeMessage ser m).length = minimumMessageSize +
      (m.fromNodeId.length + m.toNodeId.length + m.correlationId.length + m.payload.length) := by
  rw [encodeMessage_eq hser hm]
  simp only [encodeBody, List.length_append, length_appendSized hser, minimumMessageSize,
    List.length_singleton]
  omega

theorem minimumMessageSize_le (hser : ser.Lawful) (m : DiscoveryMessage) :
    minimumMessageSize ≤ (encodeBody ser m).length := by
  simp only [encodeBody, List.length_append, length_appendSized hser, minimumMessageSize,
    List.length_singleton]
  omega

theorem decodeFields_eq (ser : Serializer) :
    decodeFields ser =
      fun data ↦ ((readFields ser).whole data).filter DiscoveryMessage.isValid := by
  funext data
  simp only [decodeFields, Reader.whole]
  cases readFields ser data 0 with
  | none => rfl
  | some r =>
      by_cases hend : r.2 = data.length <;> cases hv : r.1.isValid <;>
        simp [hend, hv, Option.filter]

theorem canonical_decodeFields (hser : ser.Lawful) :
    Canonical (decodeFields ser) (fun m ↦ m.Fits ∧ m.isValid = true) (encodeBody ser) := by
  rw [decodeFields_eq]
  exact (exact_readFields hser).canonical.filter _

/-- The early size check rejects nothing that the reads would accept. -/
theorem decodeMessage_eq_decodeFields (hser : ser.Lawful) (data : Bytes) :
    decodeMessage ser data = decodeFields ser data := by
  unfold decodeMessage
  split
  next hshort =>
    symm
    by_contra hsome
    obtain ⟨m, hm⟩ := Option.ne_none_iff_exists'.mp hsome
    have henc := (canonical_decodeFields hser).enc_of_decode hm
    have hmin := minimumMessageSize_le hser m
    rw [henc] at hmin
    omega
  next => rfl

theorem canonical_decodeMessage (hser : ser.Lawful) :
    Canonical (decodeMessage ser) (fun m ↦ m.Fits ∧ m.isValid = true) (encodeBody ser) := by
  intro data m
  rw [decodeMessage_eq_decodeFields hser]
  exact canonical_decodeFields hser data m

theorem decodeMessage_eq_some_iff (hser : ser.Lawful) (data : Bytes) (m : DiscoveryMessage) :
    decodeMessage ser data = some m ↔
      m.Fits ∧ m.isValid = true ∧ encodeMessage ser m = data := by
  rw [canonical_decodeMessage hser data m, and_assoc]
  refine and_congr_right fun _ ↦ and_congr_right fun hv ↦ ?_
  rw [encodeMessage_eq hser hv]

theorem prefixFree_decodeMessage (hser : ser.Lawful) : PrefixFree (decodeMessage ser) :=
  (exact_readFields hser).prefixFree (canonical_decodeMessage hser)

/-! ## The overloads -/

theorem decodeBuffer_eq (ser : Serializer) (buffer : Bytes) :
    decodeBuffer ser buffer = decodeMessage ser buffer := by
  cases buffer with
  | nil => simp [decodeBuffer, decodeMessage, minimumMessageSize]
  | cons b bs => simp [decodeBuffer]

theorem encodeMessage_ne_nil (hser : ser.Lawful) {m : DiscoveryMessage} (hm : m.isValid = true) :
    encodeMessage ser m ≠ [] := by
  rw [encodeMessage_eq hser hm]
  simp [encodeBody]

theorem makeDatagram_of_valid (hser : ser.Lawful) {m : DiscoveryMessage} (hm : m.isValid = true)
    {host : Bytes} {port : UInt16} (hhost : host ≠ []) (hport : port ≠ 0) :
    makeDatagram ser m host port = ⟨host, port, encodeMessage ser m⟩ := by
  have hne := encodeMessage_ne_nil hser hm
  simp [makeDatagram, hhost, hport, hne]

theorem decodeDatagram_makeDatagram (hser : ser.Lawful) {m : DiscoveryMessage}
    (hm : m.isValid = true) {host : Bytes} {port : UInt16} (hhost : host ≠ []) (hport : port ≠ 0) :
    decodeDatagram ser (makeDatagram ser m host port) =
      decodeMessage ser (encodeMessage ser m) := by
  have hvalid : (Datagram.mk host port (encodeMessage ser m)).isValid = true :=
    (Datagram.isValid_iff _).mpr ⟨hhost, hport, encodeMessage_ne_nil hser hm⟩
  rw [makeDatagram_of_valid hser hm hhost hport, decodeDatagram, hvalid, Bool.not_true,
    if_neg Bool.false_ne_true, decodeBuffer_eq]

theorem makeDatagram_of_invalid {m : DiscoveryMessage} (hm : m.isValid = false) (host : Bytes)
    (port : UInt16) : makeDatagram ser m host port = {} := by
  simp [makeDatagram, encodeMessage_of_invalid hm]

/-! ## Round trip and canonical form -/

theorem decode_encode_iff_fits (hser : ser.Lawful) {m : DiscoveryMessage} (hm : m.isValid = true) :
    decodeMessage ser (encodeMessage ser m) = some m ↔ m.Fits := by
  simp [decodeMessage_eq_some_iff hser, hm]

/-- A valid message survives encoding and decoding, bare or in a datagram,
exactly when each of its fields is shorter than `2 ^ 32` bytes; an invalid one
is not encoded at all. -/
theorem roundtrip_exact_domain (ser : Serializer) (hser : ser.Lawful) (m : DiscoveryMessage)
    (host : Bytes) (port : UInt16) :
    (m.isValid = true → host ≠ [] → port ≠ 0 →
      (decodeBuffer ser (encodeMessage ser m) = some m ↔
        m.fromNodeId.length < 2 ^ 32 ∧ m.toNodeId.length < 2 ^ 32 ∧
          m.correlationId.length < 2 ^ 32 ∧ m.payload.length < 2 ^ 32) ∧
      (decodeDatagram ser (makeDatagram ser m host port) = some m ↔
        m.fromNodeId.length < 2 ^ 32 ∧ m.toNodeId.length < 2 ^ 32 ∧
          m.correlationId.length < 2 ^ 32 ∧ m.payload.length < 2 ^ 32)) ∧
    (m.isValid = false →
      encodeMessage ser m = [] ∧ decodeBuffer ser (encodeMessage ser m) = none ∧
        (makeDatagram ser m host port).isValid = false ∧
          decodeDatagram ser (makeDatagram ser m host port) = none) := by
  have hfits : m.Fits ↔ m.fromNodeId.length < 2 ^ 32 ∧ m.toNodeId.length < 2 ^ 32 ∧
      m.correlationId.length < 2 ^ 32 ∧ m.payload.length < 2 ^ 32 :=
    ⟨fun ⟨h₁, h₂, h₃, h₄⟩ ↦ ⟨h₁, h₂, h₃, h₄⟩, fun ⟨h₁, h₂, h₃, h₄⟩ ↦ ⟨h₁, h₂, h₃, h₄⟩⟩
  constructor
  · intro hm hhost hport
    rw [decodeDatagram_makeDatagram hser hm hhost hport, decodeBuffer_eq, ← hfits]
    exact ⟨decode_encode_iff_fits hser hm, decode_encode_iff_fits hser hm⟩
  · intro hm
    rw [makeDatagram_of_invalid hm, encodeMessage_of_invalid hm]
    exact ⟨rfl, rfl, rfl, rfl⟩

def helloMessage : DiscoveryMessage :=
  { DiscoveryMessage.announce (ascii "node-a") (ascii "hello") with
    toNodeId := ascii "node-b"
    correlationId := ascii "announce-1" }

theorem roundtrip_exact_domain_hello :
    decodeDatagram .littleEndian
      (makeDatagram .littleEndian helloMessage (ascii "127.0.0.1") 9400) = some helloMessage :=
  ((roundtrip_exact_domain .littleEndian Serializer.littleEndian_lawful _ _ _).1
    (by decide) (by decide) (by decide)).2.mpr (by decide)

/-- Whatever the decoder accepts is the encoding of the valid message it
returns.  So no two byte strings decode to one message, the type byte is one of
the three known ones, and the early size check decides nothing. -/
theorem decodeMessage_accepts_canonical_only (ser : Serializer) (hser : ser.Lawful) (b : Bytes) :
    (∀ m, decodeMessage ser b = some m →
      m.isValid = true ∧ (m.type = .announce ∨ m.type = .probe ∨ m.type = .reply) ∧
        m.fromNodeId ≠ [] ∧ encodeMessage ser m = b ∧
          (b.head? = some 1 ∨ b.head? = some 2 ∨ b.head? = some 3)) ∧
    (∀ b' m, decodeMessage ser b = some m → decodeMessage ser b' = some m → b = b') ∧
    decodeMessage ser b = decodeFields ser b := by
  refine ⟨fun m hm ↦ ?_, fun b' m hm hm' ↦ ?_, decodeMessage_eq_decodeFields hser b⟩
  · obtain ⟨-, hv, henc⟩ := (decodeMessage_eq_some_iff hser _ _).mp hm
    obtain ⟨htype, hfrom⟩ := (DiscoveryMessage.isValid_iff m).mp hv
    have hknown := (DiscoveryMessageType.isValid_iff _).mp htype
    refine ⟨hv, hknown, hfrom, henc, ?_⟩
    rw [← henc, encodeMessage_eq hser hv]
    rcases hknown with h | h | h <;> simp [encodeBody, h, DiscoveryMessageType.toRaw]
  · exact ((decodeMessage_eq_some_iff hser _ _).mp hm).2.2.symm.trans
      ((decodeMessage_eq_some_iff hser _ _).mp hm').2.2

theorem decodeMessage_accepts_canonical_only_probe :
    encodeMessage .littleEndian (.probe [97]) =
      [2, 1, 0, 0, 0, 97, 0, 0, 0, 0, 0, 0, 0, 0, 0, 0, 0, 0] :=
  ((decodeMessage_accepts_canonical_only .littleEndian Serializer.littleEndian_lawful _).1 _
    (by decide)).2.2.2.1

end MessageCodec

end Discovery
