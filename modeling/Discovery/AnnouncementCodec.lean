import Discovery.Encoding

/-!
# The announcement payload codec

The private codec of `DiscoveryEngine` for the payload of announce and reply
messages: node id, host, 16-bit port and 64-bit timestamp.
-/

namespace Discovery

open Lib

namespace DiscoveryEngine

def appendString (ser : Serializer) (buffer value : Bytes) : Bytes := appendSized ser buffer value

def readString (ser : Serializer) : Reader UInt8 Bytes := readSized ser

def encodeAnnouncement (ser : Serializer) (announcement : DiscoveryAnnouncement) : Bytes :=
  if !announcement.isValid then [] else
  let buffer := appendString ser [] announcement.nodeId
  let buffer := appendString ser buffer announcement.host
  let buffer := ser.appendU16 buffer announcement.port
  ser.appendI64 buffer announcement.timestamp.millis

/-- The field reads of `decode_announcement`, into a default announcement whose
host is filled in already. -/
def readAnnouncement (ser : Serializer) : Reader UInt8 DiscoveryAnnouncement :=
  fun data offset ↦ do
    let announcement : DiscoveryAnnouncement := {}
    let (nodeId, offset) ← readString ser data offset
    let announcement := { announcement with nodeId }
    let (host, offset) ← readString ser data offset
    let announcement := { announcement with host }
    let (port, offset) ← ser.readU16 data offset
    let announcement := { announcement with port }
    let (timestampMillis, offset) ← ser.readI64 data offset
    let announcement := { announcement with timestamp := .fromMillis timestampMillis }
    return (announcement, offset)

/-- The overload over a span. -/
def decodeAnnouncementSpan (ser : Serializer) (buffer : Bytes) : Option DiscoveryAnnouncement := do
  let (announcement, offset) ← readAnnouncement ser buffer 0
  if offset ≠ buffer.length then none
  else if !announcement.isValid then none
  else return announcement

def decodeAnnouncement (ser : Serializer) (buffer : Bytes) : Option DiscoveryAnnouncement :=
  if buffer.isEmpty then none else decodeAnnouncementSpan ser buffer

end DiscoveryEngine

/-- Both strings are small enough for their 32-bit sizes. -/
structure DiscoveryAnnouncement.Fits (a : DiscoveryAnnouncement) : Prop where
  nodeId : a.nodeId.length < 2 ^ 32
  host : a.host.length < 2 ^ 32

namespace AnnouncementCodec

open DiscoveryEngine

variable {ser : Serializer}

def fieldsEquiv : Bytes × Bytes × UInt16 × Int64 ≃ DiscoveryAnnouncement where
  toFun p := ⟨p.1, p.2.1, p.2.2.1, .fromMillis p.2.2.2⟩
  invFun a := (a.nodeId, a.host, a.port, a.timestamp.millis)
  left_inv _ := rfl
  right_inv _ := rfl

/-- The bytes of an announcement, whether or not it is valid. -/
def encodeBody (ser : Serializer) (a : DiscoveryAnnouncement) : Bytes :=
  appendSized ser [] a.nodeId ++ (appendSized ser [] a.host ++
    (ser.appendU16 [] a.port ++ ser.appendI64 [] a.timestamp.millis))

theorem readAnnouncement_eq (ser : Serializer) :
    readAnnouncement ser = ((readSized ser).andThen ((readSized ser).andThen
      (ser.readU16.andThen ser.readI64))).via fieldsEquiv := by
  funext data offset
  simp only [readAnnouncement, DiscoveryEngine.readString, Reader.via, Reader.andThen,
    Option.bind_assoc, Option.bind_some, Option.bind_eq_bind, Option.pure_def]
  rfl

theorem exact_readAnnouncement (hser : ser.Lawful) :
    Exact (readAnnouncement ser) DiscoveryAnnouncement.Fits (encodeBody ser) := by
  have hs := exact_readSized hser
  have h := (hs.andThen (hs.andThen (hser.u16.exact.andThen hser.i64.exact))).via fieldsEquiv
  rw [readAnnouncement_eq]
  intro data off a next
  refine (h data off a next).trans (and_congr_left fun _ ↦ ?_)
  exact ⟨fun ⟨h₁, h₂, _, _⟩ ↦ ⟨h₁, h₂⟩, fun ⟨h₁, h₂⟩ ↦ ⟨h₁, h₂, trivial, trivial⟩⟩

theorem encodeAnnouncement_eq (hser : ser.Lawful) {a : DiscoveryAnnouncement}
    (ha : a.isValid = true) : encodeAnnouncement ser a = encodeBody ser a := by
  simp only [encodeAnnouncement, ha, Bool.not_true, Bool.false_eq_true, if_false,
    DiscoveryEngine.appendString]
  rw [hser.i64.append_eq, hser.u16.append_eq, appendSized_eq hser (appendSized ser [] a.nodeId)]
  simp only [encodeBody, List.append_assoc]

theorem encodeAnnouncement_of_invalid {a : DiscoveryAnnouncement} (ha : a.isValid = false) :
    encodeAnnouncement ser a = [] := by
  simp [encodeAnnouncement, ha]

theorem length_encodeBody (hser : ser.Lawful) (a : DiscoveryAnnouncement) :
    (encodeBody ser a).length = a.nodeId.length + a.host.length + 18 := by
  simp only [encodeBody, List.length_append, length_appendSized hser, hser.u16.length_append,
    hser.i64.length_append]
  omega

theorem decodeAnnouncementSpan_eq (ser : Serializer) :
    decodeAnnouncementSpan ser =
      fun data ↦ ((readAnnouncement ser).whole data).filter DiscoveryAnnouncement.isValid := by
  funext data
  simp only [decodeAnnouncementSpan, Reader.whole]
  cases readAnnouncement ser data 0 with
  | none => rfl
  | some r =>
      by_cases hend : r.2 = data.length <;> cases hv : r.1.isValid <;>
        simp [hend, hv, Option.filter]

theorem canonical_decodeAnnouncementSpan (hser : ser.Lawful) :
    Canonical (decodeAnnouncementSpan ser) (fun a ↦ a.Fits ∧ a.isValid = true)
      (encodeBody ser) := by
  rw [decodeAnnouncementSpan_eq]
  exact (exact_readAnnouncement hser).canonical.filter _

theorem decodeAnnouncement_eq (hser : ser.Lawful) (buffer : Bytes) :
    decodeAnnouncement ser buffer = decodeAnnouncementSpan ser buffer := by
  cases buffer with
  | cons b bs => simp [decodeAnnouncement]
  | nil =>
      symm
      by_contra hsome
      obtain ⟨a, ha⟩ := Option.ne_none_iff_exists'.mp hsome
      have hlen := length_encodeBody hser a
      rw [(canonical_decodeAnnouncementSpan hser).enc_of_decode ha] at hlen
      simp at hlen

theorem canonical_decodeAnnouncement (hser : ser.Lawful) :
    Canonical (decodeAnnouncement ser) (fun a ↦ a.Fits ∧ a.isValid = true) (encodeBody ser) := by
  intro data a
  rw [decodeAnnouncement_eq hser]
  exact canonical_decodeAnnouncementSpan hser data a

theorem decodeAnnouncement_eq_some_iff (hser : ser.Lawful) (data : Bytes)
    (a : DiscoveryAnnouncement) :
    decodeAnnouncement ser data = some a ↔
      a.Fits ∧ a.isValid = true ∧ encodeAnnouncement ser a = data := by
  rw [canonical_decodeAnnouncement hser data a, and_assoc]
  refine and_congr_right fun _ ↦ and_congr_right fun hv ↦ ?_
  rw [encodeAnnouncement_eq hser hv]

theorem prefixFree_decodeAnnouncement (hser : ser.Lawful) :
    PrefixFree (decodeAnnouncement ser) :=
  (exact_readAnnouncement hser).prefixFree (canonical_decodeAnnouncement hser)

theorem isValid_of_decodeAnnouncement {data : Bytes} {a : DiscoveryAnnouncement}
    (h : decodeAnnouncement ser data = some a) : a.isValid = true := by
  rw [decodeAnnouncement, decodeAnnouncementSpan_eq] at h
  split at h
  · cases h
  · exact (Option.filter_eq_some_iff.mp h).2

/-! ## The exact bijection -/

/-- The host of an encoding stands behind the node id and the two sizes. -/
theorem host_of_encodeBody (hser : ser.Lawful) (a : DiscoveryAnnouncement) :
    ((encodeBody ser a).drop (a.nodeId.length + 8)).take a.host.length = a.host := by
  have hskip : a.nodeId.length + 8 =
      (appendSized ser [] a.nodeId ++ ser.appendU32 [] (UInt32.ofNat a.host.length)).length := by
    rw [List.length_append, length_appendSized hser, hser.u32.length_append]
    omega
  have hbody : encodeBody ser a =
      (appendSized ser [] a.nodeId ++ ser.appendU32 [] (UInt32.ofNat a.host.length)) ++
        (a.host ++ (ser.appendU16 [] a.port ++ ser.appendI64 [] a.timestamp.millis)) := by
    simp only [encodeBody, appendSized, List.append_assoc]
  rw [hbody, hskip, List.drop_left, List.take_left]

/-- Both overloads of the decoder accept exactly the encodings of the valid
announcements with short strings.  So these round-trip, the host of a decoded
announcement is read from the payload, and no payload goes on behind it. -/
theorem decodeAnnouncement_exact_bijection (ser : Serializer) (hser : ser.Lawful) :
    (∀ b a, decodeAnnouncement ser b = some a ↔
      a.isValid = true ∧ a.nodeId.length < 2 ^ 32 ∧ a.host.length < 2 ^ 32 ∧
        encodeAnnouncement ser a = b) ∧
    (∀ b, decodeAnnouncementSpan ser b = decodeAnnouncement ser b) ∧
    (∀ a : DiscoveryAnnouncement, a.isValid = true → a.nodeId.length < 2 ^ 32 →
      a.host.length < 2 ^ 32 → decodeAnnouncement ser (encodeAnnouncement ser a) = some a) ∧
    (∀ b a, decodeAnnouncement ser b = some a →
      a.host = (b.drop (a.nodeId.length + 8)).take a.host.length) ∧
    (∀ b a rest, decodeAnnouncement ser b = some a → rest ≠ [] →
      decodeAnnouncement ser (b ++ rest) = none) := by
  have hexact (b : Bytes) (a : DiscoveryAnnouncement) : decodeAnnouncement ser b = some a ↔
      a.isValid = true ∧ a.nodeId.length < 2 ^ 32 ∧ a.host.length < 2 ^ 32 ∧
        encodeAnnouncement ser a = b := by
    rw [decodeAnnouncement_eq_some_iff hser]
    exact ⟨fun ⟨⟨hid, hhost⟩, hv, henc⟩ ↦ ⟨hv, hid, hhost, henc⟩,
      fun ⟨hv, hid, hhost, henc⟩ ↦ ⟨⟨hid, hhost⟩, hv, henc⟩⟩
  refine ⟨hexact, fun b ↦ (decodeAnnouncement_eq hser b).symm, fun a hv hid hhost ↦ ?_,
    fun b a h ↦ ?_, fun b a rest h hrest ↦ ?_⟩
  · exact (hexact _ a).mpr ⟨hv, hid, hhost, rfl⟩
  · rw [← (canonical_decodeAnnouncement hser).enc_of_decode h]
    exact (host_of_encodeBody hser a).symm
  · apply (prefixFree_decodeAnnouncement hser).decode_eq_none_of_extension (a := b)
    · rw [h, Option.isSome_some]
    · exact List.prefix_append b rest
    · intro heq
      exact hrest (List.self_eq_append_right.mp heq)

def farAnnouncement : DiscoveryAnnouncement :=
  .create (ascii "node-a") (ascii "10.0.0.7") 7000 ⟨1767225600000⟩

theorem decodeAnnouncement_exact_bijection_far :
    decodeAnnouncement .littleEndian (encodeAnnouncement .littleEndian farAnnouncement) =
      some farAnnouncement :=
  (decodeAnnouncement_exact_bijection .littleEndian Serializer.littleEndian_lawful).2.2.1
    farAnnouncement (by decide) (by decide) (by decide)

end AnnouncementCodec

end Discovery
