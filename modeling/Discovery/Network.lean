import Mathlib.Logic.Function.Basic
import Mathlib.Logic.Relation
import Discovery.Inbound
import Discovery.Registration

/-!
# A network of engines

Engines with pairwise distinct node ids exchange datagrams over a network that
may lose, duplicate, reorder and cut them.  Every registry entry of every engine
carries the address that the named engine announces.
-/

namespace Discovery

open DiscoveryEncoder DiscoveryDecoder DiscoveryEngine

abbrev Network (ι T : Type) := ι → Runtime T

namespace Network

variable {ι T : Type} {deps : External T} {os : ι → Os} {configs : ι → DiscoveryConfig}
  {N N' : Network ι T}

/-- What the network may deliver: a failed receive, or a datagram that some
engine sent, from any source and cut anywhere. -/
inductive InFlight (N : Network ι T) : Arrival → Prop where
  | failure : InFlight N .failure
  | datagram (sender : ι) {d : Datagram} (h : d ∈ (N sender).world.outbox) (host : Bytes)
      (port : UInt16) (cut : ℕ) : InFlight N (.datagram host port (d.payload.take cut))

variable [DecidableEq ι]

/-- An engine executes an operation, or the network fills its inbox. -/
inductive Step (deps : External T) (os : ι → Os) (N : Network ι T) : Network ι T → Prop where
  | exec (i : ι) (op : Op) :
      Step deps os N (Function.update N i (exec deps (os i) op (N i)))
  | deliver (i : ι) (inbox : List Arrival) (transport : T → T) (readings : ℕ)
      (h : ∀ a ∈ inbox, InFlight N a) :
      Step deps os N (Function.update N i (environment inbox transport readings (N i)))

/-- Every engine is freshly constructed under its configuration, with nothing
received and nothing sent. -/
def Initial (configs : ι → DiscoveryConfig) (N : Network ι T) : Prop :=
  ∀ i, (N i).engine = {} ∧ (N i).backend.running = false ∧
    (N i).context.config = some (configs i) ∧ (N i).world.inbox = [] ∧ (N i).world.outbox = []

/-! ## The invariant -/

/-- The arrival is a failure or a piece of a message that some engine may send. -/
def Genuine (ser : Serializer) (configs : ι → DiscoveryConfig) (a : Arrival) : Prop :=
  a = .failure ∨ ∃ j m host port cut, Authored ser (configs j) m ∧ m.isValid = true ∧
    a = .datagram host port ((encodeMessage ser m).take cut)

/-- The entry names another engine and carries the address it announces. -/
def Agrees (configs : ι → DiscoveryConfig) (i : ι) (n : Bytes) (p : DiscoveredPeer) : Prop :=
  ∃ j, j ≠ i ∧ n = (configs j).nodeId ∧ p.announcement.host = (configs j).announceHost ∧
    p.announcement.port = (configs j).announcePort

structure Holds (ser : Serializer) (configs : ι → DiscoveryConfig) (i : ι) (s : Runtime T) :
    Prop where
  sound : Sound s
  config : s.context.config = some (configs i)
  outbox : ∀ d ∈ s.world.outbox, ∃ m, Authored ser (configs i) m ∧ m.isValid = true ∧
    d.payload = encodeMessage ser m
  inbox : ∀ a ∈ s.world.inbox, Genuine ser configs a
  entry : ∀ n p, s.engine.registry.get n = some p → Agrees configs i n p

def Invariant (ser : Serializer) (configs : ι → DiscoveryConfig) (N : Network ι T) : Prop :=
  ∀ i, Holds ser configs i (N i)

omit [DecidableEq ι] in
theorem Initial.invariant {ser : Serializer} (h : Initial configs N) :
    Invariant ser configs N := by
  intro i
  obtain ⟨hengine, hrunning, hconfig, hinbox, houtbox⟩ := h i
  refine ⟨?_, hconfig, by simp [houtbox], by simp [hinbox], by simp [hengine]⟩
  constructor <;> simp [hengine, hrunning, DiscoveryStatus.isRunning]

omit [DecidableEq ι] in
theorem InFlight.genuine {ser : Serializer} (h : Invariant ser configs N) {a : Arrival}
    (ha : InFlight N a) : Genuine ser configs a := by
  cases ha with
  | failure => exact .inl rfl
  | datagram sender hd host port cut =>
      obtain ⟨m, hm, hvalid, hpayload⟩ := (h sender).outbox _ hd
      exact .inr ⟨sender, m, host, port, cut, hm, hvalid, by rw [hpayload]⟩

omit [DecidableEq ι] in
/-- What is accepted of a genuine arrival is the announcement of its sender: a
cut message does not decode, and a whole one decodes to itself. -/
theorem announcement_of_genuine {ser : Serializer} (hser : ser.Lawful)
    (hfit : ∀ i, (configs i).SizesFit) {arrival : Arrival} (harrival : Genuine ser configs arrival)
    {maxSize : ℕ} {localId : Bytes} {a : DiscoveryAnnouncement}
    (hr : react ser maxSize localId arrival = .accept a) :
    ∃ j now, a = localAnnouncement (configs j) now := by
  rcases harrival with rfl | ⟨j, m, host, port, cut, hm, hvalid, rfl⟩
  · have hempty : react ser maxSize localId .failure = .reject := rfl
    rw [hempty] at hr
    cases hr
  · obtain ⟨-, ⟨m', hdecode, -, -, -, ha⟩, -, -⟩ := react_eq_accept_iff.mp hr
    have hwhole : decodeMessage ser (encodeMessage ser m) = some m :=
      (MessageCodec.decodeMessage_eq_some_iff hser _ _).mpr ⟨hm.fits, hvalid, rfl⟩
    have htake := (MessageCodec.prefixFree_decodeMessage hser).take_eq_self
      (a := encodeMessage ser m) (n := min maxSize cut) (by rw [hwhole]; rfl)
      (by rw [← List.take_take, hdecode]; rfl)
    rw [List.take_take, htake, hwhole, Option.some.injEq] at hdecode
    subst hdecode
    exact ⟨j, hm.decodeAnnouncement_eq hser (hfit j) ha⟩

theorem Invariant.update {ser : Serializer} (h : Invariant ser configs N) {i : ι} {s : Runtime T}
    (hs : Holds ser configs i s) : Invariant ser configs (Function.update N i s) := by
  intro k
  by_cases hk : k = i
  · subst hk
    rwa [Function.update_self]
  · rw [Function.update_of_ne hk]
    exact h k

omit [DecidableEq ι] in
theorem Holds.exec (hser : deps.ser.Lawful) (hfit : ∀ i, (configs i).SizesFit) {i : ι}
    {s : Runtime T} (h : Holds deps.ser configs i s) (os : Os) (op : Op) :
    Holds deps.ser configs i (exec deps os op s) := by
  have hheard := exec_heard deps os h.sound h.config op
  obtain ⟨ds, hds, hall⟩ :=
    exec_sent os (speaks_authored hser (hfit i)) h.config h.sound op
  refine ⟨h.sound.exec op, (exec_config _ _ h.sound op).trans h.config, fun d hd ↦ ?_,
    fun a ha ↦ h.inbox a (hheard.inbox ha), fun n p hp ↦ ?_⟩
  · rw [hds, List.mem_append] at hd
    rcases hd with hd | hd
    · exact h.outbox d hd
    · exact hall d hd
  · rcases hheard.entry n p hp with ⟨p₀, hp₀, ha, -⟩ | ⟨⟨arrival, hmem, hr⟩, hn, -⟩
    · obtain ⟨j, hj, hnj, hhost, hport⟩ := h.entry n p₀ hp₀
      exact ⟨j, hj, hnj, by rw [ha, hhost], by rw [ha, hport]⟩
    · obtain ⟨j, now, ha⟩ := announcement_of_genuine hser hfit (h.inbox arrival hmem) hr
      have hself := nodeId_ne_of_react hr
      rw [ha] at hself hn
      refine ⟨j, fun hji ↦ hself (by rw [hji]; rfl), hn.symm, by rw [ha]; rfl, by rw [ha]; rfl⟩

theorem Step.invariant (hser : deps.ser.Lawful) (hfit : ∀ i, (configs i).SizesFit)
    (h : Invariant deps.ser configs N) (hstep : Step deps os N N') :
    Invariant deps.ser configs N' := by
  cases hstep with
  | exec i op => exact h.update ((h i).exec hser hfit (os i) op)
  | deliver i inbox transport readings hflight =>
      obtain ⟨hsound, hconfig, houtbox, -, hentry⟩ := h i
      exact h.update ⟨hsound.environment inbox transport readings, hconfig, houtbox,
        fun a ha ↦ (hflight a ha).genuine h, hentry⟩

theorem invariant_of_run (hser : deps.ser.Lawful) (hfit : ∀ i, (configs i).SizesFit)
    (hinitial : Initial configs N) (hrun : Relation.ReflTransGen (Step deps os) N N') :
    Invariant deps.ser configs N' := by
  induction hrun with
  | refl => exact hinitial.invariant
  | tail _ hstep ih => exact hstep.invariant hser hfit ih

/-- In every reachable state of the network, the key of a registry entry is the
node id of another engine, and the stored address is the one that engine
announces. -/
theorem address_agreement (hser : deps.ser.Lawful) (hfit : ∀ i, (configs i).SizesFit)
    (hdistinct : ∀ i j, (configs i).nodeId = (configs j).nodeId → i = j)
    (hinitial : Initial configs N) (hrun : Relation.ReflTransGen (Step deps os) N N')
    {i : ι} {n : Bytes} {p : DiscoveredPeer} (hp : (N' i).engine.registry.get n = some p) :
    n ≠ (configs i).nodeId ∧ (∃ j, j ≠ i ∧ n = (configs j).nodeId) ∧
      ∀ j, n = (configs j).nodeId →
        p.announcement.host = (configs j).announceHost ∧
          p.announcement.port = (configs j).announcePort := by
  obtain ⟨j, hji, rfl, hhost, hport⟩ :=
    (invariant_of_run hser hfit hinitial hrun i).entry n p hp
  refine ⟨fun h ↦ hji (hdistinct j i h), ⟨j, hji, rfl⟩, fun k hk ↦ ?_⟩
  obtain rfl := hdistinct j k hk
  exact ⟨hhost, hport⟩

section Nodes

open Simulation

def pair : Network Bool (List PeerInfo)
  | false => node "node-a" 9500
  | true => node "node-b" 9400

def pairConfig : Bool → DiscoveryConfig
  | false => Simulation.config "node-a" 9500
  | true => Simulation.config "node-b" 9400

def pairExec (N : Network Bool (List PeerInfo)) (i : Bool) (op : Op) :
    Network Bool (List PeerInfo) :=
  Function.update N i (exec listing (system (ticking 1000)) op (N i))

def announcing : Network Bool (List PeerInfo) :=
  pairExec (pairExec pair false .start) false .announceNow

def delivering : Network Bool (List PeerInfo) :=
  Function.update announcing true (environment ((announcing false).world.outbox.map fun d ↦
    .datagram (ascii "127.0.0.1") 9500 (d.payload.take 65536)) id 0 (announcing true))

def polled : Network Bool (List PeerInfo) :=
  pairExec (pairExec delivering true .start) true .pollOnce

theorem run_polled :
    Relation.ReflTransGen (Step listing fun _ ↦ system (ticking 1000)) pair polled := by
  refine .tail (.tail (.tail (.tail (.tail .refl (.exec false .start)) (.exec false .announceNow))
    (.deliver true _ id 0 fun a ha ↦ ?_)) (.exec true .start)) (.exec true .pollOnce)
  obtain ⟨d, hd, rfl⟩ := List.mem_map.mp ha
  exact .datagram false hd _ _ _

theorem address_agreement_pair :
    ∃ p, (polled true).engine.registry.get (ascii "node-a") = some p ∧
      p.announcement.host = ascii "127.0.0.1" ∧ p.announcement.port = 9501 := by
  have hsome : ((polled true).engine.registry.get (ascii "node-a")).isSome = true := by
    decide +kernel
  obtain ⟨p, hp⟩ := Option.isSome_iff_exists.mp hsome
  have hfit : ∀ i, (pairConfig i).SizesFit := fun i ↦ by
    cases i <;> (unfold DiscoveryConfig.SizesFit; decide)
  have hagree := address_agreement listing_lawful hfit (by decide)
    (fun i ↦ by cases i <;> exact ⟨rfl, rfl, rfl, rfl, rfl⟩) run_polled hp
  exact ⟨p, hp, hagree.2.2 false rfl⟩

end Nodes

end Network

end Discovery
