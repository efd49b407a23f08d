import Discovery.History
import Discovery.Replies

/-!
# Discovery is complete

Once whole announcements of all the others are pending at an engine, enough
polls make every one of them available, at its announced address and each once,
whatever else is pending, whatever arrives behind it, and whatever the engine and
the others do meanwhile.
-/

namespace Discovery

open Lib DiscoveryDecoder

namespace DiscoveryEngine

variable {T : Type} {deps : External T} {os : Os} {s : Runtime T} {c : DiscoveryConfig}
  {n : Bytes}

/-! ## Polls among other calls -/

/-- A move that takes nothing from the queue, and takes back nothing that was sent. -/
structure Aside (s s' : Runtime T) : Prop extends Idle s s' where
  inbox : s.world.inbox <+: s'.world.inbox
  outbox : s.world.outbox ⊆ s'.world.outbox

theorem environment_aside (later : List Arrival) (transport : T → T) (readings : ℕ)
    (s : Runtime T) : Aside s (environment (s.world.inbox ++ later) transport readings s) :=
  ⟨environment_idle _ _ _ s, List.prefix_append _ _, List.Subset.refl _⟩

theorem Quiet.aside {ser : Serializer} {P : DiscoveryMessage → Prop} (h : Quiet s s')
    (hsent : Sent ser P s.world s'.world) : Aside s s' := by
  obtain ⟨sent, houtbox, -⟩ := hsent
  exact ⟨h.idle, h.inbox ▸ List.prefix_rfl, houtbox ▸ List.subset_append_left _ _⟩

theorem nextReaction_of_head {arrival : Arrival} (h : arrival ∈ s.world.inbox.head?) :
    nextReaction deps c s =
      react deps.ser s.backend.config.maxDatagramSize c.nodeId arrival := by
  cases hinbox : s.world.inbox with
  | nil => simp [hinbox] at h
  | cons first rest =>
      obtain rfl : first = arrival := by simpa [hinbox] using h
      rw [nextReaction, hinbox]

/-- `Done` holds, or an arrival that `asks` is among the first `ahead` that are pending. -/
def Soon (asks : Arrival → Prop) (Done : Runtime T → Prop) (ahead : ℕ) (s : Runtime T) : Prop :=
  Done s ∨ ∃ a ∈ s.world.inbox.take ahead, asks a

/-- A poll that reads what `asks` brings `Done` about, and neither polls nor moves
aside undo it, as long as the engine runs and `Inv` holds, which they keep. -/
structure Brings (deps : External T) (os : Os) (c : DiscoveryConfig) (asks : Arrival → Prop)
    (Inv Done : Runtime T → Prop) : Prop where
  live : ∀ s, Inv s → Live s c
  poll : ∀ s, Inv s → Inv (pollOnce deps os s).2
  aside : ∀ s s', Inv s → Aside s s' → Inv s'
  read : ∀ s, Inv s → (∃ a ∈ s.world.inbox.head?, asks a) → Done (pollOnce deps os s).2
  keep : ∀ s, Inv s → Done s → Done (pollOnce deps os s).2
  stay : ∀ s s', Inv s → Aside s s' → Done s → Done s'

namespace Brings

variable {asks : Arrival → Prop} {Inv Done : Runtime T → Prop} {ahead : ℕ}

/-- Each poll shortens what is ahead. -/
theorem pollOnce (hb : Brings deps os c asks Inv Done) (hinv : Inv s)
    (h : Soon asks Done ahead s) :
    Soon asks Done (ahead - 1) (DiscoveryEngine.pollOnce deps os s).2 := by
  rcases h with hdone | ⟨a, ha, hasks⟩
  · exact .inl (hb.keep s hinv hdone)
  · cases ahead with
    | zero => simp at ha
    | succ ahead =>
        cases hinbox : s.world.inbox with
        | nil => simp [hinbox] at ha
        | cons first rest =>
            rw [hinbox, List.take_succ_cons] at ha
            rcases List.mem_cons.mp ha with rfl | hlater
            · exact .inl (hb.read s hinv ⟨a, by rw [hinbox]; rfl, hasks⟩)
            · refine .inr ⟨a, ?_, hasks⟩
              rw [(pollOnce_spec deps os (hb.live s hinv)).inbox, hinbox]
              exact hlater

theorem move (hb : Brings deps os c asks Inv Done) (hinv : Inv s) (haside : Aside s s')
    (h : Soon asks Done ahead s) : Inv s' ∧ Soon asks Done ahead s' := by
  refine ⟨hb.aside s s' hinv haside, ?_⟩
  rcases h with hdone | ⟨a, ha, hasks⟩
  · exact .inl (hb.stay s s' hinv haside hdone)
  · obtain ⟨later, hinbox⟩ := haside.inbox
    refine .inr ⟨a, ?_, hasks⟩
    rw [← hinbox, List.take_append]
    exact List.mem_append_left _ ha

/-- A call after which the engine still runs polls or moves aside. -/
theorem exec (hb : Brings deps os c asks Inv Done) (hinv : Inv s) (op : Op)
    (hrunning : isRunning (exec deps os op s) = true) (h : Soon asks Done ahead s) :
    Inv (exec deps os op s) ∧
      Soon asks Done (ahead - (op.entries deps os s).length) (exec deps os op s) := by
  have hlive := hb.live s hinv
  have hc := hlive.context
  have hP : Speaks deps.ser c fun _ ↦ True :=
    ⟨fun _ _ ↦ trivial, fun _ ↦ trivial, fun _ _ _ ↦ trivial⟩
  cases op with
  | start =>
      have hstatus := (Bool.and_eq_true_iff.mp hlive.isRunning).1
      have hsame : DiscoveryEngine.exec deps os .start s = s := by
        simp [DiscoveryEngine.exec, start, hstatus]
      rw [hsame]
      exact ⟨hinv, h⟩
  | stop => simp [DiscoveryEngine.exec, isRunning_stop] at hrunning
  | announceNow =>
      exact hb.move hinv ((announceNow_quiet deps os s).aside (announceNow_sent hP hc)) h
  | probeNow => exact hb.move hinv ((probeNow_quiet deps os s).aside (probeNow_sent hP hc)) h
  | pollOnce => exact ⟨hb.poll s hinv, hb.pollOnce hinv h⟩
  | pollMany maxMessages =>
      refine pollManyEntries_induction (l := []) (P := fun entries t ↦
        Inv t ∧ Soon asks Done (ahead - entries.length) t) ?_ maxMessages ⟨hinv, h⟩
      rintro entries t ⟨ht, hsoon⟩
      rw [List.length_append, List.length_singleton, ← Nat.sub_sub]
      exact ⟨hb.poll t ht, hb.pollOnce ht hsoon⟩

end Brings

/-! ## Fresh nodes -/

/-- An arrival that makes the engine accept an announcement of `n` is pending. -/
def Awaits (deps : External T) (c : DiscoveryConfig) (n : Bytes) (s : Runtime T) : Prop :=
  ∃ arrival ∈ s.world.inbox, ∃ a,
    react deps.ser s.backend.config.maxDatagramSize c.nodeId arrival = .accept a ∧ a.nodeId = n

/-- The engine runs and lists what it heard, and the clock stands at `start` or
later. -/
structure Attending (os : Os) (c : DiscoveryConfig) (start maxSize : ℕ) (s : Runtime T) : Prop where
  live : Live s c
  registered : Registered os c s
  start : start ≤ s.world.ticks
  maxSize : s.backend.config.maxDatagramSize = maxSize

/-- A node is fresh as long as less than half the TTL has passed since `start`. -/
def FreshInTime (os : Os) (c : DiscoveryConfig) (start : ℕ) (n : Bytes) (s : Runtime T) : Prop :=
  (os.clock s.world.ticks).millis.toInt - (os.clock start).millis.toInt <
    c.peerTtl.millis.toInt / 2 → Fresh os start n s

theorem brings_fresh (hclock : os.ClockPositive) (hmono : os.ClockMonotone) (start maxSize : ℕ)
    (n : Bytes) : Brings deps os c (fun arrival ↦ ∃ a,
      react deps.ser maxSize c.nodeId arrival = .accept a ∧ a.nodeId = n)
        (Attending os c start maxSize) (FreshInTime os c start n) where
  live s hs := hs.live
  poll s hs := by
    have hkept := (pollOnce_spec deps os hs.live).kept
    exact ⟨hs.live.of_kept hkept, hs.registered.of_heard (pollOnce_heard hs.live),
      hs.start.trans hkept.ticks, by rw [hkept.backend, hs.maxSize]⟩
  aside s s' hs haside :=
    ⟨hs.live.of_kept haside.toKept, hs.registered.of_idle haside.toIdle,
      hs.start.trans haside.ticks, by rw [haside.backend, hs.maxSize]⟩
  read s hs hask _ := by
    obtain ⟨arrival, hmem, a, hr, hid⟩ := hask
    refine Accepts.fresh os hs.live hs.start ⟨a, ?_, hid⟩
    rw [nextReaction_of_head hmem, hs.maxSize, hr]
  keep s hs hfresh hquick := by
    have hticks := hmono _ _ (pollOnce_spec deps os hs.live).kept.ticks
    exact (hfresh (by omega)).pollOnce hclock hmono hs.live hs.registered hs.start hquick
  stay s s' hs haside hfresh hquick := by
    have hticks := hmono _ _ haside.ticks
    obtain ⟨p, hp, hp'⟩ := hfresh (by omega)
    exact ⟨p, by rw [haside.registry, hp], hp'⟩

end DiscoveryEngine

/-! ## Convergence of the network -/

namespace Network

open DiscoveryEngine

variable {ι T : Type} {deps : External T} {os : ι → Os} {configs : ι → DiscoveryConfig}
  {N₀ N N' N'' : Network ι T} {i j : ι}

/-- A whole announcement or reply that `j` sent is pending at `i`, from a
well-formed source. -/
def Heralded (ser : Serializer) (N : Network ι T) (i j : ι) : Prop :=
  ∃ d ∈ (N j).world.outbox, ∃ m a host port, decodeMessage ser d.payload = some m ∧
    m.type ≠ .probe ∧ decodeAnnouncement ser m.payload = some a ∧ host ≠ [] ∧ port ≠ 0 ∧
    d.payload.length ≤ (N i).backend.config.maxDatagramSize ∧
    .datagram host port d.payload ∈ (N i).world.inbox

theorem Heralded.awaits (hser : deps.ser.Lawful) (hfit : ∀ k, (configs k).SizesFit)
    (h : Invariant deps.ser configs N) (hne : (configs j).nodeId ≠ (configs i).nodeId)
    (hheralded : Heralded deps.ser N i j) : Awaits deps (configs i) (configs j).nodeId (N i) := by
  obtain ⟨d, hd, m, a, host, port, hdecode, htype, ha, hhost, hport, hsize, hmem⟩ := hheralded
  obtain ⟨m', hm', hvalid, hpayload⟩ := (h j).outbox d hd
  have hwhole := (MessageCodec.decode_encode_iff_fits hser hvalid).mpr hm'.fits
  rw [hpayload, hwhole, Option.some.injEq] at hdecode
  subst hdecode
  obtain ⟨now, rfl⟩ := hm'.decodeAnnouncement_eq hser (hfit j) ha
  have hkind := (DiscoveryMessageType.isValid_iff _).mp
    ((DiscoveryMessage.isValid_iff m').mp hvalid).1
  refine ⟨_, hmem, localAnnouncement (configs j) now, ?_, rfl⟩
  rw [react_eq_accept_iff, List.take_of_length_le hsize, hpayload]
  exact ⟨⟨hhost, hport⟩, ⟨m', hwhole, hvalid, by rwa [hm'.fromNodeId], by tauto, ha⟩,
    AnnouncementCodec.isValid_of_decodeAnnouncement ha, hne⟩

variable [DecidableEq ι]

/-- Engine `i` takes any calls after which it still runs, while datagrams come in
behind those that are pending, and the others and the network elsewhere take any
steps.  The number is that of its `poll_once` calls, those of `poll_many` included. -/
inductive Polling (deps : External T) (os : ι → Os) (i : ι) (N : Network ι T) :
    ℕ → Network ι T → Prop where
  | refl : Polling deps os i N 0 N
  | call {polls : ℕ} {N' : Network ι T} (h : Polling deps os i N polls N') (op : Op)
      (hrunning : isRunning (exec deps (os i) op (N' i)) = true) :
      Polling deps os i N (polls + (op.entries deps (os i) (N' i)).length)
        (Function.update N' i (exec deps (os i) op (N' i)))
  | deliver {polls : ℕ} {N' : Network ι T} (h : Polling deps os i N polls N')
      (later : List Arrival) (transport : T → T) (readings : ℕ)
      (hflight : ∀ a ∈ later, InFlight N' a) :
      Polling deps os i N polls (Function.update N' i
        (environment ((N' i).world.inbox ++ later) transport readings (N' i)))
  | other {polls : ℕ} {N' N'' : Network ι T} (h : Polling deps os i N polls N')
      (hstep : Step deps os N' N'') (hsame : N'' i = N' i) : Polling deps os i N polls N''

theorem Polling.run (hser : deps.ser.Lawful) (hfit : ∀ k, (configs k).SizesFit)
    (hinitial : Initial configs N₀) (hrun : Relation.ReflTransGen (Step deps os) N₀ N) {polls : ℕ}
    (h : Polling deps os i N polls N') : Relation.ReflTransGen (Step deps os) N N' := by
  induction h with
  | refl => exact .refl
  | call _ op _ ih => exact ih.tail (.exec i op)
  | deliver _ later transport readings hflight ih =>
      have hpending := (asked_of_run hser hfit hinitial (hrun.trans ih) i).pending
      exact ih.tail (.deliver i _ transport readings fun a ha ↦
        (List.mem_append.mp ha).elim (hpending a) (hflight a))
  | other _ hstep _ ih => exact ih.tail hstep

/-- As many polls as there are arrivals read what is pending among them. -/
theorem Polling.done {polls : ℕ} {c : DiscoveryConfig} {asks : Arrival → Prop}
    {Inv Done : Runtime T → Prop} (hb : Brings deps (os i) c asks Inv Done)
    (h : Polling deps os i N polls N') (hpolls : (N i).world.inbox.length ≤ polls)
    (hinv : Inv (N i)) (hpending : ∃ a ∈ (N i).world.inbox, asks a) : Done (N' i) := by
  suffices hsoon : Inv (N' i) ∧
      Soon asks Done ((N i).world.inbox.length - polls) (N' i) by
    obtain ⟨-, hdone | ⟨a, ha, -⟩⟩ := hsoon
    · exact hdone
    · simp [Nat.sub_eq_zero_of_le hpolls] at ha
  clear hpolls
  induction h with
  | refl => exact ⟨hinv, .inr (by rwa [Nat.sub_zero, List.take_length])⟩
  | call _ op hrunning ih =>
      rw [Function.update_self, ← Nat.sub_sub]
      exact hb.exec ih.1 op hrunning ih.2
  | deliver _ later transport readings _ ih =>
      rw [Function.update_self]
      exact hb.move ih.1 (environment_aside later transport readings _) ih.2
  | other _ _ hsame ih => rwa [hsame]

theorem registered_of_run (hser : deps.ser.Lawful) (hfit : ∀ k, (configs k).SizesFit)
    (hinitial : Initial configs N) (hrun : Relation.ReflTransGen (Step deps os) N N') (i : ι) :
    Registered (os i) (configs i) (N' i) := by
  induction hrun with
  | refl =>
      obtain ⟨hengine, -⟩ := hinitial i
      constructor <;> simp [hengine, DiscoveryRegistry.KeysMatch]
  | tail hearlier hstep ih =>
      have hholds := invariant_of_run hser hfit hinitial hearlier
      cases hstep with
      | exec k op =>
          by_cases hk : i = k
          · subst hk
            rw [Function.update_self]
            exact ih.of_heard (exec_heard deps (os i) (hholds i).sound (hholds i).config op)
          · rwa [Function.update_of_ne hk]
      | deliver k inbox transport readings hflight =>
          by_cases hk : i = k
          · subst hk
            rw [Function.update_self]
            exact ih.of_idle (environment_idle inbox transport readings _)
          · rwa [Function.update_of_ne hk]

/-- The peers are the engines other than `i`, each once and at the address that it
announces. -/
structure ListsOthers (configs : ι → DiscoveryConfig) (i : ι) (peers : List DiscoveredPeer) :
    Prop where
  ids : ∀ n, n ∈ peers.map DiscoveredPeer.nodeId ↔ ∃ j, j ≠ i ∧ n = (configs j).nodeId
  nodup : (peers.map DiscoveredPeer.nodeId).Nodup
  addresses : ∀ p ∈ peers, ∀ j, p.nodeId = (configs j).nodeId →
    p.announcement.host = (configs j).announceHost ∧
      p.announcement.port = (configs j).announcePort

/-- A registry of a run lists no others than these, and it lists them all if each
has a fresh entry. -/
theorem listsOthers_of_fresh (hser : deps.ser.Lawful) (hfit : ∀ k, (configs k).SizesFit)
    (hdistinct : ∀ i j, (configs i).nodeId = (configs j).nodeId → i = j)
    (hinitial : Initial configs N) (hrun : Relation.ReflTransGen (Step deps os) N N') {start : ℕ}
    (hfresh : ∀ j, j ≠ i → Fresh (os i) start (configs j).nodeId (N' i)) (order : PeerOrder) :
    ListsOthers configs i ((N' i).engine.registry.availablePeers order) := by
  have hkeys := (registered_of_run hser hfit hinitial hrun i).keys
  have hentry := (invariant_of_run hser hfit hinitial hrun i).entry
  have hlisted {p : DiscoveredPeer} (hp : p ∈ (N' i).engine.registry.availablePeers order) :
      Agrees configs i p.nodeId p := by
    obtain ⟨-, n, hn⟩ := (DiscoveryRegistry.mem_availablePeers order p).mp hp
    exact (hkeys n p hn).symm ▸ hentry n p hn
  refine ⟨fun n ↦ ⟨fun hn ↦ ?_, ?_⟩, DiscoveryRegistry.nodup_availablePeers hkeys order,
    fun p hp j hj ↦ ?_⟩
  · obtain ⟨p, hp, rfl⟩ := List.mem_map.mp hn
    obtain ⟨j, hji, hnj, -⟩ := hlisted hp
    exact ⟨j, hji, hnj⟩
  · rintro ⟨j, hji, rfl⟩
    obtain ⟨p, hp, hstate, -⟩ := hfresh j hji
    refine List.mem_map.mpr ⟨p, (DiscoveryRegistry.mem_availablePeers order p).mpr
      ⟨?_, _, hp⟩, hkeys _ p hp⟩
    rw [DiscoveredPeer.available, hstate]
    rfl
  · obtain ⟨k, -, hnk, hhost, hport⟩ := hlisted hp
    obtain rfl := hdistinct j k (hj.symm.trans hnk)
    exact ⟨hhost, hport⟩

/-- Polling a queue empty within half the TTL refreshes whoever is heralded in it. -/
theorem fresh_of_heralded (hser : deps.ser.Lawful) (hfit : ∀ k, (configs k).SizesFit)
    (hdistinct : ∀ i j, (configs i).nodeId = (configs j).nodeId → i = j)
    (hinitial : Initial configs N) (hrun : Relation.ReflTransGen (Step deps os) N N')
    (hclock : (os i).ClockPositive) (hmono : (os i).ClockMonotone)
    (hrunning : isRunning (N' i) = true) (hji : j ≠ i) (hheralded : Heralded deps.ser N' i j)
    {polls : ℕ} (hpolls : (N' i).world.inbox.length ≤ polls)
    (hpolling : Polling deps os i N' polls N'')
    (hquick : ((os i).clock (N'' i).world.ticks).millis.toInt -
      ((os i).clock (N' i).world.ticks).millis.toInt < (configs i).peerTtl.millis.toInt / 2) :
    Fresh (os i) (N' i).world.ticks (configs j).nodeId (N'' i) := by
  have hholds := invariant_of_run hser hfit hinitial hrun
  have hlive : Live (N' i) (configs i) := (hholds i).sound.live hrunning (hholds i).config
  have hreg := registered_of_run hser hfit hinitial hrun i
  have hawaits := hheralded.awaits hser hfit hholds fun h ↦ hji (hdistinct j i h)
  exact hpolling.done (brings_fresh hclock hmono _ _ _) hpolls ⟨hlive, hreg, le_rfl, rfl⟩ hawaits
    hquick

/-- Whatever the interleaving, an engine at which all the others are heralded,
and which polls as often as it has arrivals within half the TTL, lists exactly
the others, each once and at the address it announces. -/
theorem discovery_complete (hser : deps.ser.Lawful) (hfit : ∀ k, (configs k).SizesFit)
    (hdistinct : ∀ i j, (configs i).nodeId = (configs j).nodeId → i = j)
    (hinitial : Initial configs N) (hrun : Relation.ReflTransGen (Step deps os) N N')
    (hclock : (os i).ClockPositive) (hmono : (os i).ClockMonotone)
    (hrunning : isRunning (N' i) = true) (hheralded : ∀ j, j ≠ i → Heralded deps.ser N' i j)
    {polls : ℕ} (hpolls : (N' i).world.inbox.length ≤ polls)
    (hpolling : Polling deps os i N' polls N'')
    (hquick : ((os i).clock (N'' i).world.ticks).millis.toInt -
      ((os i).clock (N' i).world.ticks).millis.toInt < (configs i).peerTtl.millis.toInt / 2)
    (order : PeerOrder) :
    ListsOthers configs i ((N'' i).engine.registry.availablePeers order) :=
  listsOthers_of_fresh hser hfit hdistinct hinitial
    (hrun.trans (hpolling.run hser hfit hinitial hrun))
    (fun j hji ↦ fresh_of_heralded hser hfit hdistinct hinitial hrun hclock hmono hrunning hji
      (hheralded j hji) hpolls hpolling hquick) order

section Nodes

open Simulation

def quickExec (N : Network Bool (List PeerInfo)) (i : Bool) (op : Op) :
    Network Bool (List PeerInfo) :=
  Function.update N i (exec listing (system (ticking 1)) op (N i))

def quickAnnouncing : Network Bool (List PeerInfo) :=
  quickExec (quickExec pair false .start) false .announceNow

def quickDelivering : Network Bool (List PeerInfo) :=
  let N := quickExec quickAnnouncing true .start
  Function.update N true (environment ((N false).world.outbox.map fun d ↦
    .datagram (ascii "127.0.0.1") 9500 (d.payload.take 65536)) id 0 (N true))

theorem run_quickDelivering :
    Relation.ReflTransGen (Step listing fun _ ↦ system (ticking 1)) pair quickDelivering := by
  refine .tail (.tail (.tail (.tail .refl (.exec false .start)) (.exec false .announceNow))
    (.exec true .start)) (.deliver true _ id 0 fun a ha ↦ ?_)
  obtain ⟨d, hd, rfl⟩ := List.mem_map.mp ha
  exact .datagram false hd _ _ _

theorem heralded_quickDelivering : Heralded .littleEndian quickDelivering true false := by
  let c := Simulation.config "node-a" 9500
  let m := announceMessage .littleEndian c ⟨1⟩ ⟨2⟩
  refine ⟨⟨c.broadcastHost, c.broadcastPort, DiscoveryEncoder.encodeMessage .littleEndian m⟩, ?_, m,
    localAnnouncement c ⟨1⟩, ascii "127.0.0.1", 9500, ?_, ?_, ?_, ?_, ?_, ?_, ?_⟩
  all_goals decide +kernel

/-- `node-b` announces itself and a failure comes in behind the announcement of
`node-a`, before it polls. -/
def quickBusy : Network Bool (List PeerInfo) :=
  let N := quickExec quickDelivering true .announceNow
  Function.update N true (environment ((N true).world.inbox ++ [.failure]) id 1 (N true))

theorem polling_quickBusy : Polling listing (fun _ ↦ system (ticking 1)) true quickDelivering 2
    (quickExec quickBusy true (.pollMany 2)) := by
  have hannounced : Polling listing (fun _ ↦ system (ticking 1)) true quickDelivering 0
      (quickExec quickDelivering true .announceNow) :=
    .call .refl .announceNow (by decide +kernel)
  refine .call (hannounced.deliver [.failure] id 1 fun a ha ↦ ?_) (.pollMany 2) (by decide +kernel)
  obtain rfl := List.mem_singleton.mp ha
  exact .failure

theorem discovery_complete_pair :
    ascii "node-a" ∈ ((quickExec quickBusy true (.pollMany 2) true).engine.registry.availablePeers
      .inOrder).map DiscoveredPeer.nodeId := by
  have hfit : ∀ i, (pairConfig i).SizesFit := fun i ↦ by
    cases i <;> (unfold DiscoveryConfig.SizesFit; decide)
  have hcomplete := discovery_complete listing_lawful hfit (by decide)
    (fun i ↦ by cases i <;> exact ⟨rfl, rfl, rfl, rfl, rfl⟩) run_quickDelivering
    (clockPositive_ticking (by decide)) (clockMonotone_ticking 1) (by decide +kernel) (fun j hj ↦ by
      obtain rfl : j = false := by simpa using hj
      exact heralded_quickDelivering) (by decide +kernel) polling_quickBusy (by decide +kernel)
    .inOrder
  exact (hcomplete.ids _).mpr ⟨false, by decide, rfl⟩

end Nodes

end Network

end Discovery
