import Discovery.Convergence

/-!
# Discovery by a probe

A probe that reaches all the others brings their replies about, if they poll
their queues empty, and the replies make the prober list them all.
-/

namespace Discovery

open DiscoveryEncoder DiscoveryDecoder

namespace DiscoveryEngine

variable {T : Type} {deps : External T} {os : Os} {s : Runtime T} {c : DiscoveryConfig}
  {r : ReplyHeader}

/-! ## Answering a queue of probes -/

/-- An arrival that asks for the reply `r` is pending. -/
def Wanted (ser : Serializer) (c : DiscoveryConfig) (r : ReplyHeader) (s : Runtime T) : Prop :=
  ∃ arrival ∈ s.world.inbox,
    requestOf ser s.backend.config.maxDatagramSize c.nodeId arrival = some r

/-- The reply `r` was sent, with an announcement of the engine itself. -/
def Replied (ser : Serializer) (c : DiscoveryConfig) (r : ReplyHeader) (s : Runtime T) : Prop :=
  ∃ d ∈ s.world.outbox, replyOf ser d = some r ∧ ∃ m now,
    decodeMessage ser d.payload = some m ∧ m.type = .reply ∧
      decodeAnnouncement ser m.payload = some (localAnnouncement c now)

theorem react_of_requestOf {ser : Serializer} {maxSize : ℕ} {localId : Bytes} {arrival : Arrival}
    (h : requestOf ser maxSize localId arrival = some r) : ∃ m host port,
      react ser maxSize localId arrival = .answer m host port ∧
        r = ⟨host, port, m.fromNodeId, m.correlationId⟩ := by
  unfold requestOf at h
  split at h
  next m host port hreact => exact ⟨m, host, port, hreact, (Option.some.inj h).symm⟩
  next => cases h

/-- Reading a request brings the reply about. -/
theorem brings_replied (hser : deps.ser.Lawful) (hfit : c.SizesFit) (hclock : os.ClockPositive)
    (hsends : os.SendsSucceed) (hpton : os.inetPton r.host = true) (maxSize : ℕ) :
    Brings deps os c (fun arrival ↦ requestOf deps.ser maxSize c.nodeId arrival = some r)
      (fun s ↦ Live s c ∧ s.backend.config.maxDatagramSize = maxSize)
      (Replied deps.ser c r) where
  live s hs := hs.1
  poll s hs := by
    have hkept := (pollOnce_spec deps os hs.1).kept
    exact ⟨hs.1.of_kept hkept, by rw [hkept.backend, hs.2]⟩
  aside s s' hs haside := ⟨hs.1.of_kept haside.toKept, by rw [haside.backend, hs.2]⟩
  read s hs hask := by
    obtain ⟨arrival, hmem, hrequest⟩ := hask
    obtain ⟨m, host, port, hreact, rfl⟩ := react_of_requestOf hrequest
    have hanswered := answered_of_react hreact
    have hread : nextReaction deps c s = .answer m host port := by
      rw [nextReaction_of_head hmem, hs.2, hreact]
    obtain ⟨-, -, houtbox⟩ := pollOnce_answer hser hs.1 hclock hsends hanswered.host
      hanswered.port hpton hread
    have hfits := (authored_replyMessage hser hfit (hanswered.fits hser)
      (os.clock ((timeDriven deps os s).world.ticks + 2))).fits
    have hvalid := isValid_of_sender (m := replyMessage deps.ser c m.fromNodeId m.correlationId
      (os.clock ((timeDriven deps os s).world.ticks + 2))) hs.1.valid rfl rfl
    exact ⟨_, by rw [houtbox]; exact List.mem_append_right _ (List.mem_singleton_self _),
      (replyOf_encode hser hfits hvalid host port).trans (if_pos rfl), _, _,
      (MessageCodec.decode_encode_iff_fits hser hvalid).mpr hfits, rfl,
      decodeAnnouncement_localPayload hser hfit (localAnnouncement_isValid hs.1.valid (hclock _))⟩
  keep s hs hreplied := by
    obtain ⟨d, hd, hreply⟩ := hreplied
    obtain ⟨sent, htalk⟩ := pollOnce_talks os hser hfit hs.1.context fun _ ↦ hs.1
    refine ⟨d, ?_, hreply⟩
    rw [htalk.outbox]
    exact List.mem_append_left _ hd
  stay s s' _ haside hreplied := by
    obtain ⟨d, hd, hreply⟩ := hreplied
    exact ⟨d, haside.outbox hd, hreply⟩

end DiscoveryEngine

/-! ## A probe in the network -/

namespace Network

open DiscoveryEngine

variable {ι T : Type} {deps : External T} {os : ι → Os} {configs : ι → DiscoveryConfig}
  {N N₀ N₁ N₂ N₃ : Network ι T} {i j : ι} {d : Datagram} {m : DiscoveryMessage}

/-- `d` is pending whole, from a well-formed source. -/
structure PendingFrom (host : Bytes) (port : UInt16) (d : Datagram) (s : Runtime T) : Prop where
  source : host ≠ [] ∧ port ≠ 0
  size : d.payload.length ≤ s.backend.config.maxDatagramSize
  mem : .datagram host port d.payload ∈ s.world.inbox

theorem wanted_of_pending (hser : deps.ser.Lawful) (h : Invariant deps.ser configs N)
    (hd : d ∈ (N i).world.outbox) (hm : decodeMessage deps.ser d.payload = some m)
    (hprobe : m.type = .probe) (hne : (configs i).nodeId ≠ (configs j).nodeId) {host : Bytes}
    {port : UInt16} (hpending : PendingFrom host port d (N j)) :
    Wanted deps.ser (configs j) ⟨host, port, (configs i).nodeId, m.correlationId⟩ (N j) := by
  obtain ⟨m', hm', hvalid, hpayload⟩ := (h i).outbox d hd
  have hwhole := (MessageCodec.decode_encode_iff_fits hser hvalid).mpr hm'.fits
  have heq := hm
  rw [hpayload, hwhole, Option.some.injEq] at heq
  subst heq
  have hreact : react deps.ser (N j).backend.config.maxDatagramSize (configs j).nodeId
      (.datagram host port d.payload) = .answer m' host port := by
    rw [react_eq_answer_iff, List.take_of_length_le hpending.size]
    exact ⟨⟨hpending.source, hm, hvalid, by rwa [hm'.fromNodeId], hprobe⟩, rfl, rfl⟩
  refine ⟨_, hpending.mem, ?_⟩
  rw [requestOf, hreact, ← hm'.fromNodeId]

theorem heralded_of_replied {r : ReplyHeader} (hreplied : Replied deps.ser (configs j) r (N₁ j))
    (hsubset : (N₁ j).world.outbox ⊆ (N₂ j).world.outbox)
    (hreturned : ∀ d ∈ (N₁ j).world.outbox, replyOf deps.ser d = some r →
      ∃ host port, PendingFrom host port d (N₂ i)) : Heralded deps.ser N₂ i j := by
  obtain ⟨d, hd, hreply, m, now, hm, htype, ha⟩ := hreplied
  obtain ⟨host, port, hpending⟩ := hreturned d hd hreply
  exact ⟨d, hsubset hd, m, _, host, port, hm, by simp [htype], ha, hpending.source.1,
    hpending.source.2, hpending.size, hpending.mem⟩

variable [DecidableEq ι]

/-- An engine that polls as often as it has arrivals answers a probe among them. -/
theorem replied_of_polling (hser : deps.ser.Lawful) (hfit : ∀ k, (configs k).SizesFit)
    (hclock : (os j).ClockPositive) (hsends : (os j).SendsSucceed)
    (h : Invariant deps.ser configs N₀) (hrunning : isRunning (N₀ j) = true)
    (hd : d ∈ (N₀ i).world.outbox) (hm : decodeMessage deps.ser d.payload = some m)
    (hprobe : m.type = .probe) (hne : (configs i).nodeId ≠ (configs j).nodeId) {host : Bytes}
    {port : UInt16} (hpending : PendingFrom host port d (N₀ j))
    (hpton : (os j).inetPton host = true) {polls : ℕ}
    (hpolls : (N₀ j).world.inbox.length ≤ polls) (hpolling : Polling deps os j N₀ polls N₁) :
    Replied deps.ser (configs j) ⟨host, port, (configs i).nodeId, m.correlationId⟩ (N₁ j) := by
  have hlive : Live (N₀ j) (configs j) := (h j).sound.live hrunning (h j).config
  have hwanted := wanted_of_pending hser h hd hm hprobe hne hpending
  exact hpolling.done (brings_replied hser (hfit j) hclock hsends hpton _) hpolls ⟨hlive, rfl⟩
    hwanted

/-- A probe of an engine that reaches all the others makes it list exactly these,
each once and at the address it announces, if they and then the engine itself
poll their queues empty and the replies come back. -/
theorem probing_discovers (hser : deps.ser.Lawful) (hfit : ∀ k, (configs k).SizesFit)
    (hdistinct : ∀ i j, (configs i).nodeId = (configs j).nodeId → i = j)
    (hclock : ∀ k, (os k).ClockPositive) (hmono : ∀ k, (os k).ClockMonotone)
    (hsends : ∀ k, (os k).SendsSucceed) (hinitial : Initial configs N)
    (hrun₀ : Relation.ReflTransGen (Step deps os) N N₀) (hd : d ∈ (N₀ i).world.outbox)
    (hm : decodeMessage deps.ser d.payload = some m) (hprobe : m.type = .probe)
    (source : ι → Bytes × UInt16)
    (hreached : ∀ j, j ≠ i → isRunning (N₀ j) = true ∧ (os j).inetPton (source j).1 = true ∧
      PendingFrom (source j).1 (source j).2 d (N₀ j))
    (hrun₁ : Relation.ReflTransGen (Step deps os) N₀ N₁)
    (hpolled : ∀ j, j ≠ i → ∃ polls, (N₀ j).world.inbox.length ≤ polls ∧
      Polling deps os j N₀ polls N₁)
    (hrun₂ : Relation.ReflTransGen (Step deps os) N₁ N₂)
    (hreturned : ∀ j, j ≠ i → ∀ d ∈ (N₁ j).world.outbox, replyOf deps.ser d =
      some ⟨(source j).1, (source j).2, (configs i).nodeId, m.correlationId⟩ →
        ∃ host port, PendingFrom host port d (N₂ i))
    (hrunning : isRunning (N₂ i) = true) {polls : ℕ}
    (hpolls : (N₂ i).world.inbox.length ≤ polls) (hpolling : Polling deps os i N₂ polls N₃)
    (hquick : ((os i).clock (N₃ i).world.ticks).millis.toInt -
      ((os i).clock (N₂ i).world.ticks).millis.toInt < (configs i).peerTtl.millis.toInt / 2)
    (order : PeerOrder) :
    ListsOthers configs i ((N₃ i).engine.registry.availablePeers order) := by
  have hheralded (j : ι) (hj : j ≠ i) : Heralded deps.ser N₂ i j := by
    obtain ⟨hup, hpton, hpending⟩ := hreached j hj
    obtain ⟨k, hk, hpolls⟩ := hpolled j hj
    have hreplied := replied_of_polling hser hfit (hclock j) (hsends j)
      (invariant_of_run hser hfit hinitial hrun₀) hup hd hm hprobe
      (fun h ↦ hj (hdistinct i j h).symm) hpending hpton hk hpolls
    exact heralded_of_replied hreplied
      (outbox_subset_of_run hser hfit hinitial (hrun₀.trans hrun₁) hrun₂ j) (hreturned j hj)
  have hrun := (hrun₀.trans hrun₁).trans hrun₂
  exact listsOthers_of_fresh hser hfit hdistinct hinitial
    (hrun.trans (hpolling.run hser hfit hinitial hrun))
    (fun j hj ↦ fresh_of_heralded hser hfit hdistinct hinitial hrun (hclock i) (hmono i) hrunning
      hj (hheralded j hj) hpolls hpolling hquick) order

section Nodes

open Simulation

/-- All that `i` has sent arrives at `j`. -/
def carry (N : Network Bool (List PeerInfo)) (i j : Bool) (port : UInt16) :
    Network Bool (List PeerInfo) :=
  Function.update N j (environment ((N i).world.outbox.map fun d ↦
    .datagram (ascii "127.0.0.1") port d.payload) id 0 (N j))

theorem step_carry (N : Network Bool (List PeerInfo)) (i j : Bool) (port : UInt16) :
    Step listing (fun _ ↦ system (ticking 1)) N (carry N i j port) := by
  refine .deliver j _ id 0 fun a ha ↦ ?_
  obtain ⟨d, hd, rfl⟩ := List.mem_map.mp ha
  have hwhole := InFlight.datagram i hd (ascii "127.0.0.1") port d.payload.length
  rwa [List.take_length] at hwhole

theorem pendingFrom_carry {N : Network Bool (List PeerInfo)} {i j : Bool} {port : UInt16}
    {d : Datagram} (hd : d ∈ (N i).world.outbox) (hport : port ≠ 0)
    (hsize : d.payload.length ≤ (N j).backend.config.maxDatagramSize) :
    PendingFrom (ascii "127.0.0.1") port d (carry N i j port j) := by
  rw [carry, Function.update_self]
  exact ⟨⟨by decide, hport⟩, hsize, List.mem_map.mpr ⟨d, hd, rfl⟩⟩

def probed : Network Bool (List PeerInfo) :=
  carry (quickExec (quickExec (quickExec pair false .start) true .start) false .probeNow)
    false true 9500

def answering : Network Bool (List PeerInfo) := quickExec probed true .pollOnce

def returned : Network Bool (List PeerInfo) := carry answering true false 9400

theorem run_probed : Relation.ReflTransGen (Step listing fun _ ↦ system (ticking 1)) pair probed :=
  .tail (.tail (.tail (.tail .refl (.exec false .start)) (.exec true .start))
    (.exec false .probeNow)) (step_carry _ false true 9500)

/-- `node-b` answers a probe of `node-a`, which reads its announcement and its reply. -/
theorem probing_discovers_pair :
    ascii "node-b" ∈ ((quickExec (quickExec returned false .pollOnce) false .pollOnce
      false).engine.registry.availablePeers .inOrder).map DiscoveredPeer.nodeId := by
  let c := Simulation.config "node-a" 9500
  let d : Datagram := ⟨c.broadcastHost, c.broadcastPort,
    encodeMessage .littleEndian (probeMessage c ⟨1⟩)⟩
  have hd : d ∈ (probed false).world.outbox := by decide +kernel
  have hfit : ∀ i, (pairConfig i).SizesFit := fun i ↦ by
    cases i <;> (unfold DiscoveryConfig.SizesFit; decide)
  have hreached : ∀ j, j ≠ false → isRunning (probed j) = true ∧
      (system (ticking 1)).inetPton (ascii "127.0.0.1") = true ∧
        PendingFrom (ascii "127.0.0.1") 9500 d (probed j) := by
    intro j hj
    obtain rfl : j = true := by simpa using hj
    exact ⟨by decide +kernel, rfl, pendingFrom_carry (by decide +kernel) (by decide)
      (by decide +kernel)⟩
  have hpolled : ∀ j, j ≠ false → ∃ polls, (probed j).world.inbox.length ≤ polls ∧
      Polling listing (fun _ ↦ system (ticking 1)) j probed polls answering := by
    intro j hj
    obtain rfl : j = true := by simpa using hj
    exact ⟨1, by decide +kernel, .call .refl .pollOnce (by decide +kernel)⟩
  have hsizes : ∀ d ∈ (answering true).world.outbox, d.payload.length ≤ 65536 := by
    decide +kernel
  have hreturned : ∀ j, j ≠ false → ∀ d ∈ (answering j).world.outbox, replyOf .littleEndian d =
      some ⟨ascii "127.0.0.1", 9500, (pairConfig false).nodeId,
        (probeMessage c ⟨1⟩).correlationId⟩ →
          ∃ host port, PendingFrom host port d (returned false) := by
    intro j hj d hd _
    obtain rfl : j = true := by simpa using hj
    exact ⟨_, _, pendingFrom_carry hd (by decide) (hsizes d hd)⟩
  have hpolling : Polling listing (fun _ ↦ system (ticking 1)) false returned 2
      (quickExec (quickExec returned false .pollOnce) false .pollOnce) :=
    .call (.call .refl .pollOnce (by decide +kernel)) .pollOnce (by decide +kernel)
  have hdiscovers := probing_discovers listing_lawful hfit (by decide)
    (fun _ ↦ clockPositive_ticking (by decide)) (fun _ ↦ clockMonotone_ticking 1)
    (fun _ ↦ sendsSucceed_system _)
    (fun i ↦ by cases i <;> exact ⟨rfl, rfl, rfl, rfl, rfl⟩) run_probed hd
    (m := probeMessage c ⟨1⟩) (by decide +kernel) rfl (fun _ ↦ (ascii "127.0.0.1", 9500)) hreached
    (.tail .refl (.exec true .pollOnce)) hpolled (.tail .refl (step_carry _ true false 9400))
    hreturned (by decide +kernel) (by decide +kernel) hpolling (by decide +kernel) .inOrder
  exact (hdiscovers.ids _).mpr ⟨true, by decide, rfl⟩

end Nodes

end Network

end Discovery
