import Discovery.Exchange

/-!
# Two stores of addresses

The registry overwrites the address of a node with each announcement.  The
transport engine is told an address once: the engine does not connect to a node
that the transport contains already.
-/

namespace Discovery

open DiscoveryEncoder DiscoveryDecoder

namespace DiscoveryEngine

variable {T : Type} {deps : External T} {os : Os} {s : Runtime T} {c : DiscoveryConfig}
  {recorded : T → Bytes → Option PeerInfo} {t₀ : T} {l : List DiscoveryAnnouncement}

def infoOf (a : DiscoveryAnnouncement) : PeerInfo := ⟨a.nodeId, a.host, a.port⟩

/-- A transport engine that starts empty, stays running, and records under its
node id each peer that it is told to connect.  `recorded` reads its records. -/
structure Recording (deps : External T) (recorded : T → Bytes → Option PeerInfo) (t₀ : T) :
    Prop where
  running : deps.transportIsRunning t₀ = true
  keepsRunning : ∀ t info, deps.transportIsRunning t = true →
    deps.transportIsRunning (deps.connectPeer t info) = true
  empty : ∀ n, recorded t₀ n = none
  contains : ∀ t n, deps.transportContains t n = (recorded t n).isSome
  connect : ∀ t info n, recorded (deps.connectPeer t info) n =
    if n = info.nodeId then some info else recorded t n

/-! ## Runs -/

/-- The announcement that the next poll accepts, if any. -/
def nextAccepted (deps : External T) (c : DiscoveryConfig) (s : Runtime T) :
    List DiscoveryAnnouncement :=
  if isRunning s then
    match nextReaction deps c s with
    | .accept a => [a]
    | _ => []
  else []

/-- The states of an engine whose transport engine nobody else uses, with the
announcements accepted so far. -/
inductive Run (deps : External T) (os : Os) (c : DiscoveryConfig) (t₀ : T) :
    List DiscoveryAnnouncement → Runtime T → Prop where
  | create (backend : DiscoveryConfig) (world : World) : Run deps os c t₀ []
      { context := { config := some c, transport := some t₀ }, backend := { config := backend },
        world }
  | start {l : List DiscoveryAnnouncement} {s : Runtime T} : Run deps os c t₀ l s →
      Run deps os c t₀ l (start os s).2
  | stop {l : List DiscoveryAnnouncement} {s : Runtime T} : Run deps os c t₀ l s →
      Run deps os c t₀ l (stop s)
  | announceNow {l : List DiscoveryAnnouncement} {s : Runtime T} : Run deps os c t₀ l s →
      Run deps os c t₀ l (announceNow deps os s).2
  | probeNow {l : List DiscoveryAnnouncement} {s : Runtime T} : Run deps os c t₀ l s →
      Run deps os c t₀ l (probeNow deps os s).2
  | pollOnce {l : List DiscoveryAnnouncement} {s : Runtime T} : Run deps os c t₀ l s →
      Run deps os c t₀ (l ++ nextAccepted deps c s) (pollOnce deps os s).2
  | deliver (inbox : List Arrival) (readings : ℕ) {l : List DiscoveryAnnouncement}
      {s : Runtime T} : Run deps os c t₀ l s → Run deps os c t₀ l (environment inbox id readings s)

theorem Run.reachable (h : Run deps os c t₀ l s) : Reachable deps os s := by
  induction h with
  | create backend world => exact .create _ _ _
  | start _ ih => exact .exec .start ih
  | stop _ ih => exact .exec .stop ih
  | announceNow _ ih => exact .exec .announceNow ih
  | probeNow _ ih => exact .exec .probeNow ih
  | pollOnce _ ih => exact .exec .pollOnce ih
  | deliver inbox readings _ ih => exact .environment _ _ _ ih

theorem Run.config (h : Run deps os c t₀ l s) : s.context.config = some c := by
  induction h with
  | create backend world => rfl
  | start h ih => exact (exec_config deps os h.reachable.sound .start).trans ih
  | stop h ih => exact (exec_config deps os h.reachable.sound .stop).trans ih
  | announceNow h ih => exact (exec_config deps os h.reachable.sound .announceNow).trans ih
  | probeNow h ih => exact (exec_config deps os h.reachable.sound .probeNow).trans ih
  | pollOnce h ih => exact (exec_config deps os h.reachable.sound .pollOnce).trans ih
  | deliver inbox readings _ ih => exact ih

/-- `poll_many` is a run of polls. -/
theorem Run.pollMany (h : Run deps os c t₀ l s) (maxMessages : ℕ) :
    ∃ l', Run deps os c t₀ l' (pollMany deps os maxMessages s).2 :=
  pollMany_induction (P := fun t ↦ ∃ l', Run deps os c t₀ l' t)
    (fun _ ⟨_, ht⟩ ↦ ⟨_, ht.pollOnce⟩) maxMessages ⟨l, h⟩

/-! ## The transport keeps the first address -/

def firstFor (n : Bytes) (l : List DiscoveryAnnouncement) : Option DiscoveryAnnouncement :=
  l.find? fun a ↦ a.nodeId = n

/-- The transport engine has, for each node, the address accepted first. -/
structure KeepsFirst (deps : External T) (recorded : T → Bytes → Option PeerInfo)
    (l : List DiscoveryAnnouncement) (s : Runtime T) : Prop where
  transport : ∃ t, s.context.transport = some t ∧ deps.transportIsRunning t = true ∧
    ∀ n, recorded t n = (firstFor n l).map infoOf

theorem KeepsFirst.of_transport {s' : Runtime T} (h : KeepsFirst deps recorded l s)
    (ht : s'.context.transport = s.context.transport) : KeepsFirst deps recorded l s' :=
  ⟨by rw [ht]; exact h.transport⟩

theorem firstFor_append (n : Bytes) (a : DiscoveryAnnouncement) :
    firstFor n (l ++ [a]) = (firstFor n l).or (if a.nodeId = n then some a else none) := by
  rw [firstFor, List.find?_append, firstFor]
  by_cases hn : a.nodeId = n <;> simp [hn]

theorem KeepsFirst.integrate (hrec : Recording deps recorded t₀) (hinfo : PeerInfoAccepts deps)
    {a : DiscoveryAnnouncement} (ha : a.isValid = true) (h : KeepsFirst deps recorded l s) :
    KeepsFirst deps recorded (l ++ [a]) (integrateWithTransport deps a s) := by
  obtain ⟨t, ht, hrunning, hfirst⟩ := h.transport
  obtain ⟨hid, hhost, hport, -⟩ := (DiscoveryAnnouncement.isValid_iff a).mp ha
  cases hknown : deps.transportContains t a.nodeId with
  | true =>
      rw [integrateWithTransport_of_known a ht (.inr hknown)]
      refine ⟨t, ht, hrunning, fun n ↦ ?_⟩
      rw [hfirst n, firstFor_append]
      by_cases hn : a.nodeId = n
      · subst hn
        rw [hrec.contains, hfirst, Option.isSome_map] at hknown
        obtain ⟨b, hb⟩ := Option.isSome_iff_exists.mp hknown
        rw [hb, Option.some_or]
      · rw [if_neg hn, Option.or_none]
  | false =>
      rw [integrateWithTransport_of_new a (hinfo (infoOf a) hid hhost hport) ht hrunning hknown]
      refine ⟨_, rfl, hrec.keepsRunning t _ hrunning, fun n ↦ ?_⟩
      rw [hrec.connect, firstFor_append]
      by_cases hn : a.nodeId = n
      · subst hn
        rw [hrec.contains, hfirst, Option.isSome_map, Option.isSome_eq_false_iff,
          Option.isNone_iff_eq_none] at hknown
        rw [hknown, if_pos rfl, if_pos rfl, Option.none_or]
        rfl
      · have hne : n ≠ a.nodeId := fun h ↦ hn h.symm
        rw [if_neg hne, if_neg hn, Option.or_none, hfirst n]

theorem KeepsFirst.pollOnce (hrec : Recording deps recorded t₀) (hinfo : PeerInfoAccepts deps)
    (hs : Sound s) (hc : s.context.config = some c) (h : KeepsFirst deps recorded l s) :
    KeepsFirst deps recorded (l ++ nextAccepted deps c s) (pollOnce deps os s).2 := by
  cases hrunning : isRunning s with
  | false => simpa [nextAccepted, hrunning, pollOnce_of_not_running hrunning] using h
  | true =>
      have hlive := hs.live hrunning hc
      have hsteady := timeDriven_steady deps os s
      by_cases haccept : ∃ a, nextReaction deps c s = .accept a
      · obtain ⟨a, ha⟩ := haccept
        have hlist : nextAccepted deps c s = [a] := by simp [nextAccepted, hrunning, ha]
        rw [hlist, pollOnce_of_accept os hlive ha]
        apply KeepsFirst.integrate hrec hinfo (isValid_of_nextReaction ha)
        exact h.of_transport (congrArg DiscoveryContext.transport hsteady.context)
      · have hnone : nextAccepted deps c s = [] := by
          cases hr : nextReaction deps c s with
          | accept a => exact absurd ⟨a, hr⟩ haccept
          | reject => simp [nextAccepted, hr]
          | answer m host port => simp [nextAccepted, hr]
        obtain ⟨-, -, hcontext⟩ := unchanged_of_not_accept os hlive
          fun a ha ↦ haccept ⟨a, ha⟩
        rw [hnone, List.append_nil]
        exact h.of_transport (by rw [hcontext])

theorem Run.keepsFirst (hrec : Recording deps recorded t₀) (hinfo : PeerInfoAccepts deps)
    (h : Run deps os c t₀ l s) : KeepsFirst deps recorded l s := by
  induction h with
  | create backend world => exact ⟨t₀, rfl, hrec.running, fun n ↦ hrec.empty n⟩
  | start _ ih => exact ih.of_transport (by rw [start_context])
  | stop _ ih => exact ih.of_transport (by rw [stop_context])
  | announceNow _ ih => exact ih.of_transport (by rw [(announceNow_quiet deps os _).context])
  | probeNow _ ih => exact ih.of_transport (by rw [(probeNow_quiet deps os _).context])
  | pollOnce h ih => exact ih.pollOnce hrec hinfo h.reachable.sound h.config
  | deliver inbox readings _ ih => exact ih.of_transport (by simp [environment])

/-! ## Agreement -/

variable {host bytes : Bytes} {port : UInt16} {rest : List Arrival}

theorem accepted_of_announces (hrunning : isRunning s = true)
    (hinbox : s.world.inbox = .datagram host port bytes :: rest) {a : DiscoveryAnnouncement}
    (ha : Announces deps.ser c.nodeId host port
      (bytes.take s.backend.config.maxDatagramSize) a) :
    nextReaction deps c s = .accept a ∧ nextAccepted deps c s = [a] := by
  have hr := (nextReaction_eq_accept_iff hinbox).mpr ha
  exact ⟨hr, by simp [nextAccepted, hrunning, hr]⟩

/-- After an announcement is accepted, the registry has its address and the
transport engine has the address accepted first for the node.  They agree
exactly when these two are the same. -/
theorem transport_keeps_first (hrec : Recording deps recorded t₀) (hinfo : PeerInfoAccepts deps)
    (hrun : Run deps os c t₀ l s) (hrunning : isRunning s = true)
    (hinbox : s.world.inbox = .datagram host port bytes :: rest) {a : DiscoveryAnnouncement}
    (ha : Announces deps.ser c.nodeId host port
      (bytes.take s.backend.config.maxDatagramSize) a) :
    ∃ p t first info, (pollOnce deps os s).2.engine.registry.get a.nodeId = some p ∧
      (pollOnce deps os s).2.context.transport = some t ∧
      firstFor a.nodeId (l ++ [a]) = some first ∧ recorded t a.nodeId = some info ∧
      p.announcement.host = a.host ∧ p.announcement.port = a.port ∧
      info.host = first.host ∧ info.port = first.port ∧
      ((info.host = p.announcement.host ∧ info.port = p.announcement.port) ↔
        first.host = a.host ∧ first.port = a.port) := by
  obtain ⟨hr, hlist⟩ := accepted_of_announces hrunning hinbox ha
  obtain ⟨⟨now, hget⟩, -⟩ := stored_of_accept os
    (hrun.reachable.live hrunning hrun.config) hr
  obtain ⟨t, ht, -, hfirst⟩ := (hrun.pollOnce.keepsFirst hrec hinfo).transport
  rw [hlist] at hfirst
  have hsome : ∃ first, firstFor a.nodeId (l ++ [a]) = some first := by
    rw [firstFor_append, if_pos rfl]
    cases firstFor a.nodeId l with
    | none => exact ⟨a, rfl⟩
    | some b => exact ⟨b, rfl⟩
  obtain ⟨first, hfirstFor⟩ := hsome
  have hinfoOf := hfirst a.nodeId
  rw [hfirstFor, Option.map_some] at hinfoOf
  exact ⟨_, t, first, infoOf first, hget, ht, hfirstFor, hinfoOf, rfl, rfl, rfl, rfl, Iff.rfl⟩

section Nodes

open Simulation

def lastRecorded (peers : List PeerInfo) (n : Bytes) : Option PeerInfo :=
  peers.reverse.find? fun p ↦ p.nodeId = n

theorem recording_listing : Recording listing lastRecorded [] where
  running := rfl
  keepsRunning _ _ _ := rfl
  empty _ := rfl
  contains peers n := by
    rw [listing, lastRecorded, Bool.eq_iff_iff, List.any_eq_true]
    simp
  connect peers info n := by
    simp only [listing, lastRecorded, List.reverse_append, List.reverse_cons, List.reverse_nil,
      List.nil_append, List.singleton_append, List.find?_cons]
    by_cases h : n = info.nodeId
    · simp [h]
    · have h' : info.nodeId ≠ n := fun e ↦ h e.symm
      simp [h, h']

theorem run_receiver (inbox : List Arrival) :
    Run listing (system (ticking 1000)) (config "node-b" 9400) [] [] (receiver inbox) :=
  .deliver inbox 0 (.start (.create _ _))

/-- The engine of `node-b` after an announcement of `node-a`, about to read that
of its next address. -/
def moved : Runtime (List PeerInfo) :=
  environment [announced "node-a" 9600 9400] id 0
    (pollOnce listing (system (ticking 1000)) (receiver [announced "node-a" 9500 9400])).2

theorem run_moved : Run listing (system (ticking 1000)) (config "node-b" 9400) []
    ([] ++ nextAccepted listing (config "node-b" 9400) (receiver [announced "node-a" 9500 9400]))
    moved :=
  .deliver _ 0 (run_receiver _).pollOnce

/-- The poll that reads the next address: the registry has it, and the transport
engine has the first. -/
theorem transport_keeps_first_moved :
    ∃ p t, ∃ info : PeerInfo, (pollOnce listing (system (ticking 1000))
        moved).2.engine.registry.get (ascii "node-a") = some p ∧
      (pollOnce listing (system (ticking 1000)) moved).2.context.transport = some t ∧
      lastRecorded t (ascii "node-a") = some info ∧ p.announcement.port = 9601 ∧
      info.port = 9501 := by
  have ha : Announces .littleEndian (ascii "node-b") (ascii "127.0.0.1") 9400
      ((encodeMessage .littleEndian (announcement "node-a" 9600)).take (64 * 1024))
      (localAnnouncement (config "node-a" 9600) ⟨5⟩) :=
    ⟨by decide, ⟨announcement "node-a" 9600, by decide⟩, by decide, by decide⟩
  obtain ⟨p, t, first, info, hget, ht, hfirst, hinfo, -, hport, -, hport', -⟩ :=
    transport_keeps_first recording_listing peerInfoAccepts_listing run_moved (by decide) rfl ha
  have hold : firstFor (ascii "node-a") (([] ++ nextAccepted listing (config "node-b" 9400)
      (receiver [announced "node-a" 9500 9400])) ++
        [localAnnouncement (config "node-a" 9600) ⟨5⟩]) =
          some (localAnnouncement (config "node-a" 9500) ⟨5⟩) := by decide +kernel
  obtain rfl := Option.some.inj (hold.symm.trans hfirst)
  exact ⟨p, t, info, hget, ht, hinfo, hport, hport'⟩

/-- After `node-a` moves, the transport engine still has its old port. -/
theorem transport_keeps_old_address :
    let a := localAnnouncement (config "node-a" 9600) ⟨5⟩
    let s' := (pollOnce listing (system (ticking 1000)) moved).2
    Recording listing lastRecorded [] ∧ PeerInfoAccepts listing ∧
      (∃ l, Run listing (system (ticking 1000)) (config "node-b" 9400) [] l moved) ∧
      isRunning moved = true ∧
      moved.world.inbox = [.datagram (ascii "127.0.0.1") 9400
        (encodeMessage .littleEndian (announcement "node-a" 9600))] ∧
      Announces .littleEndian (ascii "node-b") (ascii "127.0.0.1") 9400
        ((encodeMessage .littleEndian (announcement "node-a" 9600)).take
          moved.backend.config.maxDatagramSize) a ∧
      (s'.engine.registry.get a.nodeId).map (fun p ↦ p.announcement.port) = some 9601 ∧
      (s'.context.transport.bind fun t ↦ lastRecorded t a.nodeId).map PeerInfo.port = some 9501 :=
  ⟨recording_listing, peerInfoAccepts_listing, ⟨_, run_moved⟩, by decide, rfl,
    ⟨by decide, ⟨announcement "node-a" 9600, by decide⟩, by decide, by decide⟩, by decide⟩

end Nodes

end DiscoveryEngine

end Discovery
