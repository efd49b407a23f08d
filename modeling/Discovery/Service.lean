import Discovery.PollRuns

/-!
# The discovery service

`DiscoveryService`, the public API over one engine: it converts its options to a
configuration, lists the available peers, and reports new ones to a handler.  The
handler is a record of its invocations and does not call back into the service.
-/

namespace Discovery

open Lib

/-! ## Public peers -/

structure Peer where
  nodeId : Bytes := []
  host : Bytes := []
  port : UInt16 := 0
  lastSeenAt : Timestamp := {}
deriving DecidableEq

namespace Peer

def create (nodeId host : Bytes) (port : UInt16) (now : Timestamp) : Peer :=
  { nodeId, host, port, lastSeenAt := now }

def fromDiscoveredPeer (peer : DiscoveredPeer) (now : Timestamp) : Peer :=
  let result := create peer.announcement.nodeId peer.announcement.host peer.announcement.port now
  { result with lastSeenAt := peer.lastSeenAt }

def isValid (peer : Peer) : Bool :=
  !peer.nodeId.isEmpty && !peer.host.isEmpty && peer.port != 0 && peer.lastSeenAt.isValid

end Peer

/-! ## Options -/

structure DiscoveryOptions where
  nodeId : Bytes := []
  bindHost : Bytes := ascii "0.0.0.0"
  bindPort : UInt16 := 9400
  broadcastHost : Bytes := ascii "255.255.255.255"
  broadcastPort : UInt16 := 9400
  announceHost : Bytes := ascii "127.0.0.1"
  announcePort : UInt16 := 0
  announceInterval : Duration := Duration.fromSeconds 3
  peerTtl : Duration := Duration.fromSeconds 15
  enableBroadcast : Bool := true
deriving DecidableEq

namespace DiscoveryOptions

/-- `DiscoveryOptions::local`. -/
def localDev (nodeId : Bytes) (bindPort announcePort : UInt16) : DiscoveryOptions where
  nodeId := nodeId
  bindHost := ascii "127.0.0.1"
  bindPort := bindPort
  broadcastHost := ascii "127.0.0.1"
  broadcastPort := bindPort
  announceHost := ascii "127.0.0.1"
  announcePort := announcePort

def toConfig (o : DiscoveryOptions) : DiscoveryConfig where
  bindHost := o.bindHost
  bindPort := o.bindPort
  broadcastHost := o.broadcastHost
  broadcastPort := o.broadcastPort
  nodeId := o.nodeId
  announceHost := o.announceHost
  announcePort := o.announcePort
  announceInterval := o.announceInterval
  peerTtl := o.peerTtl
  enableBroadcast := o.enableBroadcast

def isValid (o : DiscoveryOptions) : Bool :=
  !o.nodeId.isEmpty && !o.bindHost.isEmpty && o.bindPort != 0 && !o.broadcastHost.isEmpty &&
    o.broadcastPort != 0 && !o.announceHost.isEmpty && o.announcePort != 0 &&
      decide (0 < o.announceInterval.millis) && decide (0 < o.peerTtl.millis)

end DiscoveryOptions

/-! ## The service -/

/-- `onPeerFound` says whether a handler is installed, and `found` lists the
peers it was called with. -/
structure DiscoveryService (T : Type) where
  options : DiscoveryOptions
  config : DiscoveryConfig
  runtime : Runtime T
  onPeerFound : Bool := false
  knownPeerCount : ℕ := 0
  found : List Peer := []

namespace DiscoveryService

variable {T : Type} (deps : External T) (os : Os)

def create (options : DiscoveryOptions) (transport : T) (world : World) : DiscoveryService T where
  options := options
  config := options.toConfig
  runtime :=
    { context := { config := some options.toConfig, transport := some transport }
      backend := { config := options.toConfig }
      world }

def start (sv : DiscoveryService T) : Bool × DiscoveryService T :=
  if !sv.options.isValid then (false, sv)
  else
    let sv := { sv with knownPeerCount := sv.runtime.engine.registry.size }
    let (ok, runtime) := DiscoveryEngine.start os sv.runtime
    (ok, { sv with runtime })

def stop (sv : DiscoveryService T) : DiscoveryService T :=
  { sv with runtime := DiscoveryEngine.stop sv.runtime, knownPeerCount := 0 }

def isRunning (sv : DiscoveryService T) : Bool := DiscoveryEngine.isRunning sv.runtime

def announceNow (sv : DiscoveryService T) : Bool × DiscoveryService T :=
  let (sent, runtime) := DiscoveryEngine.announceNow deps os sv.runtime
  (sent, { sv with runtime })

def probeNow (sv : DiscoveryService T) : Bool × DiscoveryService T :=
  let (sent, runtime) := DiscoveryEngine.probeNow deps os sv.runtime
  (sent, { sv with runtime })

/-- The loop that `peers` and `notify_new_peers` share: it converts the peers
one by one, each with a reading of the clock, and keeps the valid ones. -/
def publicPeers : List DiscoveredPeer → World → List Peer × World
  | [], w => ([], w)
  | peer :: rest, w =>
    let (now, w) := w.now os
    let publicPeer := Peer.fromDiscoveredPeer peer now
    let (result, w) := publicPeers rest w
    (if publicPeer.isValid then publicPeer :: result else result, w)

def notifyNewPeers (order : PeerOrder) (sv : DiscoveryService T) : DiscoveryService T :=
  let discovered := sv.runtime.engine.registry.availablePeers order
  if !sv.onPeerFound then { sv with knownPeerCount := discovered.length }
  else if discovered.length ≤ sv.knownPeerCount then
    { sv with knownPeerCount := discovered.length }
  else
    let (peers, world) := publicPeers os (discovered.drop sv.knownPeerCount) sv.runtime.world
    { sv with
      runtime.world := world
      found := sv.found ++ peers
      knownPeerCount := discovered.length }

def poll (order : PeerOrder) (sv : DiscoveryService T) : Bool × DiscoveryService T :=
  let (processed, runtime) := DiscoveryEngine.pollOnce deps os sv.runtime
  (processed, notifyNewPeers os order { sv with runtime })

def pollMany (maxMessages : ℕ) (order : PeerOrder) (sv : DiscoveryService T) :
    ℕ × DiscoveryService T :=
  let (processed, runtime) := DiscoveryEngine.pollMany deps os maxMessages sv.runtime
  (processed, notifyNewPeers os order { sv with runtime })

def peers (order : PeerOrder) (sv : DiscoveryService T) : List Peer × DiscoveryService T :=
  let (result, world) :=
    publicPeers os (sv.runtime.engine.registry.availablePeers order) sv.runtime.world
  (result, { sv with runtime.world := world })

/-- Replaces the handler; the argument says whether the new one is callable. -/
def setOnPeerFound (callable : Bool) (sv : DiscoveryService T) : DiscoveryService T :=
  { sv with onPeerFound := callable }

/-! ## Runs -/

/-- The calls of a run between a start and the next stop. -/
inductive Event (T : Type) where
  | announceNow
  | probeNow
  | poll (order : PeerOrder)
  | pollMany (maxMessages : ℕ) (order : PeerOrder)
  | peers (order : PeerOrder)
  | environment (inbox : List Arrival) (transport : T → T) (readings : ℕ)

def Event.apply : Event T → DiscoveryService T → DiscoveryService T
  | announceNow, sv => (sv.announceNow deps os).2
  | probeNow, sv => (sv.probeNow deps os).2
  | poll order, sv => (sv.poll deps os order).2
  | pollMany maxMessages order, sv => (sv.pollMany deps os maxMessages order).2
  | peers order, sv => (sv.peers os order).2
  | environment inbox transport readings, sv =>
    { sv with runtime := DiscoveryEngine.environment inbox transport readings sv.runtime }

def after : List (Event T) → DiscoveryService T → DiscoveryService T
  | [], sv => sv
  | e :: events, sv => after events (e.apply deps os sv)

/-- The engine states in which a call enters `poll_once`. -/
def Event.entries : Event T → DiscoveryService T → List (Runtime T)
  | poll _, sv => [sv.runtime]
  | pollMany maxMessages _, sv => DiscoveryEngine.pollManyEntries deps os maxMessages sv.runtime
  | _, _ => []

def polls : List (Event T) → DiscoveryService T → List (Runtime T)
  | [], _ => []
  | e :: events, sv => e.entries deps os sv ++ polls events (e.apply deps os sv)

/-- The states of a service that is constructed and used, in any order of calls. -/
inductive Reachable : DiscoveryService T → Prop where
  | create (options : DiscoveryOptions) (transport : T) (world : World) :
      Reachable (create options transport world)
  | start {sv : DiscoveryService T} : Reachable sv → Reachable (sv.start os).2
  | stop {sv : DiscoveryService T} : Reachable sv → Reachable sv.stop
  | setOnPeerFound (callable : Bool) {sv : DiscoveryService T} :
      Reachable sv → Reachable (sv.setOnPeerFound callable)
  | event (e : Event T) {sv : DiscoveryService T} : Reachable sv → Reachable (e.apply deps os sv)

/-! ## What a call does to the engine -/

section Calls

variable {deps : External T} {os : Os} {sv : DiscoveryService T} {s : Runtime T}
  {l : List (Runtime T)}

/-- The public peer of a discovered one; the reading of the clock is overwritten. -/
def publicPeer (peer : DiscoveredPeer) : Peer where
  nodeId := peer.announcement.nodeId
  host := peer.announcement.host
  port := peer.announcement.port
  lastSeenAt := peer.lastSeenAt

theorem publicPeers_eq (ps : List DiscoveredPeer) (w : World) :
    publicPeers os ps w =
      ((ps.map publicPeer).filter Peer.isValid, { w with ticks := w.ticks + ps.length }) := by
  induction ps generalizing w with
  | nil => rfl
  | cons p rest ih =>
      have hpeer (now : Timestamp) : Peer.fromDiscoveredPeer p now = publicPeer p := rfl
      simp only [publicPeers, World.now, hpeer, ih, List.map_cons, List.filter_cons,
        List.length_cons]
      refine Prod.ext rfl ?_
      simp only [World.mk.injEq, and_true]
      omega

def elapse (readings : ℕ) (s : Runtime T) : Runtime T :=
  { s with world.ticks := s.world.ticks + readings }

theorem elapse_eq_environment (readings : ℕ) (s : Runtime T) :
    elapse readings s = DiscoveryEngine.environment s.world.inbox id readings s := by
  simp [elapse, DiscoveryEngine.environment]

/-- The peers that `notify_new_peers` hands to the handler. -/
def newPeers (order : PeerOrder) (sv : DiscoveryService T) : List Peer :=
  if sv.onPeerFound then
    (((sv.runtime.engine.registry.availablePeers order).drop sv.knownPeerCount).map
      publicPeer).filter Peer.isValid
  else []

variable (os) in
/-- All that `notify_new_peers` does. -/
theorem notifyNewPeers_eq (order : PeerOrder) (sv : DiscoveryService T) :
    ∃ k, sv.notifyNewPeers os order =
      { sv with
        runtime := elapse k sv.runtime
        found := sv.found ++ sv.newPeers order
        knownPeerCount := (sv.runtime.engine.registry.availablePeers order).length } := by
  unfold notifyNewPeers newPeers
  simp only [publicPeers_eq]
  cases hhandler : sv.onPeerFound with
  | false => exact ⟨0, by simp [elapse, ← hhandler]⟩
  | true =>
      simp only [Bool.not_true, Bool.false_eq_true, if_false, if_true]
      split_ifs with hfew
      · refine ⟨0, ?_⟩
        rw [List.drop_eq_nil_of_le hfew]
        simp [elapse]
      · exact ⟨_, rfl⟩

variable (os) in
theorem notifyNewPeers_runtime (order : PeerOrder) (sv : DiscoveryService T) :
    ∃ k, (sv.notifyNewPeers os order).runtime = elapse k sv.runtime := by
  obtain ⟨k, hk⟩ := notifyNewPeers_eq os order sv
  exact ⟨k, by rw [hk]⟩

variable (os) in
theorem peers_runtime (order : PeerOrder) (sv : DiscoveryService T) :
    ∃ k, (sv.peers os order).2.runtime = elapse k sv.runtime := by
  simp only [peers, publicPeers_eq]
  exact ⟨_, rfl⟩

variable (deps os) in
/-- A call is one call of the engine, after which only time passes. -/
theorem apply_runtime (e : Event T) (sv : DiscoveryService T) :
    ∃ (e' : DiscoveryEngine.Event T) (k : ℕ),
      (e.apply deps os sv).runtime = elapse k (e'.apply deps os sv.runtime) ∧
        e.entries deps os sv = e'.entries deps os sv.runtime := by
  cases e with
  | announceNow => exact ⟨.announceNow, 0, rfl, rfl⟩
  | probeNow => exact ⟨.probeNow, 0, rfl, rfl⟩
  | poll order =>
      obtain ⟨k, hk⟩ := notifyNewPeers_runtime os order
        { sv with runtime := (DiscoveryEngine.pollOnce deps os sv.runtime).2 }
      exact ⟨.pollOnce, k, hk, rfl⟩
  | pollMany maxMessages order =>
      obtain ⟨k, hk⟩ := notifyNewPeers_runtime os order
        { sv with runtime := (DiscoveryEngine.pollMany deps os maxMessages sv.runtime).2 }
      exact ⟨.pollMany maxMessages, k, hk, rfl⟩
  | peers order =>
      obtain ⟨k, hk⟩ := peers_runtime os order sv
      refine ⟨.environment sv.runtime.world.inbox id 0, k, ?_, rfl⟩
      rw [DiscoveryEngine.Event.apply, ← elapse_eq_environment]
      exact hk
  | environment inbox transport readings =>
      exact ⟨.environment inbox transport readings, 0, rfl, rfl⟩

theorem elapse_idle (k : ℕ) (s : Runtime T) : DiscoveryEngine.Idle s (elapse k s) := by
  rw [elapse_eq_environment]
  exact DiscoveryEngine.environment_idle _ _ _ _

variable (deps os) in
theorem pollTrace_polls (events : List (Event T)) (sv : DiscoveryService T) :
    DiscoveryEngine.PollTrace deps os sv.runtime (polls deps os events sv)
      (after deps os events sv).runtime := by
  suffices ∀ s l (sv : DiscoveryService T), DiscoveryEngine.PollTrace deps os s l sv.runtime →
      DiscoveryEngine.PollTrace deps os s (l ++ polls deps os events sv)
        (after deps os events sv).runtime by
    simpa using this sv.runtime [] sv (.idle (.refl _))
  induction events with
  | nil => exact fun s l sv h ↦ by simpa [polls, after] using h
  | cons e events ih =>
      intro s l sv h
      obtain ⟨e', k, hruntime, hentries⟩ := apply_runtime deps os e sv
      have hnext := (h.event e').move (elapse_idle k _)
      rw [← hruntime, ← hentries] at hnext
      have hrest := ih s _ _ hnext
      rwa [List.append_assoc] at hrest

theorem reachable_elapse (h : DiscoveryEngine.Reachable deps os s) (k : ℕ) :
    DiscoveryEngine.Reachable deps os (elapse k s) := by
  rw [elapse_eq_environment]
  exact .environment _ _ _ h

theorem reachable_apply (h : DiscoveryEngine.Reachable deps os s) (e : DiscoveryEngine.Event T) :
    DiscoveryEngine.Reachable deps os (e.apply deps os s) := by
  cases e with
  | announceNow => exact .exec .announceNow h
  | probeNow => exact .exec .probeNow h
  | pollOnce => exact .exec .pollOnce h
  | pollMany maxMessages => exact .exec (.pollMany maxMessages) h
  | environment inbox transport readings => exact .environment inbox transport readings h

theorem start_found (sv : DiscoveryService T) : (sv.start os).2.found = sv.found := by
  unfold start
  split_ifs <;> rfl

theorem reachable_start (h : DiscoveryEngine.Reachable deps os sv.runtime) :
    DiscoveryEngine.Reachable deps os (sv.start os).2.runtime := by
  unfold DiscoveryService.start
  split_ifs
  · exact h
  · exact .exec .start h

theorem reachable_event (h : DiscoveryEngine.Reachable deps os sv.runtime) (e : Event T) :
    DiscoveryEngine.Reachable deps os (e.apply deps os sv).runtime := by
  obtain ⟨e', k, hruntime, -⟩ := apply_runtime deps os e sv
  rw [hruntime]
  exact reachable_elapse (reachable_apply h e') k

theorem Reachable.runtime (h : Reachable deps os sv) :
    DiscoveryEngine.Reachable deps os sv.runtime := by
  induction h with
  | create options transport world => exact .create _ _ _
  | start _ ih => exact reachable_start ih
  | stop _ ih => exact .exec .stop ih
  | setOnPeerFound _ _ ih => exact ih
  | event e _ ih => exact reachable_event ih e

theorem apply_config (e : Event T) (sv : DiscoveryService T) :
    (e.apply deps os sv).config = sv.config := by
  have hnotify (order : PeerOrder) (sv : DiscoveryService T) :
      (sv.notifyNewPeers os order).config = sv.config := by
    obtain ⟨k, hk⟩ := notifyNewPeers_eq os order sv
    rw [hk]
  cases e with
  | poll order => exact hnotify order _
  | pollMany maxMessages order => exact hnotify order _
  | _ => rfl

theorem engine_apply_config (h : DiscoveryEngine.Reachable deps os s)
    (e : DiscoveryEngine.Event T) :
    (e.apply deps os s).context.config = s.context.config := by
  cases e with
  | announceNow => exact DiscoveryEngine.exec_config _ _ h.sound .announceNow
  | probeNow => exact DiscoveryEngine.exec_config _ _ h.sound .probeNow
  | pollOnce => exact DiscoveryEngine.exec_config _ _ h.sound .pollOnce
  | pollMany maxMessages => exact DiscoveryEngine.exec_config _ _ h.sound (.pollMany maxMessages)
  | environment inbox transport readings => rfl

theorem Reachable.config (h : Reachable deps os sv) :
    sv.runtime.context.config = some sv.config := by
  induction h with
  | create options transport world => rfl
  | start hreach ih =>
      unfold DiscoveryService.start
      split_ifs
      · exact ih
      · exact (DiscoveryEngine.exec_config deps os hreach.runtime.sound
          .start).trans ih
  | stop hreach ih =>
      exact (DiscoveryEngine.exec_config deps os hreach.runtime.sound .stop).trans ih
  | setOnPeerFound _ _ ih => exact ih
  | event e hreach ih =>
      obtain ⟨e', k, hruntime, -⟩ := apply_runtime deps os e _
      rw [hruntime, apply_config]
      exact (engine_apply_config hreach.runtime e').trans ih

variable (deps os) in
theorem after_config (events : List (Event T)) (sv : DiscoveryService T) :
    (after deps os events sv).config = sv.config := by
  induction events generalizing sv with
  | nil => rfl
  | cons e events ih => exact (ih _).trans (apply_config e sv)

/-! ## Starting -/

/-- A service that goes from not running to running starts with no peers. -/
structure Started (deps : External T) (os : Os) (sv : DiscoveryService T) : Prop where
  reachable : Reachable deps os sv
  live : DiscoveryEngine.Live sv.runtime sv.config
  registry : sv.runtime.engine.registry = {}
  knownPeerCount : sv.knownPeerCount = 0

theorem started_of_start (h : Reachable deps os sv) (hstopped : sv.isRunning = false)
    (hstart : (sv.start os).1 = true) : Started deps os (sv.start os).2 := by
  have hreach : Reachable deps os (sv.start os).2 := .start h
  have hempty := h.runtime.sound.registry_of_not_running hstopped
  have hsize : DiscoveryRegistry.size {} = 0 := rfl
  have hconfig := hreach.config
  unfold DiscoveryService.start at hstart hreach hconfig ⊢
  split_ifs at hstart hreach hconfig ⊢
  have hrunning := h.runtime.sound.isRunning_of_start hstart
  refine ⟨hreach, hreach.runtime.live hrunning hconfig, ?_, ?_⟩
  · exact (DiscoveryEngine.start_registry sv.runtime).trans hempty
  · rw [hempty, hsize]

end Calls

end DiscoveryService

end Discovery
