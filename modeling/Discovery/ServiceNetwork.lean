import Discovery.Convergence
import Discovery.Replies

/-!
# A network of services

Services exchange datagrams over a network that may lose, duplicate, reorder and
cut them.  Their network refines the network of their engines, and whomever a
handler is called with is another service, at the address of its options.
-/

namespace Discovery

open DiscoveryEngine (Op exec)

namespace DiscoveryService

variable {T : Type} {deps : External T} {os : Os} {sv : DiscoveryService T}

/-! ## One call -/

/-- The arrivals that an event brings. -/
def Event.arrivals : Event T → List Arrival
  | environment inbox _ _ => inbox
  | _ => []

variable (deps os) in
/-- An event is a delivery, one operation of the engine, or a listing, and time
passes afterwards. -/
theorem event_runtime (e : Event T) (sv : DiscoveryService T) :
    (∃ inbox transport readings, e = .environment inbox transport readings) ∨
    (∃ op k, (e.apply deps os sv).runtime = elapse k (exec deps os op sv.runtime)) ∨
    ∃ k, (e.apply deps os sv).runtime = elapse k sv.runtime := by
  cases e with
  | announceNow => exact .inr (.inl ⟨.announceNow, 0, rfl⟩)
  | probeNow => exact .inr (.inl ⟨.probeNow, 0, rfl⟩)
  | poll order => exact .inr (.inl ⟨.pollOnce, notifyNewPeers_runtime os order _⟩)
  | pollMany maxMessages order =>
      exact .inr (.inl ⟨.pollMany maxMessages, notifyNewPeers_runtime os order _⟩)
  | peers order => exact .inr (.inr (peers_runtime os order sv))
  | environment inbox transport readings => exact .inl ⟨inbox, transport, readings, rfl⟩

/-- The peer is the public form of a registry entry. -/
def Registers (sv : DiscoveryService T) (P : Peer) : Prop :=
  ∃ n p, sv.runtime.engine.registry.get n = some p ∧ publicPeer p = P

theorem found_notifyNewPeers (order : PeerOrder) {P : Peer}
    (hP : P ∈ (sv.notifyNewPeers os order).found) :
    P ∈ sv.found ∨ (sv.notifyNewPeers os order).Registers P := by
  obtain ⟨k, hk⟩ := notifyNewPeers_eq os order sv
  rw [hk] at hP ⊢
  rcases List.mem_append.mp hP with hold | hnew
  · exact .inl hold
  · unfold newPeers at hnew
    split_ifs at hnew
    · obtain ⟨p, hp, rfl⟩ := List.mem_map.mp (List.mem_of_mem_filter hnew)
      obtain ⟨-, n, hn⟩ :=
        (DiscoveryRegistry.mem_availablePeers order p).mp (List.mem_of_mem_drop hp)
      exact .inr ⟨n, p, hn, rfl⟩
    · cases hnew

/-- Whom a handler is called with is in the registry then. -/
theorem found_apply (e : Event T) {P : Peer} (hP : P ∈ (e.apply deps os sv).found) :
    P ∈ sv.found ∨ (e.apply deps os sv).Registers P := by
  cases e with
  | poll order => exact found_notifyNewPeers order hP
  | pollMany maxMessages order => exact found_notifyNewPeers order hP
  | _ => exact .inl hP

end DiscoveryService

/-! ## The network -/

open DiscoveryService

abbrev ServiceNetwork (ι T : Type) := ι → DiscoveryService T

namespace ServiceNetwork

variable {ι T : Type} {deps : External T} {os : ι → Os} {options : ι → DiscoveryOptions}
  {S S' : ServiceNetwork ι T} {i : ι}

/-- The engines of the services. -/
def runtimes (S : ServiceNetwork ι T) : Network ι T := DiscoveryService.runtime ∘ S

/-- Services as they are constructed, with nothing received and nothing sent. -/
def created (options : ι → DiscoveryOptions) (transports : ι → T) : ServiceNetwork ι T :=
  fun i ↦ create (options i) (transports i) {}

theorem initial_created (options : ι → DiscoveryOptions) (transports : ι → T) :
    Network.Initial (fun i ↦ (options i).toConfig) (runtimes (created options transports)) :=
  fun _ ↦ ⟨rfl, rfl, rfl, rfl, rfl⟩

variable [DecidableEq ι]

/-- A service is called, or the network fills its inbox. -/
inductive Step (deps : External T) (os : ι → Os) (S : ServiceNetwork ι T) :
    ServiceNetwork ι T → Prop where
  | start (i : ι) : Step deps os S (Function.update S i ((S i).start (os i)).2)
  | stop (i : ι) : Step deps os S (Function.update S i (S i).stop)
  | setOnPeerFound (i : ι) (callable : Bool) :
      Step deps os S (Function.update S i ((S i).setOnPeerFound callable))
  | event (i : ι) (e : Event T) (h : ∀ a ∈ e.arrivals, Network.InFlight (runtimes S) a) :
      Step deps os S (Function.update S i (e.apply deps (os i) (S i)))

theorem runtimes_update (S : ServiceNetwork ι T) (i : ι) (sv : DiscoveryService T) :
    runtimes (Function.update S i sv) = Function.update (runtimes S) i sv.runtime :=
  Function.comp_update _ _ _ _

theorem update_runtime (S : ServiceNetwork ι T) (i : ι) :
    Function.update (runtimes S) i (S i).runtime = runtimes S :=
  Function.update_eq_self i (runtimes S)

/-- Time may pass at an engine, whose inbox stays as it is. -/
theorem run_elapse {configs : ι → DiscoveryConfig} {N N' : Network ι T} (hser : deps.ser.Lawful)
    (hfit : ∀ i, (configs i).SizesFit) (hinitial : Network.Initial configs N)
    (hrun : Relation.ReflTransGen (Network.Step deps os) N N') (i : ι) (k : ℕ) :
    Network.Step deps os N' (Function.update N' i (elapse k (N' i))) := by
  rw [elapse_eq_environment]
  exact .deliver i _ id k (Network.asked_of_run hser hfit hinitial hrun i).pending

/-- A step of the services is a run of their engines. -/
theorem Step.runtimes {configs : ι → DiscoveryConfig} {N : Network ι T} (hser : deps.ser.Lawful)
    (hfit : ∀ i, (configs i).SizesFit) (hinitial : Network.Initial configs N)
    (hrun : Relation.ReflTransGen (Network.Step deps os) N (runtimes S))
    (hstep : Step deps os S S') :
    Relation.ReflTransGen (Network.Step deps os) N (ServiceNetwork.runtimes S') := by
  cases hstep with
  | start i =>
      rw [runtimes_update]
      unfold DiscoveryService.start
      split_ifs
      · rwa [update_runtime]
      · exact hrun.tail (.exec i .start)
  | stop i =>
      rw [runtimes_update]
      exact hrun.tail (.exec i .stop)
  | setOnPeerFound i callable =>
      rw [runtimes_update]
      rwa [← update_runtime S i] at hrun
  | event i e h =>
      rw [runtimes_update]
      rcases event_runtime deps (os i) e (S i) with
        ⟨inbox, transport, readings, rfl⟩ | ⟨op, k, hruntime⟩ | ⟨k, hruntime⟩
      · exact hrun.tail (.deliver i inbox transport readings h)
      · have hexec := hrun.tail (.exec i op)
        have helapse := hexec.tail (run_elapse hser hfit hinitial hexec i k)
        rw [Function.update_idem, Function.update_self] at helapse
        rw [hruntime]
        exact helapse
      · rw [hruntime]
        exact hrun.tail (run_elapse hser hfit hinitial hrun i k)

theorem runtimes_of_run {configs : ι → DiscoveryConfig} (hser : deps.ser.Lawful)
    (hfit : ∀ i, (configs i).SizesFit) (hinitial : Network.Initial configs (runtimes S))
    (hrun : Relation.ReflTransGen (Step deps os) S S') :
    Relation.ReflTransGen (Network.Step deps os) (runtimes S) (runtimes S') := by
  induction hrun with
  | refl => exact .refl
  | tail _ hstep ih => exact hstep.runtimes hser hfit hinitial ih

/-- The peer is another service of the network, at the address of its options. -/
def Fellow (options : ι → DiscoveryOptions) (i : ι) (P : Peer) : Prop :=
  ∃ j, j ≠ i ∧ P.nodeId = (options j).nodeId ∧ P.host = (options j).announceHost ∧
    P.port = (options j).announcePort

theorem fellow_of_registers {N : Network ι T} (hser : deps.ser.Lawful)
    (hfit : ∀ i, (options i).toConfig.SizesFit)
    (hinitial : Network.Initial (fun i ↦ (options i).toConfig) N)
    (hrun : Relation.ReflTransGen (Network.Step deps os) N (runtimes S)) {P : Peer}
    (hP : (S i).Registers P) : Fellow options i P := by
  obtain ⟨n, p, hp, rfl⟩ := hP
  obtain ⟨j, hj, hn, hhost, hport⟩ :=
    (Network.invariant_of_run hser hfit hinitial hrun i).entry n p hp
  have hkey : p.announcement.nodeId = n :=
    (Network.registered_of_run hser hfit hinitial hrun i).keys n p hp
  exact ⟨j, hj, hkey.trans hn, hhost, hport⟩

theorem found_update (k : ι) (sv : DiscoveryService T)
    (h : ∀ P ∈ sv.found, P ∈ (S k).found ∨ sv.Registers P) (i : ι) {P : Peer}
    (hP : P ∈ (Function.update S k sv i).found) :
    P ∈ (S i).found ∨ (Function.update S k sv i).Registers P := by
  by_cases hi : i = k
  · subst hi
    rw [Function.update_self] at hP ⊢
    exact h P hP
  · rw [Function.update_of_ne hi] at hP
    exact .inl hP

/-- Whom a handler was called with after a step, it was called with before, or is
registered now. -/
theorem Step.found (hstep : Step deps os S S') (i : ι) {P : Peer} (hP : P ∈ (S' i).found) :
    P ∈ (S i).found ∨ (S' i).Registers P := by
  cases hstep with
  | start k => exact found_update k _ (fun P hP ↦ .inl (by rwa [start_found] at hP)) i hP
  | stop k => exact found_update k (S k).stop (fun P hP ↦ .inl hP) i hP
  | setOnPeerFound k callable =>
      exact found_update k ((S k).setOnPeerFound callable) (fun P hP ↦ .inl hP) i hP
  | event k e h => exact found_update k _ (fun P hP ↦ found_apply e hP) i hP

/-- Every run of the services is one of their engines, and whomever a service
reports, to its handler or in a listing, is another service of the network, at
the address of that one's options. -/
theorem services_refine_engines (hser : deps.ser.Lawful)
    (hfit : ∀ i, (options i).toConfig.SizesFit) (transports : ι → T)
    (hrun : Relation.ReflTransGen (Step deps os) (created options transports) S) :
    Relation.ReflTransGen (Network.Step deps os) (runtimes (created options transports))
      (runtimes S) ∧
    ∀ i, (∀ P ∈ (S i).found, Fellow options i P) ∧
      ∀ order, ∀ P ∈ ((S i).peers (os i) order).1, Fellow options i P := by
  have hinitial := initial_created options transports
  have hengines := runtimes_of_run hser hfit hinitial hrun
  refine ⟨hengines, fun i ↦ ⟨?_, fun order P hP ↦ ?_⟩⟩
  · clear hengines
    induction hrun with
    | refl => simp [created, create]
    | tail hearlier hstep ih =>
        intro P hP
        rcases hstep.found i hP with hold | hnew
        · exact ih P hold
        · exact fellow_of_registers hser hfit hinitial
            (runtimes_of_run hser hfit hinitial (hearlier.tail hstep)) hnew
  · obtain ⟨-, n, p, hp, -, rfl⟩ := (mem_peers_iff order P).mp hP
    exact fellow_of_registers hser hfit hinitial hengines ⟨n, p, hp, rfl⟩

section Nodes

open Simulation

def pairOptions : Bool → DiscoveryOptions
  | false => .localDev (ascii "node-a") 9500 9501
  | true => .localDev (ascii "node-b") 9400 9401

def call (S : ServiceNetwork Bool (List PeerInfo)) (i : Bool) (e : Event (List PeerInfo)) :
    ServiceNetwork Bool (List PeerInfo) :=
  Function.update S i (e.apply listing (system (ticking 1000)) (S i))

def startedPair : ServiceNetwork Bool (List PeerInfo) :=
  let S := created pairOptions fun _ ↦ []
  let S := Function.update S false ((S false).start (system (ticking 1000))).2
  let S := Function.update S true ((S true).start (system (ticking 1000))).2
  Function.update S true ((S true).setOnPeerFound true)

/-- The first service announces, and the second one polls the announcement. -/
def metPair : ServiceNetwork Bool (List PeerInfo) :=
  let S := call startedPair false .announceNow
  let S := call S true (.environment ((runtimes S false).world.outbox.map fun d ↦
    .datagram (ascii "127.0.0.1") 9500 (d.payload.take 65536)) id 0)
  call S true (.poll .inOrder)

theorem run_metPair : Relation.ReflTransGen (Step listing fun _ ↦ system (ticking 1000))
    (created pairOptions fun _ ↦ []) metPair := by
  refine .tail (.tail (.tail (.tail (.tail (.tail .refl (.start false)) (.start true))
    (.setOnPeerFound true true)) (.event false .announceNow nofun))
    (.event true (.environment _ id 0) fun a ha ↦ ?_)) (.event true (.poll .inOrder) nofun)
  obtain ⟨d, hd, rfl⟩ := List.mem_map.mp ha
  exact .datagram false hd _ _ _

theorem services_refine_engines_pair :
    (metPair true).found.map Peer.nodeId = [ascii "node-a"] ∧
      ∀ P ∈ (metPair true).found, Fellow pairOptions true P := by
  have hfit : ∀ i, (pairOptions i).toConfig.SizesFit := fun i ↦ by
    cases i <;> (unfold DiscoveryConfig.SizesFit; decide)
  exact ⟨by decide +kernel,
    ((services_refine_engines listing_lawful hfit (fun _ ↦ []) run_metPair).2 true).1⟩

end Nodes

end ServiceNetwork

end Discovery
