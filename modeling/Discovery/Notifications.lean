import Discovery.RecentPeers

/-!
# Peer-found notifications

`notify_new_peers` remembers how many peers were available at the end of the
previous call, and invokes the handler for the tail of the new list beyond that
count.  Whether the tail holds the new peers depends on the iteration order of
the registry and on the peers that went away in between.
-/

namespace Discovery

open Lib

namespace DiscoveryService

open DiscoveryEngine

variable {T : Type} {deps : External T} {os : Os} {sv : DiscoveryService T}

/-! ## The calls of a run -/

/-- One call of `poll` or `poll_many`: the peers available at its end, in the
order in which they are listed, and the invocations of the handler. -/
structure Call where
  available : List DiscoveredPeer
  invoked : List Peer
deriving DecidableEq

namespace Call

def ids (call : Call) : List Bytes := call.available.map DiscoveredPeer.nodeId

def invokedIds (call : Call) : List Bytes := call.invoked.map Peer.nodeId

end Call

def callOf (order : PeerOrder) (sv sv' : DiscoveryService T) : Call where
  available := sv'.runtime.engine.registry.availablePeers order
  invoked := sv'.found.drop sv.found.length

def Event.calls (deps : External T) (os : Os) : Event T → DiscoveryService T → List Call
  | poll order, sv => [callOf order sv (sv.poll deps os order).2]
  | pollMany maxMessages order, sv => [callOf order sv (sv.pollMany deps os maxMessages order).2]
  | _, _ => []

def calls (deps : External T) (os : Os) : List (Event T) → DiscoveryService T → List Call
  | [], _ => []
  | e :: events, sv => e.calls deps os sv ++ calls deps os events (e.apply deps os sv)

/-! ## What is promised and when it is kept -/

/-- The handler is invoked once for each peer that is available now and was not
at the end of any earlier call, and not for a peer that is available now and was
at the end of the previous call. -/
structure NotifiedExactly (earlier : List Call) (call : Call) : Prop where
  once : ∀ n ∈ call.ids, (∀ e ∈ earlier, n ∉ e.ids) → call.invokedIds.count n = 1
  never : ∀ e ∈ earlier.getLast?, ∀ n ∈ call.ids, n ∈ e.ids → n ∉ call.invokedIds

def knownAfter (earlier : List Call) : ℕ :=
  (earlier.getLast?.map fun e ↦ e.available.length).getD 0

/-- As many peers as were known head the list and were available at the end of
some earlier call; the others were not at the end of the previous one. -/
structure Favourable (earlier : List Call) (call : Call) : Prop where
  head : ∀ n ∈ call.ids.take (knownAfter earlier), ∃ e ∈ earlier, n ∈ e.ids
  tail : ∀ e ∈ earlier.getLast?, ∀ n ∈ call.ids.drop (knownAfter earlier), n ∉ e.ids

/-- Every call of the list is preceded by the calls before it. -/
def Throughout (P : List Call → Call → Prop) (calls : List Call) : Prop :=
  ∀ earlier call later, calls = earlier ++ call :: later → P earlier call

/-- The handler was invoked for the tail of a list without repetitions. -/
structure NotifiedTail (earlier : List Call) (call : Call) : Prop where
  nodup : call.ids.Nodup
  invoked : call.invokedIds = call.ids.drop (knownAfter earlier)

theorem mem_drop_iff_notMem_take {α : Type*} {l : List α} (hl : l.Nodup) {n : α} (hn : n ∈ l)
    (k : ℕ) : n ∈ l.drop k ↔ n ∉ l.take k := by
  rw [← List.take_append_drop k l] at hl hn
  have hdisjoint := List.disjoint_of_nodup_append hl
  rcases List.mem_append.mp hn with h | h
  · exact ⟨fun h' ↦ absurd h' (hdisjoint h), fun h' ↦ absurd h h'⟩
  · exact ⟨fun _ h' ↦ hdisjoint h' h, fun _ ↦ h⟩

theorem notifiedExactly_iff {earlier : List Call} {call : Call} (h : NotifiedTail earlier call) :
    NotifiedExactly earlier call ↔ Favourable earlier call := by
  have hdrop (n : Bytes) (hn : n ∈ call.ids) :
      call.invokedIds.count n = 1 ↔ n ∉ call.ids.take (knownAfter earlier) := by
    have hnodup := h.nodup.sublist (List.drop_sublist (knownAfter earlier) call.ids)
    rw [h.invoked, ← mem_drop_iff_notMem_take h.nodup hn, hnodup.count]
    split_ifs with hmem <;> simp [hmem]
  constructor
  · rintro ⟨honce, hnever⟩
    constructor
    · intro n hn
      by_contra hnew
      have hids := List.mem_of_mem_take hn
      exact (hdrop n hids).mp (honce n hids fun e he hmem ↦ hnew ⟨e, he, hmem⟩) hn
    · intro e he n hn hne
      refine hnever e he n (List.mem_of_mem_drop hn) hne ?_
      rwa [h.invoked]
  · rintro ⟨hhead, htail⟩
    refine ⟨fun n hn hnew ↦ (hdrop n hn).mpr fun hmem ↦ ?_, fun e he n hn hne hmem ↦ ?_⟩
    · obtain ⟨e, he, hne⟩ := hhead n hmem
      exact hnew e he hne
    · rw [h.invoked] at hmem
      exact htail e he n hmem hne

/-! ## What the service notifies -/

theorem notifyNewPeers_knownPeerCount (order : PeerOrder) (sv : DiscoveryService T) :
    (sv.notifyNewPeers os order).knownPeerCount =
      (sv.runtime.engine.registry.availablePeers order).length := by
  obtain ⟨k, hk⟩ := notifyNewPeers_eq os order sv
  rw [hk]

theorem notifyNewPeers_onPeerFound (order : PeerOrder) (sv : DiscoveryService T) :
    (sv.notifyNewPeers os order).onPeerFound = sv.onPeerFound := by
  obtain ⟨k, hk⟩ := notifyNewPeers_eq os order sv
  rw [hk]

theorem notifyNewPeers_found (order : PeerOrder) (h : sv.onPeerFound = true) :
    (sv.notifyNewPeers os order).found = sv.found ++
      (((sv.runtime.engine.registry.availablePeers order).drop sv.knownPeerCount).map
        publicPeer).filter Peer.isValid := by
  obtain ⟨k, hk⟩ := notifyNewPeers_eq os order sv
  rw [hk, newPeers, if_pos h]

variable (os) in
theorem notifyNewPeers_registry (order : PeerOrder) (sv : DiscoveryService T) :
    (sv.notifyNewPeers os order).runtime.engine.registry = sv.runtime.engine.registry := by
  obtain ⟨k, hk⟩ := notifyNewPeers_runtime os order sv
  rw [hk, elapse]

theorem notifiedTail_notifyNewPeers {earlier : List Call} {c : DiscoveryConfig} {order : PeerOrder}
    (hclock : os.ClockPositive) (hhandler : sv.onPeerFound = true)
    (hknown : sv.knownPeerCount = knownAfter earlier)
    (hreg : Registered os c (sv.notifyNewPeers os order).runtime) :
    NotifiedTail earlier (callOf order sv (sv.notifyNewPeers os order)) := by
  refine ⟨DiscoveryRegistry.nodup_availablePeers hreg.keys order, ?_⟩
  set available := sv.runtime.engine.registry.availablePeers order with havailable
  have hvalid : ∀ P ∈ (available.drop sv.knownPeerCount).map publicPeer, P.isValid = true := by
    intro P hP
    obtain ⟨p, hp, rfl⟩ := List.mem_map.mp hP
    have hmem := List.mem_of_mem_drop hp
    rw [havailable, ← notifyNewPeers_registry os order sv] at hmem
    exact publicPeer_isValid_of_mem hclock hreg p hmem
  have hinvoked : (callOf order sv (sv.notifyNewPeers os order)).invoked =
      (available.drop sv.knownPeerCount).map publicPeer := by
    rw [callOf, notifyNewPeers_found order hhandler, List.drop_left]
    exact List.filter_eq_self.mpr hvalid
  have hids : (callOf order sv (sv.notifyNewPeers os order)).ids =
      available.map DiscoveredPeer.nodeId := by
    rw [Call.ids, callOf, notifyNewPeers_registry _]
  rw [Call.invokedIds, hinvoked, hids, ← hknown, ← List.map_drop, List.map_map]
  rfl

/-- A service with a handler that knows as many peers as the last call left. -/
structure Watching (deps : External T) (os : Os) (earlier : List Call)
    (sv : DiscoveryService T) : Prop where
  reachable : Reachable deps os sv
  handler : sv.onPeerFound = true
  known : sv.knownPeerCount = knownAfter earlier

theorem knownAfter_concat (earlier : List Call) (call : Call) :
    knownAfter (earlier ++ [call]) = call.available.length := by
  simp [knownAfter]

theorem Watching.notify {earlier : List Call} {order : PeerOrder} (hclock : os.ClockPositive)
    (hreach : Reachable deps os (sv.notifyNewPeers os order)) (hhandler : sv.onPeerFound = true)
    (hknown : sv.knownPeerCount = knownAfter earlier) :
    NotifiedTail earlier (callOf order sv (sv.notifyNewPeers os order)) ∧
      Watching deps os (earlier ++ [callOf order sv (sv.notifyNewPeers os order)])
        (sv.notifyNewPeers os order) := by
  refine ⟨notifiedTail_notifyNewPeers hclock hhandler hknown
    (hreach.runtime.registered hreach.config), hreach, ?_, ?_⟩
  · rw [notifyNewPeers_onPeerFound, hhandler]
  · rw [notifyNewPeers_knownPeerCount, knownAfter_concat, callOf, notifyNewPeers_registry _]

theorem Watching.apply {earlier : List Call} (hclock : os.ClockPositive)
    (h : Watching deps os earlier sv) (e : Event T) :
    e.calls deps os sv = [] ∧ Watching deps os earlier (e.apply deps os sv) ∨
      ∃ call, e.calls deps os sv = [call] ∧ NotifiedTail earlier call ∧
        Watching deps os (earlier ++ [call]) (e.apply deps os sv) := by
  have hreach : Reachable deps os (e.apply deps os sv) := .event e h.reachable
  cases e with
  | poll order => exact .inr ⟨_, rfl, Watching.notify hclock hreach h.handler h.known⟩
  | pollMany maxMessages order =>
      exact .inr ⟨_, rfl, Watching.notify hclock hreach h.handler h.known⟩
  | _ => exact .inl ⟨rfl, hreach, h.handler, h.known⟩

theorem throughout_nil (P : List Call → Call → Prop) : Throughout P [] := by
  intro earlier call later h
  simp at h

theorem throughout_cons {P : List Call → Call → Prop} {call : Call} {calls : List Call} :
    Throughout P (call :: calls) ↔
      P [] call ∧ Throughout (fun earlier ↦ P (call :: earlier)) calls := by
  constructor
  · intro h
    refine ⟨h [] call calls rfl, fun earlier call' later hcalls ↦ ?_⟩
    exact h (call :: earlier) call' later (by rw [hcalls, List.cons_append])
  · rintro ⟨hfirst, hrest⟩ earlier call' later hcalls
    cases earlier with
    | nil =>
        obtain ⟨rfl, -⟩ := List.cons.inj hcalls
        exact hfirst
    | cons first earlier =>
        obtain ⟨rfl, htail⟩ := List.cons.inj hcalls
        exact hrest earlier call' later htail

theorem Watching.notifiedTail {earlier : List Call} (hclock : os.ClockPositive)
    (h : Watching deps os earlier sv) (events : List (Event T)) :
    Throughout (fun before ↦ NotifiedTail (earlier ++ before)) (calls deps os events sv) := by
  induction events generalizing sv earlier with
  | nil => exact throughout_nil _
  | cons e events ih =>
      rw [calls]
      rcases h.apply hclock e with ⟨hnone, hnext⟩ | ⟨call, hone, htail, hnext⟩
      · rw [hnone, List.nil_append]
        exact ih hnext
      · rw [hone, List.singleton_append]
        refine throughout_cons.mpr ⟨by simpa using htail, ?_⟩
        simpa using ih hnext

/-- The notifications of a run are exact if and only if at each call the peers
that go unnotified head the list and are not new, and those after them are not
the ones of the previous call. -/
theorem notified_exactly_iff (hclock : os.ClockPositive) (hs : Reachable deps os sv)
    (hhandler : sv.onPeerFound = true) (hstopped : sv.isRunning = false)
    (hstart : (sv.start os).1 = true) (events : List (Event T)) :
    Throughout NotifiedExactly (calls deps os events (sv.start os).2) ↔
      Throughout Favourable (calls deps os events (sv.start os).2) := by
  have hstarted := started_of_start hs hstopped hstart
  have hwatching : Watching deps os [] (sv.start os).2 := by
    refine ⟨hstarted.reachable, ?_, hstarted.knownPeerCount⟩
    rw [← hhandler, start]
    split_ifs <;> rfl
  have htail := hwatching.notifiedTail hclock events
  constructor
  · intro h earlier call later hcalls
    exact (notifiedExactly_iff (htail earlier call later hcalls)).mp (h earlier call later hcalls)
  · intro h earlier call later hcalls
    exact (notifiedExactly_iff (htail earlier call later hcalls)).mpr (h earlier call later hcalls)

section Nodes

open Simulation

def watchedService : DiscoveryService (List PeerInfo) := stoppedService.setOnPeerFound true

def arrivals (second : PeerOrder) : List (Event (List PeerInfo)) :=
  [.environment [announced "node-a" 9500 9400] id 0, .poll .inOrder,
    .environment [announced "node-c" 9600 9400] id 0, .poll second]

theorem notified_exactly_newcomer_last :
    Throughout NotifiedExactly (calls listing (system (ticking 100)) (arrivals .reversed)
      (watchedService.start (system (ticking 100))).2) := by
  refine (notified_exactly_iff (clockPositive_ticking (by decide))
    (.setOnPeerFound true (.create _ _ _)) (by decide) (by decide) (by decide) _).mpr ?_
  refine throughout_cons.mpr ⟨⟨by decide +kernel, by decide +kernel⟩, throughout_cons.mpr
    ⟨⟨by decide +kernel, by decide +kernel⟩, throughout_nil _⟩⟩

/-- The map lists the newcomer first: its arrival makes the handler hear of
`node-a` again. -/
theorem notified_again_newcomer_first :
    (watchedService.start (system (ticking 100))).1 = true ∧
      ¬ Throughout NotifiedExactly (calls listing (system (ticking 100)) (arrivals .inOrder)
        (watchedService.start (system (ticking 100))).2) := by
  refine ⟨by decide, fun h ↦ ?_⟩
  exact (h [_] _ [] rfl).never _ rfl (ascii "node-a") (by decide +kernel) (by decide +kernel)
    (by decide +kernel)

end Nodes

end DiscoveryService

end Discovery
