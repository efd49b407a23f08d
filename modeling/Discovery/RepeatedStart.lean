import Discovery.Notifications
import Discovery.ServiceLifecycle

/-!
# Starting a running service

The engine ignores a start while it runs, but the service first overwrites its
count of known peers: it counts every entry of the registry, where a notification
counts the available ones.  The runs with and without the extra start agree until
a notification meets the difference.
-/

namespace Discovery

namespace DiscoveryService

open DiscoveryEngine

variable {T : Type} {deps : External T} {os : Os} {sv : DiscoveryService T}

/-! ## Two runs -/

/-- One step of a run: a call on the service or its engine, or a change outside. -/
inductive Action (T : Type) where
  | start
  | stop
  | setOnPeerFound (callable : Bool)
  | event (e : Event T)
  | engine (op : DiscoveryEngine.Op)

def Action.apply (deps : External T) (os : Os) : Action T → DiscoveryService T → DiscoveryService T
  | start, sv => (sv.start os).2
  | stop, sv => sv.stop
  | setOnPeerFound callable, sv => sv.setOnPeerFound callable
  | event e, sv => e.apply deps os sv
  | engine op, sv => { sv with runtime := exec deps os op sv.runtime }

def afterActions (deps : External T) (os : Os) :
    List (Action T) → DiscoveryService T → DiscoveryService T
  | [], sv => sv
  | a :: actions, sv => afterActions deps os actions (a.apply deps os sv)

theorem Driven.action (h : Driven deps os sv) (a : Action T) :
    Driven deps os (a.apply deps os sv) := by
  cases a with
  | start => exact h.start
  | stop => exact h.stop
  | setOnPeerFound callable => exact h.setOnPeerFound callable
  | event e => exact h.event e
  | engine op => exact h.engine op

variable (deps os) in
theorem Driven.after (h : Driven deps os sv) (events : List (Event T)) :
    Driven deps os (after deps os events sv) := by
  induction events generalizing sv with
  | nil => exact h
  | cons e events ih => exact ih (h.event e)

/-- What can be observed of two services is the same. -/
structure Alike (os : Os) (sv sv' : DiscoveryService T) : Prop where
  status : sv.runtime.engine.status = sv'.runtime.engine.status
  running : sv.isRunning = sv'.isRunning
  registry : sv.runtime.engine.registry = sv'.runtime.engine.registry
  peers : ∀ order, (sv.peers os order).1 = (sv'.peers os order).1
  found : sv.found = sv'.found

def SameThroughout (deps : External T) (os : Os) (actions : List (Action T))
    (sv sv' : DiscoveryService T) : Prop :=
  ∀ earlier, earlier <+: actions →
    Alike os (afterActions deps os earlier sv) (afterActions deps os earlier sv')

/-! ## When the counter matters -/

/-- A start and a stop assign the counter without a look at it. -/
def Action.resets : Action T → Bool
  | start => true
  | stop => true
  | _ => false

/-- The state in which a call enters `notify_new_peers`, if it does. -/
def Action.notification (deps : External T) (os : Os) :
    Action T → DiscoveryService T → Option (PeerOrder × DiscoveryService T)
  | event (.poll order), sv => some (order, { sv with runtime := (pollOnce deps os sv.runtime).2 })
  | event (.pollMany maxMessages order), sv =>
    some (order,
      { sv with runtime := (DiscoveryEngine.pollMany deps os maxMessages sv.runtime).2 })
  | _, _ => none

/-- Counting `n` peers instead of `known_peer_count_` makes no difference to the
first call that assigns the counter: it does not look at it, it has no handler to
invoke, or it finds no more peers available than either count. -/
def Unnoticed (deps : External T) (os : Os) (n : ℕ) :
    List (Action T) → DiscoveryService T → Prop
  | [], _ => True
  | a :: actions, sv =>
    a.resets = true ∨
      match a.notification deps os sv with
      | some (order, t) => t.onPeerFound = true →
          (t.runtime.engine.registry.availablePeers order).length ≤ min t.knownPeerCount n
      | none => Unnoticed deps os n actions (a.apply deps os sv)

def recount (n : ℕ) (sv : DiscoveryService T) : DiscoveryService T :=
  { sv with knownPeerCount := n }

theorem alike_recount (n : ℕ) (sv : DiscoveryService T) : Alike os sv (recount n sv) where
  status := rfl
  running := rfl
  registry := rfl
  peers _ := rfl
  found := rfl

theorem Alike.refl (os : Os) (sv : DiscoveryService T) : Alike os sv sv :=
  alike_recount sv.knownPeerCount sv

theorem sameThroughout_refl (actions : List (Action T)) (sv : DiscoveryService T) :
    SameThroughout deps os actions sv sv :=
  fun _ _ ↦ .refl os _

theorem sameThroughout_cons {a : Action T} {actions : List (Action T)}
    {sv sv' : DiscoveryService T} :
    SameThroughout deps os (a :: actions) sv sv' ↔
      Alike os sv sv' ∧
        SameThroughout deps os actions (a.apply deps os sv) (a.apply deps os sv') := by
  constructor
  · intro h
    refine ⟨h [] List.nil_prefix, fun earlier hp ↦ ?_⟩
    exact h (a :: earlier) (List.cons_prefix_cons.mpr ⟨rfl, hp⟩)
  · rintro ⟨hnow, hrest⟩ earlier hp
    cases earlier with
    | nil => exact hnow
    | cons b earlier =>
        obtain ⟨rfl, htail⟩ := List.cons_prefix_cons.mp hp
        exact hrest earlier htail

/-! ## The counter in one step -/

theorem Action.apply_options (a : Action T) (sv : DiscoveryService T) :
    (a.apply deps os sv).options = sv.options := by
  cases a with
  | start =>
      change (sv.start os).2.options = sv.options
      unfold DiscoveryService.start
      split_ifs <;> rfl
  | event e => exact DiscoveryService.apply_options e sv
  | _ => rfl

theorem Action.apply_recount_of_resets {a : Action T} (h : a.resets = true) (n : ℕ)
    (hvalid : sv.options.isValid = true) :
    a.apply deps os (recount n sv) = a.apply deps os sv := by
  cases a with
  | start => simp [Action.apply, DiscoveryService.start, recount, hvalid]
  | stop => rfl
  | setOnPeerFound callable => cases h
  | event e => cases h
  | engine op => cases h

theorem Action.apply_of_notification {a : Action T} {order : PeerOrder} {t : DiscoveryService T}
    (h : a.notification deps os sv = some (order, t)) :
    a.apply deps os sv = t.notifyNewPeers os order ∧
      t.knownPeerCount = sv.knownPeerCount ∧
      ∀ n, a.apply deps os (recount n sv) = (recount n t).notifyNewPeers os order := by
  unfold Action.notification at h
  split at h
  · obtain ⟨rfl, rfl⟩ := Prod.mk.inj (Option.some.inj h)
    exact ⟨rfl, rfl, fun n ↦ rfl⟩
  · obtain ⟨rfl, rfl⟩ := Prod.mk.inj (Option.some.inj h)
    exact ⟨rfl, rfl, fun n ↦ rfl⟩
  · cases h

theorem Action.apply_of_silent {a : Action T} (hresets : a.resets = false)
    (h : a.notification deps os sv = none) :
    (a.apply deps os sv).knownPeerCount = sv.knownPeerCount ∧
      ∀ n, a.apply deps os (recount n sv) = recount n (a.apply deps os sv) := by
  cases a with
  | start => cases hresets
  | stop => cases hresets
  | setOnPeerFound callable => exact ⟨rfl, fun n ↦ rfl⟩
  | engine op => exact ⟨rfl, fun n ↦ rfl⟩
  | event e =>
      cases e with
      | poll order => cases h
      | pollMany maxMessages order => cases h
      | _ => exact ⟨rfl, fun n ↦ rfl⟩

theorem notifyNewPeers_recount {order : PeerOrder} {t : DiscoveryService T} {n : ℕ}
    (h : t.onPeerFound = true →
      (t.runtime.engine.registry.availablePeers order).length ≤ min t.knownPeerCount n) :
    (recount n t).notifyNewPeers os order = t.notifyNewPeers os order := by
  unfold notifyNewPeers recount
  cases hhandler : t.onPeerFound with
  | false => simp
  | true =>
      obtain ⟨hknown, hn⟩ := le_min_iff.mp (h hhandler)
      simp [hknown, hn]

/-! ## The two runs agree -/

theorem sameThroughout_of_unnoticed {n : ℕ} {actions : List (Action T)}
    (hvalid : sv.options.isValid = true) (h : Unnoticed deps os n actions sv) :
    SameThroughout deps os actions sv (recount n sv) := by
  induction actions generalizing sv with
  | nil =>
      intro earlier hp
      rw [List.prefix_nil.mp hp]
      exact alike_recount n sv
  | cons a actions ih =>
      refine sameThroughout_cons.mpr ⟨alike_recount n sv, ?_⟩
      rcases h with hresets | h
      · rw [Action.apply_recount_of_resets hresets n hvalid]
        exact sameThroughout_refl actions _
      · cases hnotify : a.notification deps os sv with
        | some x =>
            rw [hnotify] at h
            obtain ⟨heq, -, hrecount⟩ := Action.apply_of_notification hnotify
            rw [hrecount n, notifyNewPeers_recount h, ← heq]
            exact sameThroughout_refl actions _
        | none =>
            rw [hnotify] at h
            cases hresets : a.resets with
            | true =>
                rw [Action.apply_recount_of_resets hresets n hvalid]
                exact sameThroughout_refl actions _
            | false =>
                rw [(Action.apply_of_silent hresets hnotify).2 n]
                exact ih (by rw [a.apply_options sv, hvalid]) h

/-- If the handler hears the same from either count, neither leaves it a peer. -/
theorem length_le_of_newPeers {order : PeerOrder} {t : DiscoveryService T} {n : ℕ}
    (hvalid : ∀ p ∈ t.runtime.engine.registry.availablePeers order, (publicPeer p).isValid = true)
    (hne : t.knownPeerCount ≠ n) (hhandler : t.onPeerFound = true)
    (h : t.newPeers order = (recount n t).newPeers order) :
    (t.runtime.engine.registry.availablePeers order).length ≤ min t.knownPeerCount n := by
  have hall (k : ℕ) :
      (((t.runtime.engine.registry.availablePeers order).drop k).map publicPeer).filter
        Peer.isValid =
      ((t.runtime.engine.registry.availablePeers order).drop k).map publicPeer := by
    refine List.filter_eq_self.mpr fun P hP ↦ ?_
    obtain ⟨p, hp, rfl⟩ := List.mem_map.mp hP
    exact hvalid p (List.mem_of_mem_drop hp)
  have hlength := congrArg List.length h
  simp only [newPeers, recount, hhandler, if_true, hall, List.length_map, List.length_drop]
    at hlength
  omega

theorem unnoticed_of_sameThroughout {n : ℕ} {actions : List (Action T)}
    (hclock : os.ClockPositive) (h : Driven deps os sv) (hne : sv.knownPeerCount ≠ n)
    (hsame : SameThroughout deps os actions sv (recount n sv)) :
    Unnoticed deps os n actions sv := by
  induction actions generalizing sv with
  | nil => trivial
  | cons a actions ih =>
      obtain ⟨-, hrest⟩ := sameThroughout_cons.mp hsame
      cases hresets : a.resets with
      | true => exact .inl hresets
      | false =>
          refine .inr ?_
          cases hnotify : a.notification deps os sv with
          | none =>
              obtain ⟨hknown, hrecount⟩ := Action.apply_of_silent hresets hnotify
              rw [hrecount n] at hrest
              exact ih (h.action a) (by rwa [hknown]) hrest
          | some x =>
              obtain ⟨order, t⟩ := x
              intro hhandler
              obtain ⟨heq, hknown, hrecount⟩ := Action.apply_of_notification hnotify
              have hafter := h.action a
              have hfound := (hrest [] List.nil_prefix).found
              obtain ⟨k, hk⟩ := notifyNewPeers_eq os order t
              obtain ⟨k', hk'⟩ := notifyNewPeers_eq os order (recount n t)
              simp only [afterActions, heq, hrecount n, hk, hk'] at hfound
              have hnew := List.append_cancel_left hfound
              have hreg := hafter.runtime.registered hafter.setup.config
              rw [heq] at hreg
              refine length_le_of_newPeers (fun p hp ↦ ?_) (hknown ▸ hne) hhandler hnew
              rw [← notifyNewPeers_registry os order t] at hp
              exact publicPeer_isValid_of_mem hclock hreg p hp

theorem start_eq_recount (h : Driven deps os sv) (hrunning : sv.isRunning = true) :
    sv.options.isValid = true ∧
      sv.start os = (true, recount sv.runtime.engine.registry.size sv) := by
  have hlive := h.runtime.live hrunning h.setup.config
  have hvalid : sv.options.isValid = true := by
    rw [← toConfig_isValid, ← h.config]
    exact (DiscoveryConfig.isValid_iff _).mpr hlive.valid
  have hstatus : sv.runtime.engine.status.isRunning = true :=
    ((Bool.and_eq_true _ _).mp hrunning).1
  refine ⟨hvalid, ?_⟩
  simp [DiscoveryService.start, DiscoveryEngine.start, hvalid, hstatus, recount]

/-- A start of a running service returns true.  The run goes on as without it if
and only if the count of available peers that the service kept is that of all
entries of its registry, or no notification meets the difference. -/
theorem start_again_noop_iff (h : Driven deps os sv) (hrunning : sv.isRunning = true)
    (actions : List (Action T)) :
    let n := sv.runtime.engine.registry.size
    (sv.start os).1 = true ∧
      (sv.knownPeerCount = n ∨ Unnoticed deps os n actions sv →
        SameThroughout deps os actions sv (sv.start os).2) ∧
      (os.ClockPositive → SameThroughout deps os actions sv (sv.start os).2 →
        sv.knownPeerCount = n ∨ Unnoticed deps os n actions sv) := by
  obtain ⟨hvalid, hstart⟩ := start_eq_recount h hrunning
  rw [hstart]
  refine ⟨rfl, fun hcond ↦ ?_, fun hclock hsame ↦ ?_⟩
  · rcases hcond with heq | hunnoticed
    · rw [← heq]
      exact sameThroughout_refl actions sv
    · exact sameThroughout_of_unnoticed hvalid hunnoticed
  · by_cases heq : sv.knownPeerCount = sv.runtime.engine.registry.size
    · exact .inl heq
    · exact .inr (unnoticed_of_sameThroughout hclock h heq hsame)

section Nodes

open Simulation

/-- `node-b` once it has heard of `node-a`. -/
def acquainted : DiscoveryService (List PeerInfo) :=
  after listing (system (ticking 100))
    [.environment [announced "node-a" 9500 9400] id 0, .poll .inOrder]
    (watchedService.start (system (ticking 100))).2

/-- A silence later, when `node-a` is stale: stored, but not available. -/
def forsaken : DiscoveryService (List PeerInfo) :=
  after listing (system (ticking 100)) [.environment [] id 80, .poll .inOrder] acquainted

def newcomer : List (Action (List PeerInfo)) :=
  [.event (.environment [announced "node-c" 9600 9400] id 0), .event (.poll .inOrder)]

theorem driven_acquainted : Driven listing (system (ticking 100)) acquainted :=
  Driven.after _ _ (.start (.setOnPeerFound true (.create _ _ _))) _

theorem start_again_noop_acquainted :
    SameThroughout listing (system (ticking 100)) newcomer acquainted
      (acquainted.start (system (ticking 100))).2 :=
  (start_again_noop_iff driven_acquainted (by decide) newcomer).2.1 (.inl (by decide))

/-- The extra start counts the stale `node-a`, and the handler never hears of
`node-c`. -/
theorem start_again_hides_newcomer :
    Driven listing (system (ticking 100)) forsaken ∧ forsaken.isRunning = true ∧
      ¬ SameThroughout listing (system (ticking 100)) newcomer forsaken
        (forsaken.start (system (ticking 100))).2 := by
  refine ⟨driven_acquainted.after _ _ _, by decide +kernel, fun h ↦ ?_⟩
  have hfound := congrArg List.length (h newcomer (List.prefix_refl newcomer)).found
  have htwo : (afterActions listing (system (ticking 100)) newcomer forsaken).found.length = 2 := by
    decide +kernel
  have hone : (afterActions listing (system (ticking 100)) newcomer
      (forsaken.start (system (ticking 100))).2).found.length = 1 := by
    decide +kernel
  rw [htwo, hone] at hfound
  cases hfound

end Nodes

end DiscoveryService

end Discovery
