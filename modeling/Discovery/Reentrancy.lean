import Discovery.History
import Discovery.Notifications

/-!
# Handlers that call back

A peer-found handler may use the service that calls it.  A handler that does not
poll hears of the same peers as one that does nothing.  A handler that polls is
called again from within itself, and while the clock stands still it never
returns.
-/

namespace Discovery

open Lib

namespace DiscoveryService

open DiscoveryEngine

variable {T : Type}

/-! ## Reactions of a handler -/

/-- What a handler may do: calls of the service that it is called by, and whatever
goes on outside meanwhile.  It must not replace itself. -/
inductive Callback (T : Type) where
  | start
  | stop
  | announceNow
  | probeNow
  | poll (order : PeerOrder)
  | pollMany (maxMessages : ℕ) (order : PeerOrder)
  | peers (order : PeerOrder)
  | environment (inbox : List Arrival) (transport : T → T) (readings : ℕ)

/-- The course of one invocation: it ends, normally or with an exception, or makes
a call and goes on knowing whether the call threw, and the state after it. -/
inductive Reaction (T : Type) where
  | done
  | raise
  | call (callback : Callback T) (next : Bool → DiscoveryService T → Reaction T)

/-- A call of `notify_new_peers`; it tells whether it ended normally, and has no
result if the calls are nested too deep. -/
abbrev Notifier (T : Type) :=
  PeerOrder → DiscoveryService T → Option (Bool × DiscoveryService T)

section Definitions

variable (deps : External T) (os : Os)

def Callback.apply (notify : Notifier T) : Callback T → DiscoveryService T →
    Option (Bool × DiscoveryService T)
  | start, sv => some (true, (sv.start os).2)
  | stop, sv => some (true, sv.stop)
  | announceNow, sv => some (true, (sv.announceNow deps os).2)
  | probeNow, sv => some (true, (sv.probeNow deps os).2)
  | poll order, sv =>
    let (_, runtime) := DiscoveryEngine.pollOnce deps os sv.runtime
    notify order { sv with runtime }
  | pollMany maxMessages order, sv =>
    let (_, runtime) := DiscoveryEngine.pollMany deps os maxMessages sv.runtime
    notify order { sv with runtime }
  | peers order, sv => some (true, (sv.peers os order).2)
  | environment inbox transport readings, sv =>
    some (true,
      { sv with runtime := DiscoveryEngine.environment inbox transport readings sv.runtime })

def Reaction.run (notify : Notifier T) : Reaction T → DiscoveryService T →
    Option (Bool × DiscoveryService T)
  | done, sv => some (true, sv)
  | raise, sv => some (false, sv)
  | call callback next, sv =>
    match callback.apply deps os notify sv with
    | none => none
    | some (ok, sv) => (next ok sv).run notify sv

/-- The loop of `notify_new_peers` over the peers that are new to the count. -/
def notifyLoop (react : Peer → DiscoveryService T → Reaction T) (notify : Notifier T) :
    List DiscoveredPeer → DiscoveryService T → Option (Bool × DiscoveryService T)
  | [], sv => some (true, sv)
  | peer :: rest, sv =>
    let (now, world) := sv.runtime.world.now os
    let sv := { sv with runtime.world := world }
    let publicPeer := Peer.fromDiscoveredPeer peer now
    if !publicPeer.isValid then notifyLoop react notify rest sv
    else
      let sv := { sv with found := sv.found ++ [publicPeer] }
      match (react publicPeer sv).run deps os notify sv with
      | none => none
      | some (false, sv) => some (false, sv)
      | some (true, sv) => notifyLoop react notify rest sv

/-- `notify_new_peers` with a handler that may call back, nested at most `depth`
times.  The list of available peers is a copy, and so is its length. -/
def notifyNewPeersWith (react : Peer → DiscoveryService T → Reaction T) : ℕ → Notifier T
  | 0, _, _ => none
  | depth + 1, order, sv =>
    let discovered := sv.runtime.engine.registry.availablePeers order
    if !sv.onPeerFound then some (true, { sv with knownPeerCount := discovered.length })
    else if discovered.length ≤ sv.knownPeerCount then
      some (true, { sv with knownPeerCount := discovered.length })
    else
      match notifyLoop deps os react (notifyNewPeersWith react depth)
          (discovered.drop sv.knownPeerCount) sv with
      | none => none
      | some (false, sv) => some (false, sv)
      | some (true, sv) => some (true, { sv with knownPeerCount := discovered.length })

def pollWith (react : Peer → DiscoveryService T → Reaction T) (depth : ℕ) (order : PeerOrder)
    (sv : DiscoveryService T) : Option (Bool × DiscoveryService T) :=
  (Callback.poll order).apply deps os (notifyNewPeersWith deps os react depth) sv

end Definitions

variable {deps : External T} {os : Os} {sv sv' : DiscoveryService T} {notify : Notifier T}
  {react : Peer → DiscoveryService T → Reaction T} {ok : Bool}

/-- The state in which the handler is called with `P`. -/
def calledWith (P : Peer) (sv : DiscoveryService T) : DiscoveryService T :=
  { sv with runtime := elapse 1 sv.runtime, found := sv.found ++ [P] }

theorem notifyLoop_of_invalid {p : DiscoveredPeer} (h : (publicPeer p).isValid = false)
    (rest : List DiscoveredPeer) (sv : DiscoveryService T) :
    notifyLoop deps os react notify (p :: rest) sv =
      notifyLoop deps os react notify rest { sv with runtime := elapse 1 sv.runtime } := by
  have hinvalid : (!(publicPeer p).isValid) = true := by simp [h]
  exact if_pos hinvalid

theorem notifyLoop_of_valid {p : DiscoveredPeer} (h : (publicPeer p).isValid = true)
    (rest : List DiscoveredPeer) (sv : DiscoveryService T) :
    notifyLoop deps os react notify (p :: rest) sv =
      match (react (publicPeer p) (calledWith (publicPeer p) sv)).run deps os notify
        (calledWith (publicPeer p) sv) with
      | none => none
      | some (false, sv) => some (false, sv)
      | some (true, sv) => notifyLoop deps os react notify rest sv := by
  have hvalid : ¬ (!(publicPeer p).isValid) = true := by simp [h]
  exact if_neg hvalid

/-! ## Any handler -/

/-- Nothing the handler was called with is forgotten. -/
def Extends (sv sv' : DiscoveryService T) : Prop := sv.found <+: sv'.found

theorem Extends.of_eq (h : sv'.found = sv.found) : Extends sv sv' :=
  ⟨[], by rw [h, List.append_nil]⟩

theorem Extends.trans {sv'' : DiscoveryService T} (h : Extends sv sv') (h' : Extends sv' sv'') :
    Extends sv sv'' :=
  List.IsPrefix.trans h h'

def Notifier.Extending (notify : Notifier T) : Prop :=
  ∀ order sv ok sv', notify order sv = some (ok, sv') → Extends sv sv'

theorem Callback.apply_extends (hnotify : notify.Extending) {callback : Callback T}
    (h : callback.apply deps os notify sv = some (ok, sv')) : Extends sv sv' := by
  cases callback with
  | start =>
      obtain ⟨-, rfl⟩ := Prod.mk.inj (Option.some.inj h)
      exact .of_eq (start_found sv)
  | poll order =>
      exact hnotify order { sv with runtime := (DiscoveryEngine.pollOnce deps os sv.runtime).2 }
        ok sv' h
  | pollMany maxMessages order =>
      exact hnotify order
        { sv with runtime := (DiscoveryEngine.pollMany deps os maxMessages sv.runtime).2 } ok sv' h
  | _ =>
      obtain ⟨-, rfl⟩ := Prod.mk.inj (Option.some.inj h)
      exact .of_eq rfl

theorem Reaction.run_extends (hnotify : notify.Extending) {reaction : Reaction T}
    (h : reaction.run deps os notify sv = some (ok, sv')) : Extends sv sv' := by
  induction reaction generalizing sv with
  | done =>
      obtain ⟨-, rfl⟩ := Prod.mk.inj (Option.some.inj h)
      exact .of_eq rfl
  | raise =>
      obtain ⟨-, rfl⟩ := Prod.mk.inj (Option.some.inj h)
      exact .of_eq rfl
  | call callback next ih =>
      rw [run] at h
      split at h
      · cases h
      next ok₁ sv₁ hcallback =>
        exact (Callback.apply_extends hnotify hcallback).trans (ih ok₁ sv₁ h)

theorem notifyLoop_extends (hnotify : notify.Extending) {ps : List DiscoveredPeer}
    (h : notifyLoop deps os react notify ps sv = some (ok, sv')) :
    Extends sv sv' ∧ (ok = true →
      ∃ more, sv'.found = sv.found ++ more ∧
        ((ps.map publicPeer).filter Peer.isValid).Sublist more) := by
  induction ps generalizing sv with
  | nil =>
      obtain ⟨-, rfl⟩ := Prod.mk.inj (Option.some.inj h)
      exact ⟨.of_eq rfl, fun _ ↦ ⟨[], by simp, .refl _⟩⟩
  | cons p rest ih =>
      cases hvalid : (publicPeer p).isValid with
      | false =>
          rw [notifyLoop_of_invalid hvalid] at h
          obtain ⟨hext, hall⟩ := ih h
          refine ⟨hext, fun hok ↦ ?_⟩
          rw [List.map_cons, List.filter_cons, hvalid]
          exact hall hok
      | true =>
          have hcalled : Extends sv (calledWith (publicPeer p) sv) := List.prefix_append _ _
          rw [notifyLoop_of_valid hvalid] at h
          split at h
          · cases h
          next sv₁ hrun =>
            obtain ⟨rfl, rfl⟩ := Prod.mk.inj (Option.some.inj h)
            exact ⟨hcalled.trans (Reaction.run_extends hnotify hrun), by simp⟩
          next sv₁ hrun =>
            obtain ⟨later, hlater⟩ := Reaction.run_extends hnotify hrun
            obtain ⟨hext, hall⟩ := ih h
            refine ⟨(hcalled.trans ⟨later, hlater⟩).trans hext, fun hok ↦ ?_⟩
            obtain ⟨more, hmore, hsub⟩ := hall hok
            refine ⟨[publicPeer p] ++ later ++ more, ?_, ?_⟩
            · rw [hmore, ← hlater]
              simp [calledWith]
            · rw [List.map_cons, List.filter_cons_of_pos hvalid, List.append_assoc,
                List.singleton_append]
              exact (hsub.trans (List.sublist_append_right _ _)).cons_cons _

theorem newPeers_of_unhandled {order : PeerOrder} (h : (!sv.onPeerFound) = true) :
    sv.newPeers order = [] := by
  rw [newPeers, if_neg (by simpa using h)]

theorem newPeers_of_few {order : PeerOrder}
    (h : (sv.runtime.engine.registry.availablePeers order).length ≤ sv.knownPeerCount) :
    sv.newPeers order = [] := by
  simp [newPeers, List.drop_eq_nil_of_le h]

variable (deps os react) in
theorem notifyNewPeersWith_extends (depth : ℕ) :
    (notifyNewPeersWith deps os react depth).Extending := by
  induction depth with
  | zero => intro order sv ok sv' h; cases h
  | succ depth ih =>
      intro order sv ok sv' h
      simp only [notifyNewPeersWith] at h
      split_ifs at h
      · obtain ⟨-, rfl⟩ := Prod.mk.inj (Option.some.inj h)
        exact .of_eq rfl
      · obtain ⟨-, rfl⟩ := Prod.mk.inj (Option.some.inj h)
        exact .of_eq rfl
      · split at h
        · cases h
        next sv₁ hloop =>
          obtain ⟨-, rfl⟩ := Prod.mk.inj (Option.some.inj h)
          exact (notifyLoop_extends ih hloop).1
        next sv₁ hloop =>
          obtain ⟨-, rfl⟩ := Prod.mk.inj (Option.some.inj h)
          exact (notifyLoop_extends ih hloop).1

/-- Whatever the handler does, a call that ends normally has handed it all the
new peers in their order, and leaves the number of peers that were available
before the handler was called. -/
theorem notify_of_returned {depth : ℕ} {order : PeerOrder}
    (h : notifyNewPeersWith deps os react depth order sv = some (true, sv')) :
    sv'.knownPeerCount = (sv.runtime.engine.registry.availablePeers order).length ∧
      ∃ more, sv'.found = sv.found ++ more ∧ (sv.newPeers order).Sublist more := by
  cases depth with
  | zero => cases h
  | succ depth =>
      simp only [notifyNewPeersWith] at h
      split_ifs at h with hhandler hfew
      · obtain ⟨-, rfl⟩ := Prod.mk.inj (Option.some.inj h)
        exact ⟨rfl, [], by simp, by simp [newPeers_of_unhandled hhandler]⟩
      · obtain ⟨-, rfl⟩ := Prod.mk.inj (Option.some.inj h)
        exact ⟨rfl, [], by simp, by simp [newPeers_of_few hfew]⟩
      · split at h
        · cases h
        · cases h
        next sv₁ hloop =>
          obtain ⟨-, rfl⟩ := Prod.mk.inj (Option.some.inj h)
          obtain ⟨more, hmore, hsub⟩ :=
            (notifyLoop_extends (notifyNewPeersWith_extends deps os react depth) hloop).2 rfl
          refine ⟨rfl, more, hmore, ?_⟩
          rw [newPeers, if_pos (by simpa using hhandler)]
          exact hsub

/-! ## Handlers that do not poll -/

def Callback.Polls : Callback T → Prop
  | poll _ => True
  | pollMany _ _ => True
  | _ => False

/-- The reaction neither polls nor throws. -/
def Reaction.Tame : Reaction T → Prop
  | done => True
  | raise => False
  | call callback next => ¬ callback.Polls ∧ ∀ ok sv, (next ok sv).Tame

variable (deps os notify) in
theorem Callback.apply_of_not_polls {callback : Callback T} (h : ¬ callback.Polls)
    (sv : DiscoveryService T) :
    ∃ sv', callback.apply deps os notify sv = some (true, sv') ∧ sv'.found = sv.found := by
  cases callback with
  | start => exact ⟨_, rfl, start_found sv⟩
  | poll order => exact absurd trivial h
  | pollMany maxMessages order => exact absurd trivial h
  | _ => exact ⟨_, rfl, rfl⟩

variable (deps os notify) in
theorem Reaction.Tame.run {reaction : Reaction T} (h : reaction.Tame) (sv : DiscoveryService T) :
    ∃ sv', reaction.run deps os notify sv = some (true, sv') ∧ sv'.found = sv.found := by
  induction reaction generalizing sv with
  | done => exact ⟨sv, rfl, rfl⟩
  | raise => exact h.elim
  | call callback next ih =>
      obtain ⟨hpolls, hnext⟩ := h
      obtain ⟨sv₁, hcallback, hfound⟩ := Callback.apply_of_not_polls deps os notify hpolls sv
      obtain ⟨sv₂, hrun, hfound'⟩ := ih true sv₁ (hnext true sv₁) sv₁
      refine ⟨sv₂, ?_, hfound'.trans hfound⟩
      rw [Reaction.run, hcallback]
      exact hrun

variable (deps os notify) in
theorem notifyLoop_of_tame (hreact : ∀ P sv, (react P sv).Tame) (ps : List DiscoveredPeer)
    (sv : DiscoveryService T) :
    ∃ sv', notifyLoop deps os react notify ps sv = some (true, sv') ∧
      sv'.found = sv.found ++ (ps.map publicPeer).filter Peer.isValid := by
  induction ps generalizing sv with
  | nil => exact ⟨sv, rfl, by simp⟩
  | cons p rest ih =>
      cases hvalid : (publicPeer p).isValid with
      | false =>
          obtain ⟨sv', hloop, hfound⟩ := ih { sv with runtime := elapse 1 sv.runtime }
          refine ⟨sv', (notifyLoop_of_invalid hvalid _ _).trans hloop, ?_⟩
          rw [List.map_cons, List.filter_cons, hvalid]
          exact hfound
      | true =>
          obtain ⟨sv₁, hrun, hfound₁⟩ := (hreact (publicPeer p) (calledWith (publicPeer p) sv)).run
            deps os notify (calledWith (publicPeer p) sv)
          obtain ⟨sv', hloop, hfound⟩ := ih sv₁
          refine ⟨sv', by rw [notifyLoop_of_valid hvalid, hrun]; exact hloop, ?_⟩
          rw [hfound, hfound₁, List.map_cons, List.filter_cons_of_pos hvalid, calledWith,
            List.append_assoc, List.singleton_append]

/-- One level suffices for a handler that neither polls nor throws, and it hears
of the same peers as a handler that does nothing. -/
theorem notify_of_tame (hreact : ∀ P sv, (react P sv).Tame) (depth : ℕ) (order : PeerOrder)
    (sv : DiscoveryService T) :
    ∃ sv', notifyNewPeersWith deps os react (depth + 1) order sv = some (true, sv') ∧
      sv'.found = sv.found ++ sv.newPeers order := by
  simp only [notifyNewPeersWith]
  split_ifs with hhandler hfew
  · exact ⟨_, rfl, by simp [newPeers_of_unhandled hhandler]⟩
  · exact ⟨_, rfl, by simp [newPeers_of_few hfew]⟩
  · obtain ⟨sv₁, hloop, hfound⟩ := notifyLoop_of_tame deps os
      (notifyNewPeersWith deps os react depth) hreact
      ((sv.runtime.engine.registry.availablePeers order).drop sv.knownPeerCount) sv
    refine ⟨_, by rw [hloop], ?_⟩
    rw [newPeers, if_pos (by simpa using hhandler)]
    exact hfound

/-! ## Handlers that throw -/

/-- The reaction calls nothing, and may throw. -/
def Reaction.Mute : Reaction T → Prop
  | call _ _ => False
  | _ => True

theorem Reaction.Mute.cases {reaction : Reaction T} (h : reaction.Mute) :
    reaction = .done ∨ reaction = .raise := by
  cases reaction with
  | done => exact .inl rfl
  | raise => exact .inr rfl
  | call callback next => exact h.elim

variable (deps os notify) in
theorem notifyLoop_of_mute (hreact : ∀ P sv, (react P sv).Mute) (ps : List DiscoveredPeer)
    (sv : DiscoveryService T) :
    ∃ ok sv' heard, notifyLoop deps os react notify ps sv = some (ok, sv') ∧
      sv'.found = sv.found ++ heard ∧ heard <+: (ps.map publicPeer).filter Peer.isValid ∧
      sv'.knownPeerCount = sv.knownPeerCount ∧
      (ok = true → heard = (ps.map publicPeer).filter Peer.isValid) ∧
      (ok = false → heard ≠ []) := by
  induction ps generalizing sv with
  | nil => exact ⟨true, sv, [], rfl, by simp, by simp, rfl, by simp, by simp⟩
  | cons p rest ih =>
      cases hvalid : (publicPeer p).isValid with
      | false =>
          obtain ⟨ok, sv', heard, hloop, h⟩ := ih { sv with runtime := elapse 1 sv.runtime }
          refine ⟨ok, sv', heard, (notifyLoop_of_invalid hvalid _ _).trans hloop, ?_⟩
          rw [List.map_cons, List.filter_cons, hvalid]
          exact h
      | true =>
          rw [notifyLoop_of_valid hvalid, List.map_cons, List.filter_cons_of_pos hvalid]
          rcases (hreact (publicPeer p) (calledWith (publicPeer p) sv)).cases with heq | heq
          · obtain ⟨ok, sv', heard, hloop, hfound, hprefix, hcount, hall, -⟩ :=
              ih (calledWith (publicPeer p) sv)
            refine ⟨ok, sv', publicPeer p :: heard, by rw [heq]; exact hloop, ?_,
              (List.prefix_cons_inj _).mpr hprefix, hcount, fun hok ↦ by rw [hall hok], by simp⟩
            rw [hfound, calledWith, List.append_assoc, List.singleton_append]
          · exact ⟨false, calledWith (publicPeer p) sv, [publicPeer p], by rw [heq]; rfl, rfl,
              by simp, rfl, by simp, by simp⟩

/-- A handler that calls nothing hears of the new peers up to the first for which
it throws; then none of them counts as known. -/
theorem notify_of_mute (hreact : ∀ P sv, (react P sv).Mute) (depth : ℕ) (order : PeerOrder)
    (sv : DiscoveryService T) :
    ∃ ok sv' heard, notifyNewPeersWith deps os react (depth + 1) order sv = some (ok, sv') ∧
      sv'.found = sv.found ++ heard ∧ heard <+: sv.newPeers order ∧
      (ok = true → heard = sv.newPeers order) ∧
      (ok = false → heard ≠ [] ∧ sv'.knownPeerCount = sv.knownPeerCount) := by
  simp only [notifyNewPeersWith]
  split_ifs with hhandler hfew
  · exact ⟨true, _, [], rfl, by simp, by simp, by simp [newPeers_of_unhandled hhandler], by simp⟩
  · exact ⟨true, _, [], rfl, by simp, by simp, by simp [newPeers_of_few hfew], by simp⟩
  · obtain ⟨ok, sv₁, heard, hloop, hfound, hprefix, hcount, hall, hsome⟩ :=
      notifyLoop_of_mute deps os (notifyNewPeersWith deps os react depth) hreact
        ((sv.runtime.engine.registry.availablePeers order).drop sv.knownPeerCount) sv
    rw [newPeers, if_pos (by simpa using hhandler), hloop]
    cases ok with
    | true => exact ⟨true, _, heard, rfl, hfound, hprefix, hall, by simp⟩
    | false => exact ⟨false, sv₁, heard, rfl, hfound, hprefix, by simp, fun h ↦ ⟨hsome h, hcount⟩⟩

variable (deps os react) in
/-- What every handler hears in a call of `notify_new_peers`. -/
theorem handler_hears_new_peers (depth : ℕ) (order : PeerOrder) (sv : DiscoveryService T) :
    let available := sv.runtime.engine.registry.availablePeers order
    (∀ sv', notifyNewPeersWith deps os react depth order sv = some (true, sv') →
      sv'.knownPeerCount = available.length ∧
        ∃ heard, sv'.found = sv.found ++ heard ∧ (sv.newPeers order).Sublist heard) ∧
    ((∀ P sv, (react P sv).Tame) →
      ∃ sv', notifyNewPeersWith deps os react (depth + 1) order sv = some (true, sv') ∧
        sv'.found = sv.found ++ sv.newPeers order) ∧
    ((∀ P sv, (react P sv).Mute) →
      ∃ ok sv' heard, notifyNewPeersWith deps os react (depth + 1) order sv = some (ok, sv') ∧
        sv'.found = sv.found ++ heard ∧ heard <+: sv.newPeers order ∧
        (ok = true → heard = sv.newPeers order) ∧
        (ok = false → heard ≠ [] ∧ sv'.knownPeerCount = sv.knownPeerCount)) :=
  ⟨fun _ ↦ notify_of_returned, fun hreact ↦ notify_of_tame hreact depth order sv,
    fun hreact ↦ notify_of_mute hreact depth order sv⟩

/-- A handler that does nothing: the model without reactions. -/
theorem notify_of_idle (depth : ℕ) (order : PeerOrder) (sv : DiscoveryService T) :
    notifyNewPeersWith deps os (fun _ _ ↦ .done) (depth + 1) order sv =
      some (true, sv.notifyNewPeers os order) := by
  have hloop (ps : List DiscoveredPeer) (sv : DiscoveryService T) :
      notifyLoop deps os (fun _ _ ↦ .done) (notifyNewPeersWith deps os (fun _ _ ↦ .done) depth)
        ps sv = some (true, { sv with
          runtime.world := (publicPeers os ps sv.runtime.world).2
          found := sv.found ++ (publicPeers os ps sv.runtime.world).1 }) := by
    induction ps generalizing sv with
    | nil => simp [notifyLoop, publicPeers]
    | cons p rest ih =>
        simp only [notifyLoop, publicPeers, Reaction.run, ih, World.now]
        split_ifs <;> simp_all
  simp only [notifyNewPeersWith, notifyNewPeers, hloop]
  split_ifs <;> rfl

/-! ## Handlers that poll -/

section Frozen

variable {s : Runtime T} {c : DiscoveryConfig} {now : Timestamp} {n : Bytes} {p : DiscoveredPeer}

/-- The clock reads `now` from here on. -/
def Frozen (os : Os) (now : Timestamp) (s : Runtime T) : Prop :=
  ∀ k, s.world.ticks ≤ k → os.clock k = now

theorem refreshTime_of_frozen (hfrozen : Frozen os now s) : refreshTime deps os s = now :=
  hfrozen _ (maybeAnnounce_quiet deps os s).ticks

/-- No available peer has been silent for half the TTL. -/
def Recent (c : DiscoveryConfig) (now : Timestamp) (s : Runtime T) : Prop :=
  ∀ n p, s.engine.registry.get n = some p → p.available = true →
    age p.lastSeenAt now < c.peerTtl.millis.toInt / 2

theorem recent_pollOnce (hclock : os.ClockPositive) (h : Live s c) (hr : Registered os c s)
    (hfrozen : Frozen os now s) (httl : 2 ≤ c.peerTtl.millis.toInt) :
    Recent c now (pollOnce deps os s).2 := by
  intro n p hp havailable
  by_cases hacc : Accepts deps c n s
  · obtain ⟨p', hp', -, k, hk, hseen⟩ := hacc.fresh os h le_rfl
    obtain rfl := Option.some.inj (hp'.symm.trans hp)
    rw [hseen, hfrozen k hk, age]
    omega
  · cases hget : s.engine.registry.get n with
    | none =>
        rw [unheard_none h hacc hget] at hp
        cases hp
    | some q =>
        rw [get_of_unheard deps hclock h hr hacc hget, Option.some.injEq] at hp
        subst hp
        have hless := ((available_refreshedState h.valid.peerTtl).mp havailable).2
        rwa [silence, refreshTime_of_frozen hfrozen] at hless

variable (deps) in
theorem available_pollOnce (hclock : os.ClockPositive) (h : Live s c) (hr : Registered os c s)
    (hfrozen : Frozen os now s) (hrecent : Recent c now s)
    (hp : s.engine.registry.get n = some p) (havailable : p.available = true) :
    ∃ p', (pollOnce deps os s).2.engine.registry.get n = some p' ∧ p'.available = true := by
  by_cases hacc : Accepts deps c n s
  · obtain ⟨p', hp', hstate, -⟩ := hacc.fresh os h le_rfl
    exact ⟨p', hp', by rw [DiscoveredPeer.available, hstate]; rfl⟩
  · refine ⟨_, get_of_unheard deps hclock h hr hacc hp, ?_⟩
    refine (available_refreshedState h.valid.peerTtl).mpr ⟨havailable, ?_⟩
    rw [silence, refreshTime_of_frozen hfrozen]
    exact hrecent n p hp havailable

theorem length_availablePeers (r : DiscoveryRegistry) (order order' : PeerOrder) :
    (r.availablePeers order).length = (r.availablePeers order').length := by
  have hperm := (order.perm r.peers.entries).trans (order'.perm r.peers.entries).symm
  exact ((hperm.filter _).map _).length_eq

/-- While the clock stands still, a poll makes no peer unavailable. -/
theorem length_available_pollOnce (hclock : os.ClockPositive) (h : Live s c)
    (hr : Registered os c s) (hfrozen : Frozen os now s) (hrecent : Recent c now s)
    (order order' : PeerOrder) :
    (s.engine.registry.availablePeers order).length ≤
      ((pollOnce deps os s).2.engine.registry.availablePeers order').length := by
  have hheard : Heard deps os c s (pollOnce deps os s).2 := pollOnce_heard h
  have hkeys := (hr.of_heard hheard).keys
  have hnodup := DiscoveryRegistry.nodup_availablePeers hr.keys order
  have hsubset : (s.engine.registry.availablePeers order).map DiscoveredPeer.nodeId ⊆
      ((pollOnce deps os s).2.engine.registry.availablePeers order').map
        DiscoveredPeer.nodeId := by
    intro n hn
    obtain ⟨p, hp, rfl⟩ := List.mem_map.mp hn
    obtain ⟨havailable, n, hget⟩ := (DiscoveryRegistry.mem_availablePeers order p).mp hp
    obtain ⟨p', hp', havailable'⟩ :=
      available_pollOnce deps hclock h hr hfrozen hrecent hget havailable
    refine List.mem_map.mpr ⟨p', (DiscoveryRegistry.mem_availablePeers order' p').mpr
      ⟨havailable', n, hp'⟩, ?_⟩
    rw [hkeys n p' hp', hr.keys n p hget]
  simpa using List.Nodup.length_le_of_subset hnodup hsubset

/-- A service with a handler and a peer that the handler was not called with, on a
clock that stands still. -/
structure Trapped (os : Os) (c : DiscoveryConfig) (now : Timestamp) (sv : DiscoveryService T) :
    Prop where
  handler : sv.onPeerFound = true
  live : Live sv.runtime c
  registered : Registered os c sv.runtime
  frozen : Frozen os now sv.runtime
  recent : Recent c now sv.runtime
  new : ∀ order, sv.knownPeerCount < (sv.runtime.engine.registry.availablePeers order).length

variable (deps) in
theorem Trapped.pollOnce (hclock : os.ClockPositive) (httl : 2 ≤ c.peerTtl.millis.toInt)
    (h : Trapped os c now sv) :
    Trapped os c now { sv with runtime := (pollOnce deps os sv.runtime).2 } := by
  have hspec := pollOnce_spec deps os h.live
  exact {
    handler := h.handler
    live := h.live.of_kept hspec.kept
    registered := h.registered.of_heard (pollOnce_heard h.live)
    frozen := fun k hk ↦ h.frozen k (hspec.kept.ticks.trans hk)
    recent := recent_pollOnce hclock h.live h.registered h.frozen httl
    new := fun order ↦ (h.new order).trans_le
      (length_available_pollOnce hclock h.live h.registered h.frozen h.recent order order) }

theorem Trapped.calledWith (h : Trapped os c now sv) (P : Peer) :
    Trapped os c now (calledWith P sv) where
  handler := h.handler
  live := h.live.of_kept (elapse_idle 1 sv.runtime).toKept
  registered := h.registered.of_idle (elapse_idle 1 sv.runtime)
  frozen k hk := h.frozen k ((Nat.le_succ _).trans hk)
  recent := h.recent
  new := h.new

/-- A handler that polls first is called again from its own poll, at every depth. -/
theorem notify_of_trapped (hclock : os.ClockPositive) (httl : 2 ≤ c.peerTtl.millis.toInt)
    (hreact : ∀ P sv, ∃ order next, react P sv = .call (.poll order) next)
    (h : Trapped os c now sv) (depth : ℕ) (order : PeerOrder) :
    notifyNewPeersWith deps os react depth order sv = none := by
  induction depth generalizing sv order with
  | zero => rfl
  | succ depth ih =>
      have hnew := h.new order
      have hmany : ¬ (sv.runtime.engine.registry.availablePeers order).length ≤
          sv.knownPeerCount := by omega
      have hhandler : ¬ (!sv.onPeerFound) = true := by simp [h.handler]
      simp only [notifyNewPeersWith, if_neg hmany, if_neg hhandler]
      obtain ⟨p, rest, hdrop⟩ : ∃ p rest,
          (sv.runtime.engine.registry.availablePeers order).drop sv.knownPeerCount = p :: rest :=
        List.exists_cons_of_ne_nil (by simp [List.drop_eq_nil_iff]; omega)
      have hmem : p ∈ sv.runtime.engine.registry.availablePeers order :=
        List.mem_of_mem_drop (i := sv.knownPeerCount) (by rw [hdrop]; exact List.mem_cons_self)
      have hvalid := publicPeer_isValid_of_mem hclock h.registered p hmem
      have hnext := ih ((h.calledWith (publicPeer p)).pollOnce deps hclock httl)
      obtain ⟨order', next, heq⟩ := hreact (publicPeer p) (calledWith (publicPeer p) sv)
      have hrun : (react (publicPeer p) (calledWith (publicPeer p) sv)).run deps os
          (notifyNewPeersWith deps os react depth) (calledWith (publicPeer p) sv) = none := by
        rw [heq, Reaction.run, Callback.apply]
        simp only [hnext order']
      rw [hdrop, notifyLoop_of_valid hvalid, hrun]

/-- On a clock that stands still, a poll with a handler that polls first never
returns, however deep its calls may nest, if and only if it finds a peer that is
new to the count. -/
theorem polling_handler_never_returns_iff (hclock : os.ClockPositive)
    (hs : Reachable deps os sv) (hrunning : sv.isRunning = true) (hhandler : sv.onPeerFound = true)
    (httl : 2 ≤ sv.config.peerTtl.millis.toInt) (hfrozen : Frozen os now sv.runtime)
    (hreact : ∀ P sv, ∃ order next, react P sv = .call (.poll order) next) (order : PeerOrder) :
    (∀ depth, pollWith deps os react depth order sv = none) ↔
      sv.knownPeerCount <
        ((pollOnce deps os sv.runtime).2.engine.registry.availablePeers order).length := by
  have hlive := hs.runtime.live hrunning hs.config
  have hreg := hs.runtime.registered hs.config
  have hspec := pollOnce_spec deps os hlive
  constructor
  · intro hnever
    by_contra hfew
    have hone := hnever 1
    simp only [pollWith, Callback.apply, notifyNewPeersWith, if_pos (Nat.le_of_not_lt hfew)] at hone
    split_ifs at hone
  · intro hnew depth
    have htrapped : Trapped os sv.config now
        { sv with runtime := (pollOnce deps os sv.runtime).2 } :=
      { handler := hhandler
        live := hlive.of_kept hspec.kept
        registered := hreg.of_heard (pollOnce_heard hlive)
        frozen := fun k hk ↦ hfrozen k (hspec.kept.ticks.trans hk)
        recent := recent_pollOnce hclock hlive hreg hfrozen httl
        new := fun order' ↦ by rwa [length_availablePeers _ order' order] }
    exact notify_of_trapped hclock httl hreact htrapped depth order

end Frozen

section Nodes

open Simulation

/-- A clock that stands still. -/
def frozen : Os := system fun _ ↦ ⟨1000⟩

/-- A handler that polls once more. -/
def polling (_ : Peer) (_ : DiscoveryService (List PeerInfo)) : Reaction (List PeerInfo) :=
  .call (.poll .inOrder) fun _ _ ↦ .done

/-- The service has a handler and an announcement is pending. -/
def awaiting : DiscoveryService (List PeerInfo) :=
  (Event.environment [announced "node-a" 9500 9400] id 0).apply listing frozen
    (watchedService.start frozen).2

theorem clockPositive_frozen : frozen.ClockPositive := fun _ ↦
  (by decide : Timestamp.isValid ⟨1000⟩ = true)

theorem polling_handler_never_returns_awaiting :
    awaiting.found = [] ∧
      ∀ depth, pollWith listing frozen polling depth .inOrder awaiting = none :=
  ⟨rfl, (polling_handler_never_returns_iff clockPositive_frozen
    (.event _ (.start (.setOnPeerFound true (.create _ _ _)))) (by decide) (by decide) (by decide)
    (fun _ _ ↦ rfl) (fun _ _ ↦ ⟨_, _, rfl⟩) .inOrder).mpr (by decide)⟩

end Nodes

end DiscoveryService

end Discovery
