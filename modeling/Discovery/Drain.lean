import Discovery.Exchange

/-!
# Draining the queue

`poll_many` stops at the first poll that returns false, and a rejected datagram
makes a poll return false.  So the loop drains a queue exactly when no rejected
datagram has another one behind it.
-/

namespace Discovery

open DiscoveryEncoder DiscoveryDecoder

namespace DiscoveryEngine

variable {T : Type} {deps : External T} {os : Os} {s s' : Runtime T} {c : DiscoveryConfig}

/-! ## The queue behind the next arrival -/

def withInbox (inbox : List Arrival) (s : Runtime T) : Runtime T :=
  { s with world.inbox := inbox }

@[simp] theorem withInbox_self (s : Runtime T) : withInbox s.world.inbox s = s := rfl

theorem sendDatagram_inbox (socket : UdpSocket) (d : Datagram) (w : World) (q : List Arrival) :
    socket.sendDatagram os d { w with inbox := q } =
      ((socket.sendDatagram os d w).1, { (socket.sendDatagram os d w).2 with inbox := q }) := by
  unfold UdpSocket.sendDatagram UdpSocket.sendTo
  dsimp only
  split_ifs <;> rfl

variable (os) in
theorem clientSend_inbox (ser : Serializer) (b : UdpDiscoveryBackend) (e : DiscoveryEnvelope)
    (w : World) (q : List Arrival) :
    DiscoveryClient.send ser os b e { w with inbox := q } =
      ((DiscoveryClient.send ser os b e w).1,
        { (DiscoveryClient.send ser os b e w).2 with inbox := q }) := by
  unfold DiscoveryClient.send UdpDiscoveryBackend.send World.now
  dsimp only
  split_ifs
  · rfl
  · rfl
  · rfl
  · rw [sendDatagram_inbox _ _ { w with
      attempts := w.attempts ++ [e]
      ticks := w.ticks + 1 } q]

variable (deps os) in
theorem announceNow_withInbox (q : List Arrival) (s : Runtime T) :
    (announceNow deps os (withInbox q s)).2 = withInbox q (announceNow deps os s).2 := by
  cases hrunning : isRunning s with
  | false =>
      have hrunning' : isRunning (withInbox q s) = false := hrunning
      rw [announceNow_of_not_running hrunning, announceNow_of_not_running hrunning']
  | true =>
      have hrunning' : isRunning (withInbox q s) = true := hrunning
      cases hc : s.context.configChecked with
      | error e => rw [announceNow_of_error hc, announceNow_of_error (s := withInbox q s) hc]
      | ok c =>
          obtain ⟨r, hr⟩ : ∃ r, DiscoveryClient.send deps.ser os s.backend
              (announceEnvelope deps.ser os c s.world.ticks)
              { s.world with ticks := s.world.ticks + 3 } = r := ⟨_, rfl⟩
          have hsend : DiscoveryClient.send deps.ser os (withInbox q s).backend
              (announceEnvelope deps.ser os c (withInbox q s).world.ticks)
              { (withInbox q s).world with ticks := (withInbox q s).world.ticks + 3 } =
                (r.1, { r.2 with inbox := q }) := by
            rw [← hr]
            exact clientSend_inbox _ _ _ _ { s.world with ticks := s.world.ticks + 3 } q
          rw [announceNow_eq hrunning hc, announceNow_eq (s := withInbox q s) hrunning' hc]
          simp only [hsend, hr]
          split_ifs <;> rfl

theorem timeDriven_withInbox (q : List Arrival) (s : Runtime T) :
    timeDriven deps os (withInbox q s) = withInbox q (timeDriven deps os s) := by
  have hmaybe : maybeAnnounce deps os (withInbox q s) = withInbox q (maybeAnnounce deps os s) := by
    cases hc : s.context.configChecked with
    | error e => simp [maybeAnnounce, withInbox, hc]
    | ok c =>
        rw [maybeAnnounce_cases hc, maybeAnnounce_cases (s := withInbox q s) hc]
        dsimp only
        have hann := announceNow_withInbox deps os q
          { s with world.ticks := s.world.ticks + 1 }
        split_ifs with h h' h'
        · exact hann
        · exact absurd h h'
        · exact absurd h' h
        · rfl
  have hrefresh (t : Runtime T) :
      refreshPeerStates os (withInbox q t) = withInbox q (refreshPeerStates os t) := by
    cases hc : t.context.configChecked with
    | error e => simp [refreshPeerStates, withInbox, hc]
    | ok c => simp [refreshPeerStates, withInbox, hc, World.now]
  rw [timeDriven, hmaybe, hrefresh]
  rfl

variable (deps) in
theorem integrateWithTransport_withInbox (a : DiscoveryAnnouncement) (q : List Arrival)
    (s : Runtime T) :
    integrateWithTransport deps a (withInbox q s) =
      withInbox q (integrateWithTransport deps a s) := by
  unfold integrateWithTransport
  cases htransport : s.context.transportChecked deps.transportIsRunning with
  | error e =>
      simp only [withInbox, htransport]
      split_ifs <;> rfl
  | ok t =>
      simp only [withInbox, htransport]
      split_ifs <;> rfl

/-! ## Acceptable arrivals -/

/-- The engine of node `localId` accepts or answers the arrival. -/
def acceptable (ser : Serializer) (maxSize : ℕ) (localId : Bytes) (arrival : Arrival) : Bool :=
  react ser maxSize localId arrival ≠ .reject

variable {arrival : Arrival} {rest q : List Arrival}

theorem acceptable_eq_false_iff {ser : Serializer} {maxSize : ℕ} {localId : Bytes} :
    acceptable ser maxSize localId arrival = false ↔
      react ser maxSize localId arrival = .reject := by
  simp [acceptable]

theorem receive_withInbox (h : Live s c)
    (ha : acceptable deps.ser s.backend.config.maxDatagramSize c.nodeId arrival = true)
    (rest rest' : List Arrival) :
    receive deps os (withInbox (arrival :: rest) s) =
      ((receive deps os (withInbox (arrival :: rest') s)).1,
        withInbox rest (receive deps os (withInbox (arrival :: rest') s)).2) := by
  have hlive (q : List Arrival) : Live (withInbox q s) c := h.of_kept ⟨rfl, rfl, rfl, rfl, le_rfl⟩
  cases hr : react deps.ser s.backend.config.maxDatagramSize c.nodeId arrival with
  | reject => simp [acceptable, hr] at ha
  | accept a =>
      rw [receive_accept (hlive _) rfl hr, receive_accept (hlive _) rfl hr]
      have hcommute := integrateWithTransport_withInbox deps a rest
        (upsertDiscoveredPeer os a (consumed (withInbox (arrival :: rest') s) rest' 2))
      rw [← hcommute]
      rfl
  | answer m host port =>
      rw [receive_answer (hlive _) rfl hr, receive_answer (hlive _) rfl hr]
      have hsend := clientSend_inbox os deps.ser s.backend
        (replyEnvelope deps.ser os c m host port (s.world.ticks + 2))
        (consumed (withInbox (arrival :: rest') s) rest' 4).world rest
      exact congrArg (fun r : Bool × World ↦ (r.1, ({ s with world := r.2 } : Runtime T))) hsend

variable (os) in
theorem pollOnce_withInbox (h : Live s c)
    (ha : acceptable deps.ser s.backend.config.maxDatagramSize c.nodeId arrival = true)
    (rest rest' : List Arrival) :
    pollOnce deps os (withInbox (arrival :: rest) s) =
      ((pollOnce deps os (withInbox (arrival :: rest') s)).1,
        withInbox rest (pollOnce deps os (withInbox (arrival :: rest') s)).2) := by
  have hsteady := timeDriven_steady deps os s
  have hpoll (q : List Arrival) : pollOnce deps os (withInbox q s) =
      receive deps os (withInbox q (timeDriven deps os s)) := by
    have hrunning : isRunning (withInbox q s) = true := h.isRunning
    rw [pollOnce, hrunning, timeDriven_withInbox]
    rfl
  rw [hpoll, hpoll]
  exact receive_withInbox (h.of_kept hsteady.kept) (by rwa [hsteady.backend]) rest rest'

theorem pollOnce_registry_of_reject (h : Live s c) (hinbox : s.world.inbox = arrival :: rest)
    (ha : acceptable deps.ser s.backend.config.maxDatagramSize c.nodeId arrival = false) :
    (pollOnce deps os s).2.engine.registry =
      (pollOnce deps os (withInbox [] s)).2.engine.registry := by
  have hempty : Live (withInbox [] s) c := h.of_kept ⟨rfl, rfl, rfl, rfl, le_rfl⟩
  have hr : nextReaction deps c s = .reject := by
    rw [nextReaction, hinbox]
    exact acceptable_eq_false_iff.mp ha
  have hspec := (pollOnce_spec deps os h).registry
  have hspec' := (pollOnce_spec deps os hempty).registry
  have htime := timeDriven_registry deps os (s := withInbox [] s) h.config
  rw [hr] at hspec
  rw [hspec, hspec', ← timeDriven_registry deps os h.config]
  refine Eq.trans ?_ htime
  rw [timeDriven_withInbox]
  rfl

theorem pollOnce_fst_of_reject (h : Live s c) (hr : nextReaction deps c s = .reject) :
    (pollOnce deps os s).1 = false := by
  obtain ⟨k, heq⟩ := pollOnce_of_reject h hr
  rw [heq]

/-- The replies to the probes in a queue can be addressed. -/
def Answerable (deps : External T) (os : Os) (c : DiscoveryConfig) (maxSize : ℕ)
    (q : List Arrival) : Prop :=
  ∀ arrival ∈ q, ∀ m host port, react deps.ser maxSize c.nodeId arrival = .answer m host port →
    os.inetPton host = true

theorem pollOnce_fst_of_acceptable (hser : deps.ser.Lawful) (hclock : os.ClockPositive)
    (hsends : os.SendsSucceed) (h : Live s c) (hinbox : s.world.inbox = arrival :: rest)
    (hanswer : Answerable deps os c s.backend.config.maxDatagramSize s.world.inbox)
    (ha : acceptable deps.ser s.backend.config.maxDatagramSize c.nodeId arrival = true) :
    (pollOnce deps os s).1 = true := by
  have hnext : nextReaction deps c s =
      react deps.ser s.backend.config.maxDatagramSize c.nodeId arrival := by
    rw [nextReaction, hinbox]
  have hmem : arrival ∈ s.world.inbox := by rw [hinbox]; exact List.mem_cons_self
  cases hr : react deps.ser s.backend.config.maxDatagramSize c.nodeId arrival with
  | reject => simp [acceptable, hr] at ha
  | accept a => rw [pollOnce_of_accept os h (hnext.trans hr)]
  | answer m host port =>
      have hm := answered_of_react hr
      exact (pollOnce_answer hser h hclock hsends hm.host hm.port
        (hanswer arrival hmem m host port hr) (hnext.trans hr)).1

/-! ## The loop -/

/-- What draining a queue means: nothing is left, the acceptable arrivals are
counted, and the registry is the one that they alone would have led to. -/
structure Drains (deps : External T) (os : Os) (c : DiscoveryConfig) (maxMessages : ℕ)
    (s : Runtime T) : Prop where
  inbox : (pollMany deps os maxMessages s).2.world.inbox = []
  count : (pollMany deps os maxMessages s).1 =
    s.world.inbox.countP (acceptable deps.ser s.backend.config.maxDatagramSize c.nodeId)
  registry : (pollMany deps os maxMessages s).2.engine.registry =
    (pollMany deps os maxMessages (withInbox (s.world.inbox.filter
      (acceptable deps.ser s.backend.config.maxDatagramSize c.nodeId)) s)).2.engine.registry

theorem pollManyLoop_of_true {rounds processed : ℕ} (h : (pollOnce deps os s).1 = true) :
    pollManyLoop deps os (rounds + 1) processed s =
      pollManyLoop deps os rounds (processed + 1) (pollOnce deps os s).2 := by
  simp [pollManyLoop, h]

theorem pollManyLoop_of_false {rounds processed : ℕ} (h : (pollOnce deps os s).1 = false) :
    pollManyLoop deps os (rounds + 1) processed s = (processed, (pollOnce deps os s).2) := by
  simp [pollManyLoop, h]

section Loop

theorem nextReaction_of_rejected (hinbox : s.world.inbox = arrival :: rest)
    (ha : acceptable deps.ser s.backend.config.maxDatagramSize c.nodeId arrival = false) :
    nextReaction deps c s = .reject := by
  rw [nextReaction, hinbox]
  exact acceptable_eq_false_iff.mp ha

variable (deps os) in
theorem pollManyLoop_of_nil (rounds processed : ℕ) (h : Live s c) (hinbox : s.world.inbox = []) :
    (pollManyLoop deps os rounds processed s).1 = processed ∧
      (pollManyLoop deps os rounds processed s).2.world.inbox = [] := by
  cases rounds with
  | zero => exact ⟨rfl, hinbox⟩
  | succ rounds =>
      have hr : nextReaction deps c s = .reject := by rw [nextReaction, hinbox]
      rw [pollManyLoop_of_false (pollOnce_fst_of_reject h hr), (pollOnce_spec _ _ h).inbox, hinbox]
      exact ⟨rfl, rfl⟩

theorem pollManyLoop_of_last_rejected (rounds processed : ℕ) (h : Live s c)
    (hinbox : s.world.inbox = [arrival])
    (ha : acceptable deps.ser s.backend.config.maxDatagramSize c.nodeId arrival = false) :
    (pollManyLoop deps os (rounds + 1) processed s).2.world.inbox = [] ∧
      (pollManyLoop deps os (rounds + 1) processed s).1 = processed ∧
      (pollManyLoop deps os (rounds + 1) processed s).2.engine.registry =
        (pollManyLoop deps os (rounds + 1) processed (withInbox [] s)).2.engine.registry := by
  have hempty : Live (withInbox [] s) c := h.of_kept ⟨rfl, rfl, rfl, rfl, le_rfl⟩
  have hr := nextReaction_of_rejected (c := c) hinbox ha
  have hr' : nextReaction deps c (withInbox [] s) = .reject := rfl
  rw [pollManyLoop_of_false (pollOnce_fst_of_reject h hr),
    pollManyLoop_of_false (pollOnce_fst_of_reject hempty hr')]
  refine ⟨?_, rfl, pollOnce_registry_of_reject h hinbox ha⟩
  rw [(pollOnce_spec _ _ h).inbox, hinbox]
  rfl

theorem forall_mem_dropLast_cons {α : Type*} {P : α → Prop} {a : α} {q : List α} :
    (∀ x ∈ (a :: q).dropLast, P x) ↔ (q ≠ [] → P a) ∧ ∀ x ∈ q.dropLast, P x := by
  cases q with
  | nil => simp
  | cons b bs => simp [List.dropLast_cons_cons]

theorem Answerable.tail {maxSize : ℕ} {a : Arrival}
    (h : Answerable deps os c maxSize (a :: q)) : Answerable deps os c maxSize q :=
  fun x hx ↦ h x (List.mem_cons_of_mem a hx)

variable (hser : deps.ser.Lawful) (hclock : os.ClockPositive) (hsends : os.SendsSucceed)

include hser hclock hsends

theorem acceptable_of_inbox_nil {rounds processed : ℕ} (h : Live s c) (hinbox : s.world.inbox = q)
    (hanswer : Answerable deps os c s.backend.config.maxDatagramSize q) (hlen : q.length ≤ rounds)
    (hend : (pollManyLoop deps os rounds processed s).2.world.inbox = []) :
    ∀ arrival ∈ q.dropLast,
      acceptable deps.ser s.backend.config.maxDatagramSize c.nodeId arrival = true := by
  induction q generalizing s rounds processed with
  | nil => simp
  | cons a rest ih =>
      obtain ⟨rounds, rfl⟩ : ∃ r, rounds = r + 1 := ⟨rounds - 1, by simp at hlen; omega⟩
      have hspec := pollOnce_spec deps os h
      have hrest : (pollOnce deps os s).2.world.inbox = rest := by rw [hspec.inbox, hinbox]; rfl
      cases ha : acceptable deps.ser s.backend.config.maxDatagramSize c.nodeId a with
      | true =>
          have htrue := pollOnce_fst_of_acceptable hser hclock hsends h hinbox
            (by rwa [hinbox]) ha
          rw [pollManyLoop_of_true htrue] at hend
          rw [← hspec.kept.backend] at hanswer
          have htail := ih (h.of_kept hspec.kept) hrest hanswer.tail (by simpa using hlen) hend
          rw [hspec.kept.backend] at htail
          exact forall_mem_dropLast_cons.mpr ⟨fun _ ↦ ha, htail⟩
      | false =>
          rw [pollManyLoop_of_false (pollOnce_fst_of_reject h (nextReaction_of_rejected hinbox ha)),
            hrest] at hend
          simp [hend]

/-- With nothing rejected before its end, the loop empties the queue, counts the
acceptable arrivals, and leaves the registry that they alone lead to. -/
theorem pollManyLoop_drains {rounds : ℕ} (processed : ℕ) (h : Live s c) (hinbox : s.world.inbox = q)
    (hanswer : Answerable deps os c s.backend.config.maxDatagramSize q) (hlen : q.length ≤ rounds)
    (hall : ∀ arrival ∈ q.dropLast,
      acceptable deps.ser s.backend.config.maxDatagramSize c.nodeId arrival = true) :
    (pollManyLoop deps os rounds processed s).2.world.inbox = [] ∧
      (pollManyLoop deps os rounds processed s).1 = processed +
        q.countP (acceptable deps.ser s.backend.config.maxDatagramSize c.nodeId) ∧
      (pollManyLoop deps os rounds processed s).2.engine.registry =
        (pollManyLoop deps os rounds processed (withInbox (q.filter (acceptable deps.ser
          s.backend.config.maxDatagramSize c.nodeId)) s)).2.engine.registry := by
  induction q generalizing s rounds processed with
  | nil =>
      have hself : withInbox [] s = s := by rw [← hinbox, withInbox_self]
      obtain ⟨hcount, hend⟩ := pollManyLoop_of_nil deps os rounds processed h hinbox
      exact ⟨hend, hcount, by rw [List.filter_nil, hself]⟩
  | cons a rest ih =>
      obtain ⟨rounds, rfl⟩ : ∃ r, rounds = r + 1 := ⟨rounds - 1, by simp at hlen; omega⟩
      obtain ⟨hfirst, htail⟩ := forall_mem_dropLast_cons.mp hall
      cases ha : acceptable deps.ser s.backend.config.maxDatagramSize c.nodeId a with
      | true =>
          have hspec := pollOnce_spec deps os h
          have hrest : (pollOnce deps os s).2.world.inbox = rest := by rw [hspec.inbox, hinbox]; rfl
          have htrue := pollOnce_fst_of_acceptable hser hclock hsends h hinbox
            (by rwa [hinbox]) ha
          -- the poll behaves the same with the filtered queue behind it
          have hcommute := pollOnce_withInbox os h ha
            (rest.filter (acceptable deps.ser s.backend.config.maxDatagramSize c.nodeId)) rest
          rw [← hinbox, withInbox_self] at hcommute
          rw [← hspec.kept.backend] at hanswer htail
          obtain ⟨h₁, h₂, h₃⟩ := ih (processed + 1) (h.of_kept hspec.kept) hrest hanswer.tail
            (by simpa using hlen) htail
          rw [hspec.kept.backend] at h₂ h₃
          rw [pollManyLoop_of_true htrue, List.countP_cons_of_pos ha, List.filter_cons_of_pos ha,
            pollManyLoop_of_true (by rw [hcommute]; exact htrue), hcommute]
          exact ⟨h₁, by omega, h₃⟩
      | false =>
          obtain rfl : rest = [] := by
            by_contra hne
            rw [hfirst hne] at ha
            cases ha
          have hfilter : [a].filter (acceptable deps.ser s.backend.config.maxDatagramSize
              c.nodeId) = [] := by simp [ha]
          have hcount : [a].countP (acceptable deps.ser s.backend.config.maxDatagramSize
              c.nodeId) = 0 := by simp [ha]
          rw [hfilter, hcount]
          exact pollManyLoop_of_last_rejected rounds processed h hinbox ha

end Loop

/-- `poll_many` drains a queue exactly when every arrival that has another one
behind it is acceptable. -/
theorem pollMany_drains_iff (hser : deps.ser.Lawful) (hclock : os.ClockPositive)
    (hsends : os.SendsSucceed) (hs : Reachable deps os s) (hrunning : isRunning s = true)
    (hc : s.context.config = some c)
    (hanswer : Answerable deps os c s.backend.config.maxDatagramSize s.world.inbox)
    {maxMessages : ℕ} (hmax : s.world.inbox.length ≤ maxMessages) :
    Drains deps os c maxMessages s ↔ ∀ arrival ∈ s.world.inbox.dropLast,
      acceptable deps.ser s.backend.config.maxDatagramSize c.nodeId arrival = true := by
  have hlive := hs.live hrunning hc
  constructor
  · intro h
    exact acceptable_of_inbox_nil hser hclock hsends hlive rfl hanswer hmax h.inbox
  · intro hall
    obtain ⟨h₁, h₂, h₃⟩ := pollManyLoop_drains hser hclock hsends 0 hlive rfl hanswer
      hmax hall
    exact ⟨h₁, by rw [pollMany, h₂, Nat.zero_add], h₃⟩

section Nodes

open Simulation

theorem pollMany_drains_announcements :
    Drains listing (system (ticking 1000)) (Simulation.config "node-b" 9400) 2
      (receiver [announced "node-a" 9500 9400, announced "node-b" 9400 9400]) :=
  (pollMany_drains_iff listing_lawful (clockPositive_ticking (by decide)) (sendsSucceed_system _)
    (reachable_receiver _) (by decide) rfl (fun _ _ _ _ _ _ ↦ rfl) (by decide)).mpr (by decide)

/-- The node's own broadcast hides the announcement queued behind it. -/
theorem pollMany_drains_echo :
    let s := receiver [announced "node-b" 9400 9400, announced "node-a" 9500 9400]
    Reachable listing (system (ticking 1000)) s ∧ isRunning s = true ∧
      ¬ Drains listing (system (ticking 1000)) (Simulation.config "node-b" 9400) 2 s ∧
      (pollMany listing (system (ticking 1000)) 2 s).1 = 0 ∧
      (pollMany listing (system (ticking 1000)) 2 s).2.world.inbox =
        [announced "node-a" 9500 9400] := by
  have hend : (pollMany listing (system (ticking 1000)) 2 (receiver
      [announced "node-b" 9400 9400, announced "node-a" 9500 9400])).2.world.inbox =
        [announced "node-a" 9500 9400] := by decide
  refine ⟨reachable_receiver _, by decide, fun h ↦ ?_, by decide, hend⟩
  have hnil := h.inbox
  rw [hend] at hnil
  cases hnil

end Nodes

end DiscoveryEngine

end Discovery
