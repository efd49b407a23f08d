import Discovery.Drain
import Discovery.SharedBackend

/-!
# Arrivals that make no difference

An engine sees of an arrival only the message that it decodes to and the source.
Replacing arrivals by others of which it sees the same changes nothing in any
run of the engine and of the owner of its backend.  In particular a datagram
that does not decode is as good as a failed receive.
-/

namespace Discovery

open DiscoveryEncoder DiscoveryDecoder

/-! ## What is seen of an arrival -/

/-- The message and the source that a receive buffer of `maxSize` bytes lets
through. -/
def seen (ser : Serializer) (maxSize : ℕ) (arrival : Arrival) :
    Option (DiscoveryMessage × Bytes × UInt16) :=
  (decodeDatagram ser (UdpSocket.received maxSize arrival)).map fun m ↦
    (m, (UdpSocket.received maxSize arrival).host, (UdpSocket.received maxSize arrival).port)

/-- The envelope that `poll` makes of what is seen, and the readings of the clock
that it takes for it. -/
def envelopeOf (os : Os) (ticks : ℕ) :
    Option (DiscoveryMessage × Bytes × UInt16) → Option DiscoveryEnvelope × ℕ
  | none => (none, ticks)
  | some (m, host, port) =>
    (some (DiscoveryEngine.inboundEnvelope m host port (os.clock (ticks + 1))), ticks + 2)

section Poll

variable {ser : Serializer} {os : Os}

theorem poll_of_inbox {b : UdpDiscoveryBackend} (hrunning : b.running = true)
    (hsocket : b.socket.isValid = true) (hmax : b.config.maxDatagramSize ≠ 0) {w : World}
    {arrival : Arrival} {rest : List Arrival} (hinbox : w.inbox = arrival :: rest) :
    b.poll ser os w =
      let r := envelopeOf os w.ticks (seen ser b.config.maxDatagramSize arrival)
      (r.1, { w with inbox := rest, ticks := r.2 }) := by
  have hmax' : (b.config.maxDatagramSize == 0) = false := beq_false_of_ne hmax
  simp only [UdpDiscoveryBackend.poll, hrunning, UdpSocket.recvDatagram, hsocket, hmax', hinbox,
    Bool.not_true, Bool.or_self, Bool.false_eq_true, if_false, seen]
  cases hvalid : (UdpSocket.received b.config.maxDatagramSize arrival).isValid with
  | false => simp [decodeDatagram, hvalid, envelopeOf]
  | true =>
      simp only [Bool.not_true, Bool.false_eq_true, if_false]
      cases decodeDatagram ser (UdpSocket.received b.config.maxDatagramSize arrival) with
      | none => simp [envelopeOf]
      | some m =>
          simp [World.now, DiscoveryEnvelope.ofMessage, DiscoveryEngine.inboundEnvelope, envelopeOf]

/-- A poll that cannot receive leaves the inbox alone. -/
theorem poll_of_deaf {b : UdpDiscoveryBackend} {w : World}
    (hdeaf : b.running = false ∨ b.socket.isValid = false ∨ b.config.maxDatagramSize = 0 ∨
      w.inbox = []) : b.poll ser os w = (none, w) := by
  have hempty : Datagram.isValid {} = false := rfl
  rcases hdeaf with h | h | h | h <;>
    simp [UdpDiscoveryBackend.poll, UdpSocket.recvDatagram, h, hempty]

/-- A poll leaves the inbox or its tail. -/
theorem poll_inbox_subset (b : UdpDiscoveryBackend) (w : World) :
    (b.poll ser os w).2.inbox ⊆ w.inbox := by
  by_cases hdeaf : b.running = false ∨ b.socket.isValid = false ∨
      b.config.maxDatagramSize = 0 ∨ w.inbox = []
  · rw [poll_of_deaf hdeaf]
    exact List.Subset.refl _
  · simp only [not_or, Bool.not_eq_false] at hdeaf
    obtain ⟨hrunning, hsocket, hmax, hne⟩ := hdeaf
    obtain ⟨a, rest, hinbox⟩ := List.exists_cons_of_ne_nil hne
    rw [poll_of_inbox hrunning hsocket hmax hinbox, hinbox]
    exact List.subset_cons_self a rest

/-! ## Calls and the inbox -/

variable (os) in
theorem configureSocket_inbox (b : UdpDiscoveryBackend) (w : World) (q : List Arrival) :
    b.configureSocket os { w with inbox := q } =
      ((b.configureSocket os w).1, { (b.configureSocket os w).2 with inbox := q }) := by
  cases hsocket : b.socket.isValid with
  | false =>
      simp [UdpDiscoveryBackend.configureSocket, UdpSocket.setReuseAddr, UdpSocket.setOption,
        hsocket]
  | true =>
      simp only [UdpDiscoveryBackend.configureSocket, UdpSocket.setReuseAddr,
        UdpSocket.setBroadcast, UdpSocket.setRecvTimeout, UdpSocket.setSendTimeout,
        UdpSocket.setOption, hsocket, Bool.not_true, Bool.false_eq_true, if_false]
      split_ifs <;> rfl

theorem bind_inbox (socket : UdpSocket) (host : Bytes) (port : UInt16) (w : World)
    (q : List Arrival) :
    socket.bind os host port { w with inbox := q } =
      ((socket.bind os host port w).1, (socket.bind os host port w).2.1,
        { (socket.bind os host port w).2.2 with inbox := q }) := by
  unfold UdpSocket.bind UdpSocket.openSocket
  dsimp only
  split_ifs <;> rfl

variable (os) in
theorem backendStart_inbox (b : UdpDiscoveryBackend) (w : World) (q : List Arrival) :
    b.start os { w with inbox := q } =
      ((b.start os w).1, (b.start os w).2.1, { (b.start os w).2.2 with inbox := q }) := by
  unfold UdpDiscoveryBackend.start UdpSocket.openSocket
  dsimp only
  have hconfigure := configureSocket_inbox os
    { b with socket := { fd := os.socket w.calls } } { w with calls := w.calls + 1 } q
  dsimp only at hconfigure
  rw [hconfigure]
  dsimp only
  simp only [bind_inbox]
  split_ifs <;> rfl

end Poll

namespace DiscoveryEngine

variable {T : Type} {deps : External T} {os : Os} {s : Runtime T}

variable (os) in
theorem start_withInbox (q : List Arrival) (s : Runtime T) :
    (start os (withInbox q s)).2 = withInbox q (start os s).2 := by
  have hstart := backendStart_inbox os s.backend s.world q
  unfold start withInbox
  dsimp only
  rw [hstart]
  split_ifs <;> rfl

theorem stop_withInbox (q : List Arrival) (s : Runtime T) :
    stop (withInbox q s) = withInbox q (stop s) := by
  unfold stop withInbox
  split_ifs <;> rfl

variable (deps os) in
theorem probeNow_withInbox (q : List Arrival) (s : Runtime T) :
    (probeNow deps os (withInbox q s)).2 = withInbox q (probeNow deps os s).2 := by
  cases hrunning : isRunning s with
  | false =>
      have hrunning' : isRunning (withInbox q s) = false := hrunning
      simp [probeNow, hrunning, hrunning']
  | true =>
      have hrunning' : isRunning (withInbox q s) = true := hrunning
      cases hc : s.context.configChecked with
      | error e =>
          have hc' : (withInbox q s).context.configChecked = .error e := hc
          simp [probeNow, hrunning, hrunning', hc, hc']
      | ok c =>
          have hsend := clientSend_inbox os deps.ser s.backend (probeEnvelope os c s.world.ticks)
            { s.world with ticks := s.world.ticks + 2 } q
          rw [probeNow_eq hrunning hc, probeNow_eq (s := withInbox q s) hrunning' hc]
          dsimp only [withInbox] at hsend ⊢
          rw [hsend]

theorem makeReplyMessage_inbox (context : DiscoveryContext T) (toNodeId correlationId : Bytes)
    (w : World) (q : List Arrival) :
    makeReplyMessage deps os context toNodeId correlationId { w with inbox := q } =
      ((makeReplyMessage deps os context toNodeId correlationId w).1,
        { (makeReplyMessage deps os context toNodeId correlationId w).2 with inbox := q }) := by
  unfold makeReplyMessage makeLocalAnnouncement
  cases context.configChecked <;> rfl

variable (deps os) in
theorem handleProbe_withInbox (envelope : DiscoveryEnvelope) (q : List Arrival) (s : Runtime T) :
    handleProbe deps os envelope (withInbox q s) =
      ((handleProbe deps os envelope s).1, withInbox q (handleProbe deps os envelope s).2) := by
  obtain ⟨r, hr⟩ : ∃ r, makeReplyMessage deps os s.context envelope.message.fromNodeId
      envelope.message.correlationId s.world = r := ⟨_, rfl⟩
  have hreply : makeReplyMessage deps os (withInbox q s).context envelope.message.fromNodeId
      envelope.message.correlationId (withInbox q s).world = (r.1, { r.2 with inbox := q }) := by
    rw [← hr]
    exact makeReplyMessage_inbox _ _ _ _ q
  have hsend : DiscoveryClient.send deps.ser os (withInbox q s).backend
      (.outbound r.1 envelope.fromHost envelope.fromPort (os.clock r.2.ticks))
      { r.2 with ticks := r.2.ticks + 1, inbox := q } = _ :=
    clientSend_inbox os deps.ser s.backend _ { r.2 with ticks := r.2.ticks + 1 } q
  unfold handleProbe
  split_ifs
  · rfl
  · simp only [hr, hreply, makeOutboundEnvelope, World.now, hsend]
    rfl

variable (deps os) in
theorem handleAnnouncement_withInbox (envelope : DiscoveryEnvelope) (q : List Arrival)
    (s : Runtime T) : handleAnnouncement deps os envelope (withInbox q s) =
      ((handleAnnouncement deps os envelope s).1,
        withInbox q (handleAnnouncement deps os envelope s).2) := by
  have hid : localNodeId (withInbox q s).context = localNodeId s.context := rfl
  unfold handleAnnouncement
  cases decodeAnnouncement deps.ser envelope.message.payload with
  | none => rfl
  | some a =>
      dsimp only
      rw [hid]
      split_ifs
      · rfl
      · rfl
      · rw [← integrateWithTransport_withInbox]
        rfl

variable (deps os) in
theorem dispatch_withInbox (inbound : DiscoveryEnvelope) (q : List Arrival) (s : Runtime T) :
    dispatch deps os inbound (withInbox q s) =
      ((dispatch deps os inbound s).1, withInbox q (dispatch deps os inbound s).2) := by
  have hid : localNodeId (withInbox q s).context = localNodeId s.context := rfl
  unfold dispatch
  rw [hid]
  split_ifs
  · rfl
  · rfl
  · cases inbound.message.type with
    | announce => exact handleAnnouncement_withInbox deps os inbound q s
    | probe => exact handleProbe_withInbox deps os inbound q s
    | reply => exact handleAnnouncement_withInbox deps os inbound q s
    | unknown => rfl
    | unnamed raw h => rfl

/-! ## Replaced arrivals -/

def relabel (f : Arrival → Arrival) (s : Runtime T) : Runtime T :=
  withInbox (s.world.inbox.map f) s

/-- Replacing the arrivals by `f` shows the backend of `s` nothing else. -/
def Unnoticed (ser : Serializer) (f : Arrival → Arrival) (arrivals : List Arrival)
    (s : Runtime T) : Prop :=
  ∀ a ∈ arrivals, seen ser s.backend.config.maxDatagramSize (f a) =
    seen ser s.backend.config.maxDatagramSize a

variable {f : Arrival → Arrival}

variable (os) in
theorem poll_relabel (h : Unnoticed deps.ser f s.world.inbox s) :
    s.backend.poll deps.ser os (relabel f s).world =
      ((s.backend.poll deps.ser os s.world).1,
        { (s.backend.poll deps.ser os s.world).2 with
          inbox := (s.backend.poll deps.ser os s.world).2.inbox.map f }) := by
  by_cases hdeaf : s.backend.running = false ∨ s.backend.socket.isValid = false ∨
      s.backend.config.maxDatagramSize = 0 ∨ s.world.inbox = []
  · have hdeaf' : s.backend.running = false ∨ s.backend.socket.isValid = false ∨
        s.backend.config.maxDatagramSize = 0 ∨ (relabel f s).world.inbox = [] := by
      simpa [relabel, withInbox] using hdeaf
    rw [poll_of_deaf hdeaf, poll_of_deaf hdeaf']
    rfl
  · simp only [not_or, Bool.not_eq_false] at hdeaf
    obtain ⟨hrunning, hsocket, hmax, hne⟩ := hdeaf
    obtain ⟨a, rest, hinbox⟩ := List.exists_cons_of_ne_nil hne
    have hseen := h a (by rw [hinbox]; exact List.mem_cons_self)
    have hinbox' : (relabel f s).world.inbox = f a :: rest.map f := by
      simp [relabel, withInbox, hinbox]
    rw [poll_of_inbox hrunning hsocket hmax hinbox, poll_of_inbox hrunning hsocket hmax hinbox',
      hseen]
    rfl

/-- A step that does not look at the inbox commutes with the replacement. -/
theorem relabel_of_withInbox {g : Runtime T → Runtime T}
    (h : ∀ q t, g (withInbox q t) = withInbox q (g t)) (f : Arrival → Arrival) (s : Runtime T) :
    g (relabel f s) = relabel f (g s) := by
  have hinbox : (g s).world.inbox = s.world.inbox := by
    have hself := h s.world.inbox s
    rw [withInbox_self] at hself
    rw [hself]
    rfl
  rw [relabel, h, relabel, hinbox]

variable (deps os f) in
theorem dispatch_relabel (inbound : DiscoveryEnvelope) (s : Runtime T) :
    dispatch deps os inbound (relabel f s) =
      ((dispatch deps os inbound s).1, relabel f (dispatch deps os inbound s).2) := by
  refine Prod.ext ?_ ?_
  · rw [relabel, dispatch_withInbox]
  · exact relabel_of_withInbox (g := fun t ↦ (dispatch deps os inbound t).2)
      (fun q t ↦ by rw [dispatch_withInbox]) f s

theorem receive_relabel (h : Unnoticed deps.ser f s.world.inbox s) :
    receive deps os (relabel f s) =
      ((receive deps os s).1, relabel f (receive deps os s).2) := by
  have hpoll := poll_relabel os h
  have hbackend : (relabel f s).backend = s.backend := rfl
  unfold receive
  rw [hbackend, hpoll]
  dsimp only
  cases (s.backend.poll deps.ser os s.world).1 with
  | none => rfl
  | some inbound =>
      exact dispatch_relabel deps os f inbound
        { s with world := (s.backend.poll deps.ser os s.world).2 }

theorem pollOnce_relabel (h : Unnoticed deps.ser f s.world.inbox s) :
    pollOnce deps os (relabel f s) =
      ((pollOnce deps os s).1, relabel f (pollOnce deps os s).2) := by
  have hsteady := timeDriven_steady deps os s
  have hrunning : isRunning (relabel f s) = isRunning s := rfl
  have htime := relabel_of_withInbox (g := timeDriven deps os) timeDriven_withInbox f s
  unfold pollOnce
  rw [hrunning, htime]
  split_ifs
  · rfl
  · apply receive_relabel
    unfold Unnoticed
    rw [hsteady.inbox, hsteady.backend]
    exact h

theorem pollOnce_inbox_subset (s : Runtime T) :
    (pollOnce deps os s).2.world.inbox ⊆ s.world.inbox := by
  have hsteady := timeDriven_steady deps os s
  have hdispatch (e : DiscoveryEnvelope) (t : Runtime T) :
      (dispatch deps os e t).2.world.inbox = t.world.inbox := by
    have hself := dispatch_withInbox deps os e t.world.inbox t
    rw [withInbox_self] at hself
    rw [hself]
    rfl
  unfold pollOnce
  split_ifs
  · exact List.Subset.refl _
  · rw [← hsteady.inbox]
    unfold receive
    dsimp only
    split
    · exact poll_inbox_subset _ _
    · rw [hdispatch]
      exact poll_inbox_subset _ _

theorem Unnoticed.pollOnce (h : Unnoticed deps.ser f s.world.inbox s) :
    Unnoticed deps.ser f (DiscoveryEngine.pollOnce deps os s).2.world.inbox
      (DiscoveryEngine.pollOnce deps os s).2 := by
  intro a ha
  rw [pollOnce_backend]
  exact h a (pollOnce_inbox_subset s ha)

theorem pollMany_relabel (h : Unnoticed deps.ser f s.world.inbox s) (maxMessages : ℕ) :
    pollMany deps os maxMessages (relabel f s) =
      ((pollMany deps os maxMessages s).1, relabel f (pollMany deps os maxMessages s).2) := by
  suffices ∀ processed s, Unnoticed deps.ser f s.world.inbox s →
      pollManyLoop deps os maxMessages processed (relabel f s) =
        ((pollManyLoop deps os maxMessages processed s).1,
          relabel f (pollManyLoop deps os maxMessages processed s).2) from this 0 s h
  induction maxMessages with
  | zero => exact fun _ _ _ ↦ rfl
  | succ rounds ih =>
      intro processed s h
      have hnext := ih (processed + 1) (DiscoveryEngine.pollOnce deps os s).2 h.pollOnce
      simp only [pollManyLoop, pollOnce_relabel h]
      split_ifs
      · rfl
      · exact hnext

/-! ## Runs -/

/-- The arrivals that a turn brings. -/
def Turn.arrivals : Turn T → List Arrival
  | environment inbox _ _ => inbox
  | _ => []

def Turn.relabel (f : Arrival → Arrival) : Turn T → Turn T
  | environment inbox transport readings => environment (inbox.map f) transport readings
  | t => t

theorem backendStart_config (b : UdpDiscoveryBackend) (w : World) :
    (b.start os w).2.1.config = b.config := by
  unfold UdpDiscoveryBackend.start
  dsimp only
  split_ifs <;> rfl

variable (deps os) in
theorem turn_backendConfig (t : Turn T) (s : Runtime T) :
    (t.apply deps os s).backend.config = s.backend.config := by
  cases t with
  | backendStart => exact backendStart_config _ _
  | backendStop => rfl
  | environment inbox transport readings => rfl
  | engine op =>
      by_cases hstart : op = .start
      · subst hstart
        have hbackend : (s.backend.start os s.world).2.1.config = _ := backendStart_config _ _
        rcases start_cases os s with ⟨-, heq⟩ | ⟨-, ⟨-, heq⟩ | ⟨-, -, heq⟩ | ⟨-, -, heq⟩⟩
        · rw [Turn.apply, exec, heq]
        · rw [Turn.apply, exec, heq]
        · rw [Turn.apply, exec, heq]
          exact hbackend
        · rw [Turn.apply, exec, heq]
          exact hbackend
      · by_cases hstop : op = .stop
        · subst hstop
          simp only [Turn.apply, exec, stop]
          split_ifs <;> rfl
        · rw [Turn.apply, exec_backend hstart hstop]

variable (deps os) in
theorem turn_relabel (t : Turn T) (h : Unnoticed deps.ser f s.world.inbox s) :
    (t.relabel f).apply deps os (DiscoveryEngine.relabel f s) =
      DiscoveryEngine.relabel f (t.apply deps os s) := by
  cases t with
  | environment inbox transport readings => rfl
  | backendStop => rfl
  | backendStart =>
      refine relabel_of_withInbox (g := Turn.backendStart.apply deps os) (fun q t ↦ ?_) f s
      have hstart := backendStart_inbox os t.backend t.world q
      unfold Turn.apply withInbox
      dsimp only
      rw [hstart]
  | engine op =>
      cases op with
      | start => exact relabel_of_withInbox (g := fun t ↦ (start os t).2) (start_withInbox os) f s
      | stop => exact relabel_of_withInbox stop_withInbox f s
      | announceNow =>
          exact relabel_of_withInbox (g := fun t ↦ (announceNow deps os t).2)
            (announceNow_withInbox deps os) f s
      | probeNow =>
          exact relabel_of_withInbox (g := fun t ↦ (probeNow deps os t).2)
            (probeNow_withInbox deps os) f s
      | pollOnce => exact congrArg Prod.snd (pollOnce_relabel h)
      | pollMany maxMessages => exact congrArg Prod.snd (pollMany_relabel h maxMessages)

variable (deps os) in
/-- What is pending after a turn was pending before it or came with it. -/
theorem turn_inbox_subset (t : Turn T) (s : Runtime T) :
    (t.apply deps os s).world.inbox ⊆ s.world.inbox ++ t.arrivals := by
  have hsame {s' : Runtime T} (h : s'.world.inbox = s.world.inbox) :
      s'.world.inbox ⊆ s.world.inbox ++ t.arrivals := by
    rw [h]
    exact List.subset_append_left _ _
  cases t with
  | environment inbox transport readings => exact List.subset_append_right _ _
  | backendStop => exact hsame rfl
  | backendStart =>
      have hstart : (s.backend.start os s.world).2.2.inbox = s.world.inbox := by
        rw [backendStart_callsOnly]
      exact hsame hstart
  | engine op =>
      cases op with
      | start =>
          have hself := start_withInbox os s.world.inbox s
          rw [withInbox_self] at hself
          exact hsame (by rw [Turn.apply, exec, hself]; rfl)
      | stop =>
          have hself := stop_withInbox s.world.inbox s
          rw [withInbox_self] at hself
          exact hsame (by rw [Turn.apply, exec, hself]; rfl)
      | announceNow => exact hsame (announceNow_quiet deps os s).inbox
      | probeNow => exact hsame (probeNow_quiet deps os s).inbox
      | pollOnce =>
          exact List.Subset.trans (pollOnce_inbox_subset s) (List.subset_append_left _ _)
      | pollMany maxMessages =>
          have hsubset : (pollMany deps os maxMessages s).2.world.inbox ⊆ s.world.inbox :=
            pollMany_induction (P := fun t ↦ t.world.inbox ⊆ s.world.inbox)
              (fun t ht ↦ List.Subset.trans (pollOnce_inbox_subset t) ht) maxMessages
              (List.Subset.refl _)
          exact List.Subset.trans hsubset (List.subset_append_left _ _)

variable (deps os) in
/-- Arrivals that are replaced without notice make no difference to any run. -/
theorem afterTurns_relabel (turns : List (Turn T))
    (h : Unnoticed deps.ser f (s.world.inbox ++ turns.flatMap Turn.arrivals) s) :
    afterTurns deps os (turns.map (Turn.relabel f)) (relabel f s) =
      relabel f (afterTurns deps os turns s) := by
  induction turns generalizing s with
  | nil => rfl
  | cons t turns ih =>
      have hpending : Unnoticed deps.ser f s.world.inbox s :=
        fun a ha ↦ h a (List.mem_append_left _ ha)
      rw [List.map_cons, afterTurns, afterTurns, turn_relabel deps os t hpending]
      refine ih fun a ha ↦ ?_
      rw [turn_backendConfig]
      apply h a
      rw [List.flatMap_cons, ← List.append_assoc]
      rcases List.mem_append.mp ha with hnow | hlater
      · exact List.mem_append_left _ (turn_inbox_subset deps os t s hnow)
      · exact List.mem_append_right _ hlater

/-! ## Datagrams that do not decode -/

/-- What does not decode is taken for a failed receive. -/
def hush (ser : Serializer) (maxSize : ℕ) (arrival : Arrival) : Arrival :=
  if (seen ser maxSize arrival).isSome then arrival else .failure

theorem seen_hush (ser : Serializer) (maxSize : ℕ) (arrival : Arrival) :
    seen ser maxSize (hush ser maxSize arrival) = seen ser maxSize arrival := by
  unfold hush
  split_ifs with h
  · rfl
  · rw [Option.not_isSome_iff_eq_none.mp h]
    rfl

variable (deps os) in
/-- Datagrams that do not decode cannot be told from receives that fail.  With
each of them replaced by a failure, every run of the engine and of the owner of
its backend goes through the same states, sends the same datagrams and makes the
same calls of the transport engine, and the polls return the same values. -/
theorem junk_is_silence (turns : List (Turn T)) (s : Runtime T) :
    let quiet := hush deps.ser s.backend.config.maxDatagramSize
    let s' := afterTurns deps os turns s
    let t' := afterTurns deps os (turns.map (Turn.relabel quiet)) (relabel quiet s)
    t' = { s' with world.inbox := s'.world.inbox.map quiet } ∧
      (pollOnce deps os t').1 = (pollOnce deps os s').1 ∧
      ∀ maxMessages,
        (pollMany deps os maxMessages t').1 = (pollMany deps os maxMessages s').1 := by
  have hconfig (turns : List (Turn T)) (s : Runtime T) :
      (afterTurns deps os turns s).backend.config = s.backend.config := by
    induction turns generalizing s with
    | nil => rfl
    | cons t turns ih => rw [afterTurns, ih, turn_backendConfig]
  have hunnoticed (arrivals : List Arrival) (t : Runtime T)
      (ht : t.backend.config = s.backend.config) :
      Unnoticed deps.ser (hush deps.ser s.backend.config.maxDatagramSize) arrivals t := by
    intro a _
    rw [ht]
    exact seen_hush _ _ _
  have hrun := afterTurns_relabel deps os turns (hunnoticed _ s rfl)
  dsimp only
  rw [hrun]
  have hafter := hconfig turns s
  refine ⟨rfl, ?_, fun maxMessages ↦ ?_⟩
  · rw [pollOnce_relabel (hunnoticed _ _ hafter)]
  · rw [pollMany_relabel (hunnoticed _ _ hafter)]

end DiscoveryEngine

end Discovery
