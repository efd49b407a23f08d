import Discovery.Interference
import Discovery.Network
import Discovery.PollRuns

/-!
# Replies answer probes

A reply goes back to the source of one probe that was read and quotes its
correlation id.  No probe that was read is answered twice, and unless a send fails
each one is answered.  Everything else that an engine sends goes to its broadcast
address.  In a network of engines every reply answers a probe that some other
engine sent.
-/

namespace Discovery

open DiscoveryEncoder DiscoveryDecoder

namespace DiscoveryEngine

variable {T : Type} {deps : External T} {os : Os} {s s' : Runtime T} {c : DiscoveryConfig}

/-! ## Requests and replies -/

/-- Where a reply goes, whom it addresses and which request it quotes. -/
structure ReplyHeader where
  host : Bytes
  port : UInt16
  toNodeId : Bytes
  correlationId : Bytes
deriving DecidableEq

/-- The reply that a datagram carries. -/
def replyOf (ser : Serializer) (d : Datagram) : Option ReplyHeader :=
  match decodeMessage ser d.payload with
  | none => none
  | some m => if m.type = .reply then some ⟨d.host, d.port, m.toNodeId, m.correlationId⟩ else none

/-- The reply that an arrival asks for. -/
def requestOf (ser : Serializer) (maxSize : ℕ) (localId : Bytes) (arrival : Arrival) :
    Option ReplyHeader :=
  match react ser maxSize localId arrival with
  | .answer m host port => some ⟨host, port, m.fromNodeId, m.correlationId⟩
  | _ => none

/-- The replies answer what was read, and the rest is broadcast. -/
structure Said (ser : Serializer) (os : Os) (c : DiscoveryConfig) (maxSize : ℕ)
    (reads : List Arrival) (sent : List Datagram) : Prop where
  replies : (sent.filterMap (replyOf ser)).Sublist
    (reads.filterMap (requestOf ser maxSize c.nodeId))
  unasked : ∀ d ∈ sent, replyOf ser d = none → d.host = c.broadcastHost ∧ d.port = c.broadcastPort
  complete : os.ClockPositive → os.SendsSucceed →
    (∀ r ∈ reads.filterMap (requestOf ser maxSize c.nodeId), os.inetPton r.host = true) →
      sent.filterMap (replyOf ser) = reads.filterMap (requestOf ser maxSize c.nodeId)

/-- On the way from `w` to `w'` the process takes `reads` from the queue, and sends
`sent`. -/
structure Talk (ser : Serializer) (os : Os) (c : DiscoveryConfig) (maxSize : ℕ)
    (reads : List Arrival) (w w' : World) (sent : List Datagram) : Prop
    extends Said ser os c maxSize reads sent where
  inbox : w.inbox = reads ++ w'.inbox
  outbox : w'.outbox = w.outbox ++ sent

def Talks (ser : Serializer) (os : Os) (c : DiscoveryConfig) (maxSize : ℕ)
    (reads : List Arrival) (w w' : World) : Prop :=
  ∃ sent, Talk ser os c maxSize reads w w' sent

section Talks

variable {ser : Serializer} {maxSize : ℕ} {reads reads' : List Arrival} {w w' w'' : World}
  {sent sent' : List Datagram}

theorem Said.nil : Said ser os c maxSize [] [] :=
  ⟨.refl _, by simp, fun _ _ _ ↦ rfl⟩

theorem Said.append (h : Said ser os c maxSize reads sent)
    (h' : Said ser os c maxSize reads' sent') :
    Said ser os c maxSize (reads ++ reads') (sent ++ sent') := by
  refine ⟨?_, ?_, ?_⟩
  · rw [List.filterMap_append, List.filterMap_append]
    exact h.replies.append h'.replies
  · intro d hd
    rcases List.mem_append.mp hd with hd | hd
    · exact h.unasked d hd
    · exact h'.unasked d hd
  · intro hclock hsends hpton
    rw [List.filterMap_append] at hpton
    rw [List.filterMap_append, List.filterMap_append,
      h.complete hclock hsends fun r hr ↦ hpton r (List.mem_append_left _ hr),
      h'.complete hclock hsends fun r hr ↦ hpton r (List.mem_append_right _ hr)]

theorem Talks.silent (hinbox : w'.inbox = w.inbox) (houtbox : w'.outbox = w.outbox) :
    Talks ser os c maxSize [] w w' :=
  ⟨[], .nil, by simp [hinbox], by simp [houtbox]⟩

theorem Talks.trans (h : Talks ser os c maxSize reads w w')
    (h' : Talks ser os c maxSize reads' w' w'') :
    Talks ser os c maxSize (reads ++ reads') w w'' := by
  obtain ⟨sent, h⟩ := h
  obtain ⟨sent', h'⟩ := h'
  refine ⟨sent ++ sent', h.toSaid.append h'.toSaid, ?_, ?_⟩
  · rw [h.inbox, h'.inbox, List.append_assoc]
  · rw [h'.outbox, h.outbox, List.append_assoc]

theorem Talks.trans_nil (h : Talks ser os c maxSize [] w w')
    (h' : Talks ser os c maxSize reads w' w'') : Talks ser os c maxSize reads w w'' := h.trans h'

theorem replyOf_encode (hser : ser.Lawful) {m : DiscoveryMessage} (hfits : m.Fits)
    (hvalid : m.isValid = true) (host : Bytes) (port : UInt16) :
    replyOf ser ⟨host, port, encodeMessage ser m⟩ =
      if m.type = .reply then some ⟨host, port, m.toNodeId, m.correlationId⟩ else none := by
  have hdecode := (MessageCodec.decode_encode_iff_fits hser hvalid).mpr hfits
  simp only [replyOf, hdecode]

/-- A message of one's own that is no reply. -/
theorem talks_of_send (hser : ser.Lawful) {e : DiscoveryEnvelope}
    {tried : List DiscoveryEnvelope} (h : SendSpec ser e tried w w') (hfits : e.message.Fits)
    (htype : e.message.type ≠ .reply) (hhost : e.toHost = c.broadcastHost)
    (hport : e.toPort = c.broadcastPort) : Talks ser os c maxSize [] w w' := by
  rcases h.outbox with houtbox | ⟨hvalid, houtbox⟩
  · exact .silent h.inbox houtbox
  · have hnone := replyOf_encode hser hfits hvalid e.toHost e.toPort
    rw [if_neg htype] at hnone
    refine ⟨[⟨e.toHost, e.toPort, encodeMessage ser e.message⟩],
      ⟨by simp [hnone], ?_, fun _ _ _ ↦ by simp [hnone]⟩, by simp [h.inbox], houtbox⟩
    intro d hd _
    rw [List.mem_singleton.mp hd]
    exact ⟨hhost, hport⟩

end Talks

/-! ## One operation -/

theorem announceNow_talks (hser : deps.ser.Lawful) (hfit : c.SizesFit)
    (hc : s.context.config = some c) (maxSize : ℕ) :
    Talks deps.ser os c maxSize [] s.world (announceNow deps os s).2.world := by
  cases hrunning : isRunning s with
  | false => simpa [announceNow, hrunning] using Talks.silent rfl rfl
  | true =>
      cases hchecked : s.context.configChecked with
      | error e => simpa [announceNow, hrunning, hchecked] using Talks.silent rfl rfl
      | ok c' =>
          have hsome := ((DiscoveryContext.configChecked_eq_ok_iff _ _).mp hchecked).1
          obtain rfl : c = c' := by simpa [hc] using hsome
          have hsend := clientSend_spec deps.ser os s.backend
            (announceEnvelope deps.ser os c s.world.ticks)
            { s.world with ticks := s.world.ticks + 3 }
          have hread : Talks deps.ser os c maxSize [] s.world
              { s.world with ticks := s.world.ticks + 3 } := .silent rfl rfl
          have hannounce : DiscoveryMessageType.announce ≠ .reply := by decide
          have hsent := hread.trans_nil (talks_of_send hser hsend
            (authored_announceMessage hser hfit _ _).fits hannounce rfl rfl)
          rw [announceNow_eq hrunning hchecked]
          dsimp only
          split_ifs
          · exact hsent.trans_nil (.silent rfl rfl)
          · exact hsent

theorem probeNow_talks (hser : deps.ser.Lawful) (hfit : c.SizesFit)
    (hc : s.context.config = some c) (maxSize : ℕ) :
    Talks deps.ser os c maxSize [] s.world (probeNow deps os s).2.world := by
  cases hrunning : isRunning s with
  | false => simpa [probeNow, hrunning] using Talks.silent rfl rfl
  | true =>
      cases hchecked : s.context.configChecked with
      | error e => simpa [probeNow, hrunning, hchecked] using Talks.silent rfl rfl
      | ok c' =>
          have hsome := ((DiscoveryContext.configChecked_eq_ok_iff _ _).mp hchecked).1
          obtain rfl : c = c' := by simpa [hc] using hsome
          have hsend := clientSend_spec deps.ser os s.backend (probeEnvelope os c s.world.ticks)
            { s.world with ticks := s.world.ticks + 2 }
          have hread : Talks deps.ser os c maxSize [] s.world
              { s.world with ticks := s.world.ticks + 2 } := .silent rfl rfl
          rw [probeNow_eq hrunning hchecked]
          have hprobe : DiscoveryMessageType.probe ≠ .reply := by decide
          exact hread.trans_nil (talks_of_send hser hsend
            (authored_probeMessage deps.ser hfit _).fits hprobe rfl rfl)

variable (os) in
theorem timeDriven_talks (hser : deps.ser.Lawful) (hfit : c.SizesFit)
    (hc : s.context.config = some c) (maxSize : ℕ) :
    Talks deps.ser os c maxSize [] s.world (timeDriven deps os s).world := by
  have hrefresh (t : Runtime T) :
      Talks deps.ser os c maxSize [] t.world (refreshPeerStates os t).world := by
    unfold refreshPeerStates World.now
    split
    · exact .silent rfl rfl
    · exact .silent rfl rfl
  have hannounce : Talks deps.ser os c maxSize [] s.world (maybeAnnounce deps os s).world := by
    unfold maybeAnnounce World.now
    split
    · exact .silent rfl rfl
    · dsimp only
      split_ifs
      · have hread : Talks deps.ser os c maxSize [] s.world
            { s.world with ticks := s.world.ticks + 1 } := .silent rfl rfl
        exact hread.trans_nil (announceNow_talks
          (s := { s with world.ticks := s.world.ticks + 1 }) hser hfit hc maxSize)
      · exact .silent rfl rfl
  exact hannounce.trans_nil (hrefresh _)

/-- Reading an arrival that asks for nothing. -/
theorem talks_of_unasked {ser : Serializer} {w w' : World} (maxSize : ℕ)
    (hinbox : w'.inbox = w.inbox.tail) (houtbox : w'.outbox = w.outbox)
    (hask : ∀ a ∈ w.inbox.head?, requestOf ser maxSize c.nodeId a = none) :
    Talks ser os c maxSize w.inbox.head?.toList w w' := by
  cases hpending : w.inbox with
  | nil =>
      rw [hpending, List.tail_nil] at hinbox
      exact .silent (by rw [hinbox, hpending]) houtbox
  | cons a rest =>
      rw [hpending, List.tail_cons] at hinbox
      have hnone : requestOf ser maxSize c.nodeId a = none := hask a (by rw [hpending]; rfl)
      exact ⟨[], ⟨by simp, by simp, fun _ _ _ ↦ by simp [hnone]⟩, by simp [hinbox, hpending],
        by simp [houtbox]⟩

theorem requestOf_of_nextReaction {r : Reaction} (hr : nextReaction deps c s = r)
    (hunasked : ∀ m host port, r ≠ .answer m host port) :
    ∀ a ∈ s.world.inbox.head?,
      requestOf deps.ser s.backend.config.maxDatagramSize c.nodeId a = none := by
  intro a ha
  cases hpending : s.world.inbox with
  | nil => simp [hpending] at ha
  | cons a' rest =>
      obtain rfl : a' = a := by simpa [hpending] using ha
      simp only [nextReaction, hpending] at hr
      unfold requestOf
      rw [hr]
      cases r with
      | reject => rfl
      | accept a => rfl
      | answer m host port => exact absurd rfl (hunasked m host port)

theorem answer_talks (hser : deps.ser.Lawful) (hfit : c.SizesFit) (h : Live s c)
    {m : DiscoveryMessage} {host : Bytes} {port : UInt16}
    (hr : nextReaction deps c s = .answer m host port) :
    Talks deps.ser os c s.backend.config.maxDatagramSize s.world.inbox.head?.toList
      (timeDriven deps os s).world (pollOnce deps os s).2.world := by
  have hinbox : (timeDriven deps os s).world.inbox = s.world.inbox :=
    (timeDriven_steady deps os s).inbox
  obtain ⟨arrival, rest, hpending, hreact⟩ : ∃ arrival rest, s.world.inbox = arrival :: rest ∧
      react deps.ser s.backend.config.maxDatagramSize c.nodeId arrival = .answer m host port := by
    cases hpending : s.world.inbox with
    | nil => simp [nextReaction, hpending] at hr
    | cons arrival rest => exact ⟨arrival, rest, rfl, by simpa [nextReaction, hpending] using hr⟩
  have hanswered := answered_of_react hreact
  have hrequest : requestOf deps.ser s.backend.config.maxDatagramSize c.nodeId arrival =
      some ⟨host, port, m.fromNodeId, m.correlationId⟩ := by
    simp [requestOf, hreact]
  have hsend := clientSend_spec deps.ser os s.backend
    (replyEnvelope deps.ser os c m host port ((timeDriven deps os s).world.ticks + 2))
    (consumed (timeDriven deps os s) s.world.inbox.tail 4).world
  have hfits := (authored_replyMessage hser hfit (hanswered.fits hser)
    (os.clock ((timeDriven deps os s).world.ticks + 2))).fits
  have hread : (timeDriven deps os s).world.inbox =
      [arrival] ++ (pollOnce deps os s).2.world.inbox := by
    rw [pollOnce_of_answer h hr, hsend.inbox, hinbox, hpending]
    simp [consumed]
  have hanswer (hclock : os.ClockPositive) (hsends : os.SendsSucceed)
      (hpton : os.inetPton host = true) :=
    (pollOnce_answer hser h hclock hsends hanswered.host hanswered.port hpton hr).2.2
  have hpton : (∀ r ∈ [arrival].filterMap
      (requestOf deps.ser s.backend.config.maxDatagramSize c.nodeId),
        os.inetPton r.host = true) → os.inetPton host = true := by
    intro hall
    exact hall ⟨host, port, m.fromNodeId, m.correlationId⟩ (by simp [hrequest])
  have hreads : s.world.inbox.head?.toList = [arrival] := by rw [hpending]; rfl
  rw [hreads]
  rw [pollOnce_of_answer h hr] at hread hanswer ⊢
  rcases hsend.outbox with houtbox | ⟨hvalid, houtbox⟩
  · refine ⟨[], ⟨by simp, by simp, fun hclock hsends hall ↦ ?_⟩, hread,
      by rw [List.append_nil]; exact houtbox⟩
    have hsent := houtbox.symm.trans (hanswer hclock hsends (hpton hall))
    simp [consumed] at hsent
  · have hreply := (replyOf_encode hser hfits hvalid host port).trans (if_pos rfl)
    have heq := (List.filterMap_cons_some (l := []) hreply).trans
      (List.filterMap_cons_some (l := []) hrequest).symm
    refine ⟨_, ⟨?_, fun d hd hnone ↦ ?_, fun _ _ _ ↦ heq⟩, hread, houtbox⟩
    · exact heq ▸ .refl _
    · obtain rfl := List.mem_singleton.mp hd
      cases hreply.symm.trans hnone

/-- What `poll_once` reads if it is entered in `s`. -/
def readNext (s : Runtime T) : List Arrival :=
  if isRunning s then s.world.inbox.head?.toList else []

variable (os) in
theorem pollOnce_talks (hser : deps.ser.Lawful) (hfit : c.SizesFit)
    (hc : s.context.config = some c) (h : isRunning s = true → Live s c) :
    Talks deps.ser os c s.backend.config.maxDatagramSize (readNext s) s.world
      (pollOnce deps os s).2.world := by
  unfold readNext
  cases hrunning : isRunning s with
  | false =>
      rw [pollOnce_of_not_running hrunning, if_neg Bool.false_ne_true]
      exact .silent rfl rfl
  | true =>
      rw [if_pos rfl]
      have hlive := h hrunning
      have hsteady := timeDriven_steady deps os s
      have htime := timeDriven_talks os hser hfit hc s.backend.config.maxDatagramSize
      refine htime.trans_nil ?_
      have hinbox : (timeDriven deps os s).world.inbox = s.world.inbox := hsteady.inbox
      rcases pollOnce_cases deps os hlive with
        ⟨hr, k, heq⟩ | ⟨a, hr, heq⟩ | ⟨m, host, port, hr, -⟩
      · have hask := requestOf_of_nextReaction hr (by simp)
        rw [← hinbox] at hask
        rw [heq, ← hinbox]
        exact talks_of_unasked _ rfl rfl hask
      · have hask := requestOf_of_nextReaction hr (by simp)
        rw [← hinbox] at hask
        rw [heq, ← hinbox, (integrateWithTransport_handOff _ _ _).world]
        exact talks_of_unasked _ rfl rfl hask
      · exact answer_talks hser hfit hlive hr

/-! ## Runs -/

/-- What the engine needs in order to serve once it runs; unlike `Sound` it
survives the owner's calls on the backend. -/
structure Ready (s : Runtime T) (c : DiscoveryConfig) : Prop where
  context : s.context.config = some c
  socket : s.backend.running = true → s.backend.socket.isValid = true
  config : s.backend.running = true → s.backend.config.isValid = true
  valid : s.engine.status.isRunning = true → s.context.isValid = true

theorem Ready.live (h : Ready s c) (hrunning : isRunning s = true) : Live s c := by
  obtain ⟨hstatus, hbackend⟩ := Bool.and_eq_true_iff.mp hrunning
  obtain ⟨-, c', hc⟩ := (DiscoveryContext.isValid_iff _).mp (h.valid hstatus)
  have hsome := ((DiscoveryContext.configChecked_eq_ok_iff _ _).mp hc).1
  rw [h.context, Option.some.injEq] at hsome
  exact ⟨hrunning, hsome ▸ hc, h.socket hbackend,
    ((DiscoveryConfig.isValid_iff _).mp (h.config hbackend)).maxDatagramSize⟩

theorem Ready.of_kept (h : Ready s c) (hk : Kept s s') : Ready s' c where
  context := hk.config.trans h.context
  socket := by rw [hk.backend]; exact h.socket
  config := by rw [hk.backend]; exact h.config
  valid hstatus := isValid_of_kept hk (h.valid (by rwa [hk.status] at hstatus))

theorem Ready.pollOnce_kept (h : Ready s c) : Kept s (pollOnce deps os s).2 := by
  cases hrunning : isRunning s with
  | false => rw [pollOnce_of_not_running hrunning]; exact .refl s
  | true => exact (pollOnce_spec _ _ (h.live hrunning)).kept

variable (os) in
theorem Ready.start (h : Ready s c) : Ready (start os s).2 c := by
  obtain ⟨-, -, hrun⟩ := backendStart_spec os s.world h.socket h.config
  rcases start_cases os s with ⟨-, heq⟩ | ⟨-, ⟨-, heq⟩ | ⟨-, -, heq⟩ | ⟨hctx, -, heq⟩⟩
  · rw [heq]
    exact h
  · rw [heq]
    exact ⟨h.context, h.socket, h.config, by simp [DiscoveryStatus.isRunning]⟩
  · rw [heq]
    exact ⟨h.context, fun hr ↦ (hrun hr).1, fun hr ↦ (hrun hr).2,
      by simp [DiscoveryStatus.isRunning]⟩
  · rw [heq]
    exact ⟨h.context, fun hr ↦ (hrun hr).1, fun hr ↦ (hrun hr).2, fun _ ↦ hctx⟩

theorem Ready.stop (h : Ready s c) : Ready (stop s) c := by
  unfold DiscoveryEngine.stop
  split_ifs with hstatus
  · exact h
  · exact ⟨h.context, by simp [UdpDiscoveryBackend.stop], by simp [UdpDiscoveryBackend.stop],
      by simp [DiscoveryStatus.isRunning]⟩

variable (deps os) in
theorem Ready.turn (h : Ready s c) (t : Turn T) : Ready (t.apply deps os s) c := by
  cases t with
  | backendStart =>
      obtain ⟨-, -, hrun⟩ := backendStart_spec os s.world h.socket h.config
      exact ⟨h.context, fun hr ↦ (hrun hr).1, fun hr ↦ (hrun hr).2, h.valid⟩
  | backendStop =>
      exact ⟨h.context, by simp [Turn.apply, UdpDiscoveryBackend.stop],
        by simp [Turn.apply, UdpDiscoveryBackend.stop], h.valid⟩
  | environment inbox transport readings =>
      exact h.of_kept (environment_kept inbox transport readings s)
  | engine op =>
      cases op with
      | start => exact h.start os
      | stop => exact h.stop
      | announceNow => exact h.of_kept (announceNow_quiet deps os s).kept
      | probeNow => exact h.of_kept (probeNow_quiet deps os s).kept
      | pollOnce => exact h.of_kept h.pollOnce_kept
      | pollMany maxMessages =>
          exact pollMany_induction (P := fun t ↦ Ready t c)
            (fun t ht ↦ ht.of_kept ht.pollOnce_kept) maxMessages h

/-! ## What a run reads -/

/-- The arrivals that the polls of a turn read. -/
def Turn.reads (deps : External T) (os : Os) : Turn T → Runtime T → List Arrival
  | engine op, s => (op.entries deps os s).flatMap readNext
  | _, _ => []

/-- The arrivals that the polls of a run read. -/
def readsOf (deps : External T) (os : Os) : List (Turn T) → Runtime T → List Arrival
  | [], _ => []
  | t :: turns, s => t.reads deps os s ++ readsOf deps os turns (t.apply deps os s)

variable (os) in
theorem backendStart_boxes (b : UdpDiscoveryBackend) (w : World) :
    (b.start os w).2.2.inbox = w.inbox ∧ (b.start os w).2.2.outbox = w.outbox := by
  rw [backendStart_callsOnly os b w]
  exact ⟨rfl, rfl⟩

variable (os) in
theorem Ready.exec_talks (h : Ready s c) (hser : deps.ser.Lawful) (hfit : c.SizesFit) (op : Op) :
    Talks deps.ser os c s.backend.config.maxDatagramSize
      ((op.entries deps os s).flatMap readNext) s.world (exec deps os op s).world := by
  cases op with
  | start =>
      obtain ⟨hinbox, houtbox⟩ := backendStart_boxes os s.backend s.world
      rw [exec]
      rcases start_cases os s with ⟨-, heq⟩ | ⟨-, ⟨-, heq⟩ | ⟨-, -, heq⟩ | ⟨-, -, heq⟩⟩
      · rw [heq]
        exact .silent rfl rfl
      · rw [heq]
        exact .silent rfl rfl
      · rw [heq]
        exact .silent hinbox houtbox
      · rw [heq]
        exact .silent hinbox houtbox
  | stop =>
      rw [exec, DiscoveryEngine.stop]
      split_ifs
      · exact .silent rfl rfl
      · exact .silent rfl rfl
  | announceNow => exact announceNow_talks hser hfit h.context _
  | probeNow => exact probeNow_talks hser hfit h.context _
  | pollOnce =>
      have hpoll := pollOnce_talks os hser hfit h.context h.live
      rwa [← List.flatMap_singleton (f := readNext) s] at hpoll
  | pollMany maxMessages =>
      refine (pollManyEntries_induction (l := []) (P := fun entries t ↦ Ready t c ∧
        t.backend = s.backend ∧ Talks deps.ser os c s.backend.config.maxDatagramSize
          (entries.flatMap readNext) s.world t.world) ?_ maxMessages
        ⟨h, rfl, .silent rfl rfl⟩).2.2
      rintro entries t ⟨ht, hsame, htalks⟩
      have hpoll := pollOnce_talks os hser hfit ht.context ht.live
      rw [hsame] at hpoll
      refine ⟨ht.of_kept ht.pollOnce_kept, (pollOnce_backend deps os t).trans hsame, ?_⟩
      rw [List.flatMap_append, List.flatMap_singleton]
      exact htalks.trans hpoll

variable (os) in
theorem Ready.turn_said (h : Ready s c) (hser : deps.ser.Lawful) (hfit : c.SizesFit) (t : Turn T) :
    (t.reads deps os s ++ (t.apply deps os s).world.inbox).Sublist
        (s.world.inbox ++ t.arrivals) ∧
      ∃ sent, (t.apply deps os s).world.outbox = s.world.outbox ++ sent ∧
        Said deps.ser os c s.backend.config.maxDatagramSize (t.reads deps os s) sent := by
  cases t with
  | engine op =>
      obtain ⟨sent, htalk⟩ := h.exec_talks os hser hfit op
      refine ⟨?_, sent, htalk.outbox, htalk.toSaid⟩
      exact htalk.inbox ▸ List.sublist_append_left _ _
  | backendStart =>
      obtain ⟨hinbox, houtbox⟩ := backendStart_boxes os s.backend s.world
      exact ⟨hinbox ▸ List.sublist_append_left _ _, [],
        houtbox.trans (List.append_nil _).symm, .nil⟩
  | backendStop => exact ⟨List.sublist_append_left _ _, [], by simp [Turn.apply], .nil⟩
  | environment inbox transport readings =>
      exact ⟨List.sublist_append_right _ _, [], by simp [Turn.apply, environment], .nil⟩

variable (os) in
theorem Ready.said_of_run (h : Ready s c) (hser : deps.ser.Lawful) (hfit : c.SizesFit)
    (turns : List (Turn T)) :
    (readsOf deps os turns s ++ (afterTurns deps os turns s).world.inbox).Sublist
        (s.world.inbox ++ turns.flatMap Turn.arrivals) ∧
      ∃ sent, (afterTurns deps os turns s).world.outbox = s.world.outbox ++ sent ∧
        Said deps.ser os c s.backend.config.maxDatagramSize (readsOf deps os turns s) sent := by
  induction turns generalizing s with
  | nil => exact ⟨List.sublist_append_left _ _, [], by simp [afterTurns], .nil⟩
  | cons t turns ih =>
      obtain ⟨hinbox, sent, houtbox, hsaid⟩ := h.turn_said os hser hfit t
      obtain ⟨hinbox', sent', houtbox', hsaid'⟩ := ih (h.turn deps os t)
      rw [turn_backendConfig] at hsaid'
      refine ⟨?_, sent ++ sent', ?_, hsaid.append hsaid'⟩
      · have hlater := hinbox'.append_left (t.reads deps os s)
        have hearlier := hinbox.append_right (turns.flatMap Turn.arrivals)
        rw [← List.append_assoc, ← List.append_assoc] at hlater
        rw [List.flatMap_cons, ← List.append_assoc]
        exact hlater.trans hearlier
      · rw [afterTurns, houtbox', houtbox, List.append_assoc]

variable (os) in
theorem Ready.run (h : Ready s c) (turns : List (Turn T)) :
    Ready (afterTurns deps os turns s) c := by
  induction turns generalizing s with
  | nil => exact h
  | cons t turns ih => exact ih (h.turn deps os t)

variable (os) in
/-- In every run the replies answer distinct arrivals among those that the polls
read, in the order of these, and all of them if no send fails; the rest of what is
sent goes to the broadcast address.  No arrival is read twice, and what a call
takes from the queue is what its polls read. -/
theorem replies_answer_requests (hser : deps.ser.Lawful) (hfit : c.SizesFit)
    (context : DiscoveryContext T) (hc : context.config = some c) (config : DiscoveryConfig)
    (world : World) (turns : List (Turn T)) :
    let s : Runtime T := { context, backend := { config }, world }
    let s' := afterTurns deps os turns s
    let reads := readsOf deps os turns s
    let requests := List.filterMap (requestOf deps.ser config.maxDatagramSize c.nodeId)
    (reads ++ s'.world.inbox).Sublist (world.inbox ++ turns.flatMap Turn.arrivals) ∧
      (∀ op, s'.world.inbox =
        Turn.reads deps os (.engine op) s' ++ (exec deps os op s').world.inbox) ∧
      ∃ sent, s'.world.outbox = world.outbox ++ sent ∧
        (sent.filterMap (replyOf deps.ser)).Sublist (requests reads) ∧
        (∀ d ∈ sent, replyOf deps.ser d = none →
          d.host = c.broadcastHost ∧ d.port = c.broadcastPort) ∧
        (os.ClockPositive → os.SendsSucceed →
          (∀ r ∈ requests reads, os.inetPton r.host = true) →
            sent.filterMap (replyOf deps.ser) = requests reads) := by
  have hready : Ready { context, backend := { config }, world } c :=
    ⟨hc, by simp, by simp, by simp [DiscoveryStatus.isRunning]⟩
  obtain ⟨hinbox, sent, houtbox, hsaid⟩ := hready.said_of_run os hser hfit turns
  refine ⟨hinbox, fun op ↦ ?_, sent, houtbox, hsaid.replies, hsaid.unasked, hsaid.complete⟩
  obtain ⟨_, htalk⟩ := (hready.run os turns).exec_talks os hser hfit op
  exact htalk.inbox

section Nodes

open Simulation

/-- A start, a probe that arrives twice, and three polls. -/
def probedTwice : List (Turn (List PeerInfo)) :=
  let probe : Arrival := .datagram (ascii "127.0.0.1") 9500
    (encodeMessage .littleEndian (probeMessage (Simulation.config "node-a" 9500) ⟨7⟩))
  [.engine .start, .environment [probe, probe] id 0, .engine (.pollMany 3)]

/-- Both copies of the probe are read, and each is answered. -/
theorem replies_answer_requests_twice :
    (afterTurns listing (system (ticking 1000)) probedTwice
      (node "node-b" 9400)).world.outbox.filterMap (replyOf .littleEndian) =
        List.replicate 2 ⟨ascii "127.0.0.1", 9500, ascii "node-a", ascii "probe-7"⟩ := by
  obtain ⟨-, -, sent, houtbox, -, -, hall⟩ :=
    replies_answer_requests (system (ticking 1000)) listing_lawful
      (c := Simulation.config "node-b" 9400) (by unfold DiscoveryConfig.SizesFit; decide)
      (node "node-b" 9400).context rfl (Simulation.config "node-b" 9400) {} probedTwice
  have hnode : node "node-b" 9400 =
      { context := (node "node-b" 9400).context
        backend := { config := Simulation.config "node-b" 9400 } } := rfl
  have hreplies := hall (clockPositive_ticking (by decide)) (sendsSucceed_system _) fun _ _ ↦ rfl
  rw [hnode, houtbox]
  exact hreplies.trans (by decide +kernel)

end Nodes

end DiscoveryEngine

/-! ## Replies in the network -/

namespace Network

open DiscoveryEngine

variable {ι T : Type} {deps : External T} {os : ι → Os} {configs : ι → DiscoveryConfig}
  {N N' N'' : Network ι T}

/-- Another engine sent a probe to which the reply of engine `i` belongs. -/
def Solicited (ser : Serializer) (configs : ι → DiscoveryConfig) (N : Network ι T) (i : ι)
    (r : ReplyHeader) : Prop :=
  ∃ j stamp, (configs j).nodeId ≠ (configs i).nodeId ∧ r.toNodeId = (configs j).nodeId ∧
    r.correlationId = correlationIdAt "probe" stamp ∧
    ∃ d ∈ (N j).world.outbox, d.payload = encodeMessage ser (probeMessage (configs j) stamp)

/-- What is pending is in flight, a probe is the sender's own, and replies are
solicited. -/
structure Asked (ser : Serializer) (configs : ι → DiscoveryConfig) (N : Network ι T) (i : ι) :
    Prop where
  pending : ∀ a ∈ (N i).world.inbox, InFlight N a
  probes : ∀ d ∈ (N i).world.outbox, ∀ m, decodeMessage ser d.payload = some m →
    m.type = .probe → ∃ stamp, m = probeMessage (configs i) stamp
  replies : ∀ d ∈ (N i).world.outbox, ∀ r, replyOf ser d = some r → Solicited ser configs N i r

theorem Initial.asked {ser : Serializer} (h : Initial configs N) (i : ι) :
    Asked ser configs N i := by
  obtain ⟨-, -, -, hinbox, houtbox⟩ := h i
  constructor <;> simp [hinbox, houtbox]

theorem InFlight.mono (h : ∀ j, (N j).world.outbox ⊆ (N' j).world.outbox) {a : Arrival}
    (ha : InFlight N a) : InFlight N' a := by
  cases ha with
  | failure => exact .failure
  | datagram sender hd host port cut => exact .datagram sender (h sender hd) host port cut

theorem Solicited.mono {ser : Serializer} (h : ∀ j, (N j).world.outbox ⊆ (N' j).world.outbox)
    {i : ι} {r : ReplyHeader} (hr : Solicited ser configs N i r) :
    Solicited ser configs N' i r := by
  obtain ⟨j, stamp, hne, hto, hcorr, d, hd, hpayload⟩ := hr
  exact ⟨j, stamp, hne, hto, hcorr, d, h j hd, hpayload⟩

theorem Asked.mono {ser : Serializer} (h : ∀ j, (N j).world.outbox ⊆ (N' j).world.outbox) {i : ι}
    (hsame : N' i = N i) (hi : Asked ser configs N i) : Asked ser configs N' i := by
  refine ⟨fun a ha ↦ ?_, fun d hd ↦ ?_, fun d hd r hr ↦ ?_⟩
  · rw [hsame] at ha
    exact (hi.pending a ha).mono h
  · rw [hsame] at hd
    exact hi.probes d hd
  · rw [hsame] at hd
    exact (hi.replies d hd r hr).mono h

/-- Whatever a pending arrival asks for was asked by the engine that sent it. -/
theorem solicited_of_request {ser : Serializer} (hser : ser.Lawful)
    (h : Invariant ser configs N) (hasked : ∀ i, Asked ser configs N i) {i : ι} {maxSize : ℕ}
    {a : Arrival} (ha : InFlight N a) {r : ReplyHeader}
    (hr : requestOf ser maxSize (configs i).nodeId a = some r) : Solicited ser configs N i r := by
  unfold requestOf at hr
  split at hr
  next m host port hreact =>
    obtain rfl := Option.some.inj hr
    cases ha with
    | failure =>
        have hempty : react ser maxSize (configs i).nodeId .failure = .reject := rfl
        rw [hempty] at hreact
        cases hreact
    | @datagram sender d hd host' port' cut =>
        obtain ⟨⟨-, hdecode, -, hself, hprobe⟩, -, -⟩ := react_eq_answer_iff.mp hreact
        obtain ⟨m', hm', hvalid, hpayload⟩ := (h sender).outbox d hd
        have hwhole : decodeMessage ser d.payload = some m' := by
          rw [hpayload]
          exact (MessageCodec.decode_encode_iff_fits hser hvalid).mpr hm'.fits
        have htake := (MessageCodec.prefixFree_decodeMessage hser).take_eq_self
          (a := d.payload) (n := min maxSize cut) (by rw [hwhole]; rfl)
          (by rw [← List.take_take, hdecode]; rfl)
        rw [List.take_take, htake] at hdecode
        obtain ⟨stamp, rfl⟩ := (hasked sender).probes d hd m hdecode hprobe
        rw [hwhole, Option.some.injEq] at hdecode
        exact ⟨sender, stamp, hself, rfl, rfl, d, hd, by rw [hpayload, hdecode]⟩
  next => cases hr

/-- What an engine may send is authored, and its probes are its own. -/
theorem speaks_probes {ser : Serializer} (hser : ser.Lawful) {c : DiscoveryConfig}
    (hfit : c.SizesFit) : Speaks ser c fun m ↦ m.Fits ∧
      (m.type = .probe → ∃ stamp, m = probeMessage c stamp) where
  announce now stamp := ⟨(authored_announceMessage hser hfit now stamp).fits, nofun⟩
  probe stamp := ⟨(authored_probeMessage ser hfit stamp).fits, fun _ ↦ ⟨stamp, rfl⟩⟩
  reply _ hprobe now := ⟨(authored_replyMessage hser hfit (hprobe hser) now).fits, nofun⟩

variable [DecidableEq ι]

theorem outbox_subset_update {i : ι} {s : Runtime T}
    (h : (N i).world.outbox ⊆ s.world.outbox) (j : ι) :
    (N j).world.outbox ⊆ (Function.update N i s j).world.outbox := by
  by_cases hj : j = i
  · subst hj
    rwa [Function.update_self]
  · rw [Function.update_of_ne hj]
    exact List.Subset.refl _

/-- What was sent stays sent. -/
theorem Step.outbox_subset (hser : deps.ser.Lawful) (hfit : ∀ k, (configs k).SizesFit)
    (h : Invariant deps.ser configs N) (hstep : Step deps os N N') (j : ι) :
    (N j).world.outbox ⊆ (N' j).world.outbox := by
  cases hstep with
  | exec k op =>
      obtain ⟨ds, hds, -⟩ := exec_sent (os k) (speaks_authored hser (hfit k)) (h k).config
        (h k).sound op
      exact outbox_subset_update (hds ▸ List.subset_append_left _ _) j
  | deliver k inbox transport readings hflight =>
      have hsame : (N k).world.outbox ⊆
          (environment inbox transport readings (N k)).world.outbox := List.Subset.refl _
      exact outbox_subset_update hsame j

theorem outbox_subset_of_run (hser : deps.ser.Lawful) (hfit : ∀ k, (configs k).SizesFit)
    (hinitial : Initial configs N) (hrun : Relation.ReflTransGen (Step deps os) N N')
    (hrun' : Relation.ReflTransGen (Step deps os) N' N'') (j : ι) :
    (N' j).world.outbox ⊆ (N'' j).world.outbox := by
  induction hrun' with
  | refl => exact List.Subset.refl _
  | tail hlater hstep ih =>
      have hholds := invariant_of_run hser hfit hinitial (hrun.trans hlater)
      exact List.Subset.trans ih (hstep.outbox_subset hser hfit hholds j)

theorem asked_of_exec (hser : deps.ser.Lawful) (hfit : ∀ i, (configs i).SizesFit)
    (h : Invariant deps.ser configs N) (hasked : ∀ i, Asked deps.ser configs N i) (i : ι)
    (os : Os) (op : Op)
    (hmono : ∀ j, (N j).world.outbox ⊆
      (Function.update N i (exec deps os op (N i)) j).world.outbox) (k : ι) :
    Asked deps.ser configs (Function.update N i (exec deps os op (N i))) k := by
  have hsound := (h i).sound
  have hready : Ready (N i) (configs i) :=
    ⟨(h i).config, hsound.socket, hsound.config, hsound.context⟩
  obtain ⟨sent, htalk⟩ := hready.exec_talks os hser (hfit i) op
  have hinbox := htalk.inbox
  by_cases hk : k = i
  · subst hk
    refine ⟨fun a ha ↦ ?_, fun d hd m hdecode hprobe ↦ ?_, fun d hd r hr ↦ ?_⟩
    · rw [Function.update_self] at ha
      exact ((hasked k).pending a (hinbox ▸ List.mem_append_right _ ha)).mono hmono
    · obtain ⟨ds, hds, hall⟩ := exec_sent os (speaks_probes hser (hfit k)) (h k).config hsound op
      rw [Function.update_self, hds] at hd
      rcases List.mem_append.mp hd with hd | hd
      · exact (hasked k).probes d hd m hdecode hprobe
      · obtain ⟨m', ⟨hfits, hown⟩, hvalid, hpayload⟩ := hall d hd
        have hwhole := (MessageCodec.decode_encode_iff_fits hser hvalid).mpr hfits
        rw [hpayload, hwhole, Option.some.injEq] at hdecode
        subst hdecode
        exact hown hprobe
    · rw [Function.update_self, htalk.outbox] at hd
      rcases List.mem_append.mp hd with hd | hd
      · exact ((hasked k).replies d hd r hr).mono hmono
      · have hmem := htalk.replies.subset (List.mem_filterMap.mpr ⟨d, hd, hr⟩)
        obtain ⟨a, ha, hrequest⟩ := List.mem_filterMap.mp hmem
        have hflight := (hasked k).pending a (hinbox ▸ List.mem_append_left _ ha)
        exact (solicited_of_request hser h hasked hflight hrequest).mono hmono
  · exact (hasked k).mono hmono (Function.update_of_ne hk _ _)

theorem Step.asked (hser : deps.ser.Lawful) (hfit : ∀ i, (configs i).SizesFit)
    (h : Invariant deps.ser configs N) (hasked : ∀ i, Asked deps.ser configs N i)
    (hstep : Step deps os N N') (i : ι) : Asked deps.ser configs N' i := by
  have hmono := hstep.outbox_subset hser hfit h
  cases hstep with
  | exec j op => exact asked_of_exec hser hfit h hasked j (os j) op hmono i
  | deliver j inbox transport readings hflight =>
      by_cases hi : i = j
      · subst hi
        refine ⟨fun a ha ↦ ?_, fun d hd ↦ ?_, fun d hd r hr ↦ ?_⟩
        · rw [Function.update_self] at ha
          exact (hflight a ha).mono hmono
        · rw [Function.update_self] at hd
          exact (hasked i).probes d hd
        · rw [Function.update_self] at hd
          exact ((hasked i).replies d hd r hr).mono hmono
      · exact (hasked i).mono hmono (Function.update_of_ne hi _ _)

theorem asked_of_run (hser : deps.ser.Lawful) (hfit : ∀ i, (configs i).SizesFit)
    (hinitial : Initial configs N) (hrun : Relation.ReflTransGen (Step deps os) N N') (i : ι) :
    Asked deps.ser configs N' i := by
  induction hrun generalizing i with
  | refl => exact hinitial.asked i
  | tail hearlier hstep ih =>
      exact hstep.asked hser hfit (invariant_of_run hser hfit hinitial hearlier) ih i

/-- In every reachable state of the network, every reply that an engine sent
addresses another engine and quotes a probe that this other engine sent. -/
theorem replies_solicited (hser : deps.ser.Lawful) (hfit : ∀ i, (configs i).SizesFit)
    (hinitial : Initial configs N) (hrun : Relation.ReflTransGen (Step deps os) N N') {i : ι}
    {d : Datagram} (hd : d ∈ (N' i).world.outbox) {r : ReplyHeader}
    (hr : replyOf deps.ser d = some r) : Solicited deps.ser configs N' i r :=
  (asked_of_run hser hfit hinitial hrun i).replies d hd r hr

section Nodes

open Simulation

def probing : Network Bool (List PeerInfo) :=
  pairExec (pairExec pair false .start) false .probeNow

def asking : Network Bool (List PeerInfo) :=
  Function.update probing true (environment ((probing false).world.outbox.map fun d ↦
    .datagram (ascii "127.0.0.1") 9500 (d.payload.take 65536)) id 0 (probing true))

def replied : Network Bool (List PeerInfo) :=
  pairExec (pairExec asking true .start) true .pollOnce

theorem run_replied :
    Relation.ReflTransGen (Step listing fun _ ↦ system (ticking 1000)) pair replied := by
  refine .tail (.tail (.tail (.tail (.tail .refl (.exec false .start)) (.exec false .probeNow))
    (.deliver true _ id 0 fun a ha ↦ ?_)) (.exec true .start)) (.exec true .pollOnce)
  obtain ⟨d, hd, rfl⟩ := List.mem_map.mp ha
  exact .datagram false hd _ _ _

theorem replies_solicited_pair :
    Solicited .littleEndian pairConfig replied true
      ⟨ascii "127.0.0.1", 9500, ascii "node-a", ascii "probe-1000"⟩ := by
  have hmem : ⟨ascii "127.0.0.1", 9500, ascii "node-a", ascii "probe-1000"⟩ ∈
      (replied true).world.outbox.filterMap (replyOf .littleEndian) := by
    decide +kernel
  obtain ⟨d, hd, hr⟩ := List.mem_filterMap.mp hmem
  have hfit : ∀ i, (pairConfig i).SizesFit := fun i ↦ by
    cases i <;> (unfold DiscoveryConfig.SizesFit; decide)
  exact replies_solicited listing_lawful hfit
    (fun i ↦ by cases i <;> exact ⟨rfl, rfl, rfl, rfl, rfl⟩) run_replied hd hr

end Nodes

end Network

end Discovery
