import Discovery.Interference

/-!
# The client and the server on a backend

`DiscoveryClient` builds and sends messages, `DiscoveryServer` starts, stops and
polls; both refer to a backend that they do not own.  Whatever one does leaves
the other's direction alone, and what a client sends is what the polls of the
server at the far end return, in the same order.
-/

namespace Discovery

open DiscoveryEncoder DiscoveryDecoder

namespace DiscoveryClient

variable (ser : Serializer) (os : Os) (backend : UdpDiscoveryBackend)

def sendTo (host : Bytes) (port : UInt16) (message : DiscoveryMessage) (w : World) :
    Bool × World :=
  if host.isEmpty || port == 0 || !message.isValid then (false, w) else
  let (now, w) := w.now os
  send ser os backend (.outbound message host port now) w

def sendAnnounce (host : Bytes) (port : UInt16) (fromNodeId payload : Bytes) (w : World) :
    Bool × World :=
  sendTo ser os backend host port (.announce fromNodeId payload) w

def sendProbe (host : Bytes) (port : UInt16) (fromNodeId : Bytes) (w : World) : Bool × World :=
  sendTo ser os backend host port (.probe fromNodeId) w

def sendReply (host : Bytes) (port : UInt16) (fromNodeId payload : Bytes) (w : World) :
    Bool × World :=
  sendTo ser os backend host port (.reply fromNodeId payload) w

def isRunning : Bool := backend.running

end DiscoveryClient

namespace DiscoveryServer

def start (os : Os) (backend : UdpDiscoveryBackend) (w : World) :
    Bool × UdpDiscoveryBackend × World :=
  backend.start os w

def stop (backend : UdpDiscoveryBackend) : UdpDiscoveryBackend := backend.stop

def isRunning (backend : UdpDiscoveryBackend) : Bool := backend.running

def poll (ser : Serializer) (os : Os) (backend : UdpDiscoveryBackend) (w : World) :
    Option DiscoveryEnvelope × World :=
  backend.poll ser os w

end DiscoveryServer

/-! ## Calls on a shared backend -/

/-- A backend in its process. -/
structure Endpoint where
  backend : UdpDiscoveryBackend
  world : World := {}

inductive Call where
  | start
  | stop
  | poll
  | sendTo (host : Bytes) (port : UInt16) (message : DiscoveryMessage)
  | sendAnnounce (host : Bytes) (port : UInt16) (fromNodeId payload : Bytes)
  | sendProbe (host : Bytes) (port : UInt16) (fromNodeId : Bytes)
  | sendReply (host : Bytes) (port : UInt16) (fromNodeId payload : Bytes)
deriving DecidableEq

inductive Outcome where
  | stopped
  | done (ok : Bool)
  | received (envelope : Option DiscoveryEnvelope)
deriving DecidableEq

namespace Call

def apply (ser : Serializer) (os : Os) (call : Call) (e : Endpoint) : Outcome × Endpoint :=
  match call with
  | start =>
    let (ok, backend, world) := DiscoveryServer.start os e.backend e.world
    (.done ok, { backend, world })
  | stop => (.stopped, { e with backend := DiscoveryServer.stop e.backend })
  | poll =>
    let (envelope, world) := DiscoveryServer.poll ser os e.backend e.world
    (.received envelope, { e with world })
  | sendTo host port message =>
    let (ok, world) := DiscoveryClient.sendTo ser os e.backend host port message e.world
    (.done ok, { e with world })
  | sendAnnounce host port fromNodeId payload =>
    let (ok, world) :=
      DiscoveryClient.sendAnnounce ser os e.backend host port fromNodeId payload e.world
    (.done ok, { e with world })
  | sendProbe host port fromNodeId =>
    let (ok, world) := DiscoveryClient.sendProbe ser os e.backend host port fromNodeId e.world
    (.done ok, { e with world })
  | sendReply host port fromNodeId payload =>
    let (ok, world) :=
      DiscoveryClient.sendReply ser os e.backend host port fromNodeId payload e.world
    (.done ok, { e with world })

def run (ser : Serializer) (os : Os) : List Call → Endpoint → List Outcome × Endpoint
  | [], e => ([], e)
  | call :: calls, e =>
    let (outcome, e) := call.apply ser os e
    let (outcomes, e) := run ser os calls e
    (outcome :: outcomes, e)

/-- The message of a client call with its destination. -/
def parcel : Call → Option (Bytes × UInt16 × DiscoveryMessage)
  | sendTo host port message => some (host, port, message)
  | sendAnnounce host port fromNodeId payload => some (host, port, .announce fromNodeId payload)
  | sendProbe host port fromNodeId => some (host, port, .probe fromNodeId)
  | sendReply host port fromNodeId payload => some (host, port, .reply fromNodeId payload)
  | _ => none

end Call

/-- `send_to` lets the message pass. -/
def Sendable (p : Bytes × UInt16 × DiscoveryMessage) : Prop :=
  p.1 ≠ [] ∧ p.2.1 ≠ 0 ∧ p.2.2.isValid = true

instance (p : Bytes × UInt16 × DiscoveryMessage) : Decidable (Sendable p) :=
  inferInstanceAs (Decidable (_ ∧ _ ∧ _))

/-- The messages of the client calls that `send_to` lets pass. -/
def parcels (calls : List Call) : List (Bytes × UInt16 × DiscoveryMessage) :=
  (calls.filterMap Call.parcel).filter fun p ↦ Sendable p

def wrapped (ser : Serializer) (p : Bytes × UInt16 × DiscoveryMessage) : Datagram :=
  ⟨p.1, p.2.1, encodeMessage ser p.2.2⟩

/-- The message that a poll returned, with its source. -/
def Outcome.seen : Outcome → Option (DiscoveryMessage × Bytes × UInt16)
  | received envelope => envelope.map fun e ↦ (e.message, e.fromHost, e.fromPort)
  | _ => none

variable {ser : Serializer} {os : Os} {e : Endpoint} {w : World}

theorem parcels_cons (call : Call) (calls : List Call) :
    parcels (call :: calls) = parcels [call] ++ parcels calls := by
  rw [parcels, parcels, parcels, ← List.filter_append, ← List.filterMap_append]
  rfl

theorem parcels_of_parcel {call : Call} {p : Bytes × UInt16 × DiscoveryMessage}
    (h : call.parcel = some p) : parcels [call] = if Sendable p then [p] else [] := by
  rw [parcels, List.filterMap_cons_some h, List.filterMap_nil, List.filter_singleton]
  by_cases hp : Sendable p <;> simp [hp]

/-! ## One call -/

namespace DiscoveryClient

variable (ser os) in
theorem sendTo_of_not_sendable {b : UdpDiscoveryBackend} {host : Bytes} {port : UInt16}
    {message : DiscoveryMessage} (h : ¬ Sendable (host, port, message)) (w : World) :
    sendTo ser os b host port message w = (false, w) := by
  have hreject : host.isEmpty || port == 0 || !message.isValid := by
    by_contra hnot
    simp only [Bool.or_eq_true, not_or, Bool.not_eq_true, Bool.not_eq_false',
      List.isEmpty_eq_false_iff, beq_eq_false_iff_ne] at hnot
    exact h ⟨hnot.1.1, hnot.1.2, hnot.2⟩
  rw [sendTo, if_pos hreject]

variable (ser os) in
theorem sendTo_of_sendable {b : UdpDiscoveryBackend} {host : Bytes} {port : UInt16}
    {message : DiscoveryMessage} (h : Sendable (host, port, message)) (w : World) :
    sendTo ser os b host port message w =
      send ser os b (.outbound message host port (os.clock w.ticks))
        { w with ticks := w.ticks + 1 } := by
  obtain ⟨hhost, hport, hvalid⟩ := h
  have haccept : ¬ (host.isEmpty || port == 0 || !message.isValid) = true := by
    simp [List.isEmpty_eq_false_iff.mpr hhost, hport, hvalid]
  rw [sendTo, if_neg haccept]
  rfl

variable (ser os) in
/-- `send_to` reads nothing and hands over at most the encoding of a message that
it lets pass. -/
theorem sendTo_spec (b : UdpDiscoveryBackend) (p : Bytes × UInt16 × DiscoveryMessage)
    (w : World) :
    let w' := (sendTo ser os b p.1 p.2.1 p.2.2 w).2
    w'.inbox = w.inbox ∧ (w'.outbox = w.outbox ∨
      Sendable p ∧ w'.outbox = w.outbox ++ [wrapped ser p]) := by
  by_cases hp : Sendable p
  · have hsend := clientSend_spec ser os b (.outbound p.2.2 p.1 p.2.1 (os.clock w.ticks))
      { w with ticks := w.ticks + 1 }
    dsimp only
    rw [sendTo_of_sendable ser os hp]
    exact ⟨hsend.inbox, hsend.outbox.imp_right fun h ↦ ⟨hp, h.2⟩⟩
  · dsimp only
    rw [sendTo_of_not_sendable ser os hp]
    exact ⟨rfl, .inl rfl⟩

/-- On a sound backend every message that is let pass goes out, to every host
that parses. -/
theorem sendTo_success (hser : ser.Lawful) (hclock : os.ClockPositive) (hsends : os.SendsSucceed)
    {b : UdpDiscoveryBackend} (hrunning : b.running = true) (hsocket : b.socket.isValid = true)
    {p : Bytes × UInt16 × DiscoveryMessage} (hp : Sendable p) (hpton : os.inetPton p.1 = true)
    (w : World) :
    (sendTo ser os b p.1 p.2.1 p.2.2 w).1 = true ∧
      (sendTo ser os b p.1 p.2.1 p.2.2 w).2.outbox = w.outbox ++ [wrapped ser p] := by
  have hvalid : (DiscoveryEnvelope.outbound p.2.2 p.1 p.2.1 (os.clock w.ticks)).isValid = true :=
    Bool.and_eq_true_iff.mpr ⟨hp.2.2, hclock _⟩
  rw [sendTo_of_sendable ser os hp,
    clientSend_success hser hsends hrunning hsocket hvalid hp.1 hp.2.1 hpton]
  exact ⟨rfl, rfl⟩

end DiscoveryClient

/-- Between the two states a run of calls hands datagrams of its own messages to
the network, and returns what is seen of the arrivals it takes, both in order. -/
structure Passage (ser : Serializer) (maxSize : ℕ) (calls : List Call) (outcomes : List Outcome)
    (w w' : World) (handed : List Datagram) (taken : List Arrival) : Prop where
  outbox : w'.outbox = w.outbox ++ handed
  handed : handed.Sublist ((parcels calls).map (wrapped ser))
  inbox : w.inbox = taken ++ w'.inbox
  received : outcomes.filterMap Outcome.seen = taken.filterMap (seen ser maxSize)

namespace Call

variable {call : Call}

theorem apply_of_parcel {p : Bytes × UInt16 × DiscoveryMessage} (h : call.parcel = some p) :
    call.apply ser os e =
      (.done (DiscoveryClient.sendTo ser os e.backend p.1 p.2.1 p.2.2 e.world).1,
        { e with
          world := (DiscoveryClient.sendTo ser os e.backend p.1 p.2.1 p.2.2 e.world).2 }) := by
  cases call <;> simp only [parcel, Option.some.injEq, reduceCtorEq] at h <;> subst h <;> rfl

theorem apply_config (call : Call) (e : Endpoint) :
    (call.apply ser os e).2.backend.config = e.backend.config := by
  cases call with
  | start => exact DiscoveryEngine.backendStart_config _ _
  | _ => rfl

variable (ser os) in
theorem poll_received (e : Endpoint) :
    ∃ taken, e.world.inbox = taken ++ (poll.apply ser os e).2.world.inbox ∧
      [(poll.apply ser os e).1].filterMap Outcome.seen =
        taken.filterMap (Discovery.seen ser e.backend.config.maxDatagramSize) ∧
      (poll.apply ser os e).2.world.outbox = e.world.outbox ∧
      (e.backend.running = true → e.backend.socket.isValid = true →
        e.backend.config.maxDatagramSize ≠ 0 →
          (poll.apply ser os e).2.world.inbox = e.world.inbox.tail) := by
  have hpoll : poll.apply ser os e = (.received (e.backend.poll ser os e.world).1,
      { e with world := (e.backend.poll ser os e.world).2 }) := rfl
  by_cases hdeaf : e.backend.running = false ∨ e.backend.socket.isValid = false ∨
      e.backend.config.maxDatagramSize = 0 ∨ e.world.inbox = []
  · rw [hpoll, poll_of_deaf hdeaf]
    refine ⟨[], rfl, rfl, rfl, fun hrunning hsocket hmax ↦ ?_⟩
    have hempty : e.world.inbox = [] := by simpa [hrunning, hsocket, hmax] using hdeaf
    simp [hempty]
  · simp only [not_or, Bool.not_eq_false] at hdeaf
    obtain ⟨hrunning, hsocket, hmax, hne⟩ := hdeaf
    obtain ⟨a, rest, hinbox⟩ := List.exists_cons_of_ne_nil hne
    rw [hpoll, poll_of_inbox hrunning hsocket hmax hinbox, hinbox]
    refine ⟨[a], rfl, ?_, rfl, fun _ _ _ ↦ rfl⟩
    cases hseen : Discovery.seen ser e.backend.config.maxDatagramSize a with
    | none => simp [hseen, envelopeOf, Outcome.seen]
    | some x => simp [hseen, envelopeOf, Outcome.seen, DiscoveryEngine.inboundEnvelope]

variable (ser os) in
theorem passage_apply (call : Call) (e : Endpoint) :
    ∃ handed taken, Passage ser e.backend.config.maxDatagramSize [call]
      [(call.apply ser os e).1] e.world (call.apply ser os e).2.world handed taken := by
  cases h : call.parcel with
  | some p =>
      obtain ⟨hinbox, houtbox⟩ := DiscoveryClient.sendTo_spec ser os e.backend p
        e.world
      rw [apply_of_parcel h]
      rcases houtbox with houtbox | ⟨hp, houtbox⟩
      · exact ⟨[], [], by simpa using houtbox, List.nil_sublist _, hinbox.symm, rfl⟩
      · refine ⟨[wrapped ser p], [], houtbox, ?_, hinbox.symm, rfl⟩
        rw [parcels_of_parcel h, if_pos hp]
        exact .refl _
  | none =>
      cases call with
      | start =>
          have hcalls := DiscoveryEngine.backendStart_callsOnly os e.backend e.world
          have hinbox : (e.backend.start os e.world).2.2.inbox = e.world.inbox := by rw [hcalls]
          have houtbox : (e.backend.start os e.world).2.2.outbox = e.world.outbox := by rw [hcalls]
          exact ⟨[], [], by rw [List.append_nil]; exact houtbox, List.nil_sublist _, hinbox.symm,
            rfl⟩
      | stop => exact ⟨[], [], by simp [apply], List.nil_sublist _, rfl, rfl⟩
      | poll =>
          obtain ⟨taken, hinbox, hreceived, houtbox, -⟩ := poll_received ser os e
          exact ⟨[], taken, by simpa using houtbox, List.nil_sublist _, hinbox, hreceived⟩
      | _ => cases h

variable (ser os) in
theorem passage_run (calls : List Call) (e : Endpoint) :
    ∃ handed taken, Passage ser e.backend.config.maxDatagramSize calls (run ser os calls e).1
      e.world (run ser os calls e).2.world handed taken := by
  induction calls generalizing e with
  | nil => exact ⟨[], [], by simp [run], List.nil_sublist _, rfl, rfl⟩
  | cons call calls ih =>
      obtain ⟨handed, taken, h⟩ := passage_apply ser os call e
      obtain ⟨handed', taken', h'⟩ := ih (call.apply ser os e).2
      rw [apply_config] at h'
      refine ⟨handed ++ handed', taken ++ taken', ?_, ?_, ?_, ?_⟩
      · rw [run, h'.outbox, h.outbox, List.append_assoc]
      · rw [parcels_cons, List.map_append]
        exact h.handed.append h'.handed
      · rw [h.inbox, h'.inbox, List.append_assoc]
        rfl
      · rw [List.filterMap_append, ← h.received, ← h'.received, ← List.filterMap_append]
        rfl

/-! ## Runs without a stop -/

/-- The backend runs and can receive. -/
structure Up (e : Endpoint) : Prop where
  running : e.backend.running = true
  socket : e.backend.socket.isValid = true
  maxDatagramSize : e.backend.config.maxDatagramSize ≠ 0

theorem apply_backend (hup : Up e) (hstop : call ≠ .stop) :
    (call.apply ser os e).2.backend = e.backend := by
  cases call with
  | start =>
      have hstart : e.backend.start os e.world = (true, e.backend, e.world) := by
        rw [UdpDiscoveryBackend.start, if_pos hup.running]
      simp [apply, DiscoveryServer.start, hstart]
  | stop => exact absurd rfl hstop
  | _ => rfl

variable (ser os) in
theorem Up.apply (hup : Up e) (hstop : call ≠ .stop) : Up (call.apply ser os e).2 := by
  obtain ⟨hrunning, hsocket, hmax⟩ := hup
  constructor <;> rw [apply_backend ⟨hrunning, hsocket, hmax⟩ hstop] <;> assumption

theorem apply_inbox (hup : Up e) (hstop : call ≠ .stop) :
    (call.apply ser os e).2.world.inbox = e.world.inbox.drop ([call].count .poll) := by
  cases h : call.parcel with
  | some p =>
      have hinbox := (DiscoveryClient.sendTo_spec ser os e.backend p e.world).1
      have hcount : [call].count .poll = 0 := by
        rw [List.count_singleton]
        cases call <;> first | rfl | cases h
      rw [apply_of_parcel h, hcount]
      exact hinbox
  | none =>
      cases call with
      | start =>
          have hstart : e.backend.start os e.world = (true, e.backend, e.world) := by
            rw [UdpDiscoveryBackend.start, if_pos hup.running]
          simp [Call.apply, DiscoveryServer.start, hstart]
      | stop => exact absurd rfl hstop
      | poll =>
          obtain ⟨-, -, -, -, htail⟩ := poll_received ser os e
          rw [htail hup.running hup.socket hup.maxDatagramSize, ← List.drop_one]
          rfl
      | _ => cases h

theorem run_inbox {calls : List Call} (hup : Up e) (hstop : .stop ∉ calls) :
    (run ser os calls e).2.world.inbox = e.world.inbox.drop (calls.count .poll) := by
  induction calls generalizing e with
  | nil => rfl
  | cons call calls ih =>
      have hne : call ≠ .stop := fun h ↦ hstop (h ▸ List.mem_cons_self)
      have hcalls : .stop ∉ calls := fun h ↦ hstop (List.mem_cons_of_mem _ h)
      have hcount : (call :: calls).count .poll = [call].count .poll + calls.count .poll := by
        rw [← List.count_append]
        rfl
      have hrest := ih (hup.apply ser os hne) hcalls
      rw [apply_inbox hup hne, List.drop_drop, ← hcount] at hrest
      exact hrest

theorem apply_outbox (hser : ser.Lawful) (hclock : os.ClockPositive) (hsends : os.SendsSucceed)
    (hup : Up e) (hstop : call ≠ .stop)
    (hpton : ∀ p ∈ parcels [call], os.inetPton p.1 = true) :
    (call.apply ser os e).2.world.outbox =
      e.world.outbox ++ (parcels [call]).map (wrapped ser) := by
  cases h : call.parcel with
  | some p =>
      rw [parcels_of_parcel h] at hpton ⊢
      rw [apply_of_parcel h]
      by_cases hp : Sendable p
      · rw [if_pos hp] at hpton ⊢
        exact (DiscoveryClient.sendTo_success hser hclock hsends hup.running hup.socket hp
          (hpton p List.mem_cons_self) e.world).2
      · rw [if_neg hp, DiscoveryClient.sendTo_of_not_sendable ser os hp]
        exact (List.append_nil _).symm
  | none =>
      have hnil : parcels [call] = [] := by rw [parcels, List.filterMap_cons_none h]; rfl
      rw [hnil, List.map_nil, List.append_nil]
      cases call with
      | start =>
          have hstart : e.backend.start os e.world = (true, e.backend, e.world) := by
            rw [UdpDiscoveryBackend.start, if_pos hup.running]
          simp [Call.apply, DiscoveryServer.start, hstart]
      | stop => exact absurd rfl hstop
      | poll =>
          obtain ⟨-, -, -, houtbox, -⟩ := poll_received ser os e
          exact houtbox
      | _ => cases h

theorem run_outbox {calls : List Call} (hser : ser.Lawful) (hclock : os.ClockPositive)
    (hsends : os.SendsSucceed) (hup : Up e) (hstop : .stop ∉ calls)
    (hpton : ∀ p ∈ parcels calls, os.inetPton p.1 = true) :
    (run ser os calls e).2.world.outbox =
      e.world.outbox ++ (parcels calls).map (wrapped ser) := by
  induction calls generalizing e with
  | nil => exact (List.append_nil _).symm
  | cons call calls ih =>
      have hne : call ≠ .stop := fun h ↦ hstop (h ▸ List.mem_cons_self)
      have hcalls : .stop ∉ calls := fun h ↦ hstop (List.mem_cons_of_mem _ h)
      rw [parcels_cons] at hpton ⊢
      have hfirst := apply_outbox (e := e) hser hclock hsends hup hne
        fun p hp ↦ hpton p (List.mem_append_left _ hp)
      have hrest := ih (hup.apply ser os hne) hcalls
        fun p hp ↦ hpton p (List.mem_append_right _ hp)
      rw [hfirst, List.append_assoc, ← List.map_append] at hrest
      exact hrest

end Call

/-! ## A channel -/

section Channel

variable {host : Bytes} {port : UInt16} {maxSize : ℕ}

/-- A whole encoded message is seen as that message, from where it came. -/
theorem seen_of_whole (hser : ser.Lawful) (hhost : host ≠ []) (hport : port ≠ 0)
    {p : Bytes × UInt16 × DiscoveryMessage} (hp : Sendable p) (hfits : p.2.2.Fits)
    (hsize : (wrapped ser p).payload.length ≤ maxSize) :
    seen ser maxSize (.datagram host port (wrapped ser p).payload) = some (p.2.2, host, port) := by
  have hdecode : decodeDatagram ser
      (UdpSocket.received maxSize (.datagram host port (wrapped ser p).payload)) = some p.2.2 := by
    rw [DiscoveryEngine.decodeDatagram_received ⟨hhost, hport⟩, List.take_of_length_le hsize]
    exact (MessageCodec.decode_encode_iff_fits hser hp.2.2).mpr hfits
  obtain ⟨-, hhost', hport'⟩ := DiscoveryEngine.received_of_decode hdecode
  rw [seen, hdecode, hhost', hport']
  rfl

variable (maxSize) in
theorem seen_of_handed (hser : ser.Lawful) (hhost : host ≠ []) (hport : port ≠ 0)
    {ps : List (Bytes × UInt16 × DiscoveryMessage)} (hps : ∀ p ∈ ps, Sendable p)
    (hfits : ∀ p ∈ ps, p.2.2.Fits)
    (hsize : ∀ p ∈ ps, (wrapped ser p).payload.length ≤ maxSize) :
    (ps.map fun p ↦ Arrival.datagram host port (wrapped ser p).payload).filterMap
      (seen ser maxSize) = ps.map fun p ↦ (p.2.2, host, port) := by
  induction ps with
  | nil => rfl
  | cons p ps ih =>
      have hmem := List.mem_cons_self (a := p) (l := ps)
      have hsome := seen_of_whole hser hhost hport (hps p hmem) (hfits p hmem) (hsize p hmem)
      rw [List.map_cons, List.map_cons, List.filterMap_cons_some hsome,
        ih (fun q hq ↦ hps q (List.mem_cons_of_mem _ hq))
          (fun q hq ↦ hfits q (List.mem_cons_of_mem _ hq))
          fun q hq ↦ hsize q (List.mem_cons_of_mem _ hq)]

/-- The datagrams that one endpoint hands over arrive whole and in order at the
other.  Then the polls there return messages of the client calls here, each at
most once and in order; and all of them, if no send fails, neither side stops
and there are as many polls as messages. -/
theorem channel_in_order (hser : ser.Lawful) {osA osB : Os} (callsA callsB : List Call)
    {A B : Endpoint} (hfresh : A.world.outbox = []) (hhost : host ≠ []) (hport : port ≠ 0)
    (hdelivered : B.world.inbox = (Call.run ser osA callsA A).2.world.outbox.map fun d ↦
      .datagram host port d.payload)
    (hfits : ∀ p ∈ parcels callsA, p.2.2.Fits)
    (hsize : ∀ p ∈ parcels callsA,
      (wrapped ser p).payload.length ≤ B.backend.config.maxDatagramSize) :
    let sent := (parcels callsA).map fun p ↦ (p.2.2, host, port)
    let received := (Call.run ser osB callsB B).1.filterMap Outcome.seen
    received.Sublist sent ∧
      (osA.ClockPositive → osA.SendsSucceed →
        (∀ p ∈ parcels callsA, osA.inetPton p.1 = true) → Call.Up A → Call.Up B →
          .stop ∉ callsA → .stop ∉ callsB →
            (parcels callsA).length ≤ callsB.count .poll → received = sent) := by
  obtain ⟨handed, _, hA⟩ := Call.passage_run ser osA callsA A
  obtain ⟨_, taken, hB⟩ := Call.passage_run ser osB callsB B
  have hsendable : ∀ p ∈ parcels callsA, Sendable p := fun p hp ↦
    of_decide_eq_true (List.mem_filter.mp hp).2
  have hseen {ps : List (Bytes × UInt16 × DiscoveryMessage)} (hps : ps ⊆ parcels callsA) :=
    seen_of_handed B.backend.config.maxDatagramSize hser hhost hport
      (fun p hp ↦ hsendable p (hps hp)) (fun p hp ↦ hfits p (hps hp)) fun p hp ↦ hsize p (hps hp)
  have houtbox := hA.outbox
  rw [hfresh, List.nil_append] at houtbox
  dsimp only
  rw [hB.received]
  constructor
  · obtain ⟨ps, hps, hmap⟩ := List.sublist_map_iff.mp hA.handed
    have hinbox := hB.inbox
    rw [hdelivered, houtbox, hmap, List.map_map] at hinbox
    have hprefix : taken.Sublist (ps.map fun p ↦ .datagram host port (wrapped ser p).payload) := by
      have hle := List.sublist_append_left taken (Call.run ser osB callsB B).2.world.inbox
      rwa [← hinbox] at hle
    have hread := hprefix.filterMap (seen ser B.backend.config.maxDatagramSize)
    rw [hseen hps.subset] at hread
    exact hread.trans (hps.map _)
  · intro hclock hsends hpton hupA hupB hstopA hstopB hpolls
    have hall := Call.run_outbox hser hclock hsends hupA hstopA hpton
    rw [hfresh, List.nil_append] at hall
    have hempty : (Call.run ser osB callsB B).2.world.inbox = [] := by
      rw [Call.run_inbox hupB hstopB, hdelivered, hall]
      exact List.drop_of_length_le (by simpa using hpolls)
    have hinbox := hB.inbox
    rw [hempty, List.append_nil, hdelivered, hall, List.map_map] at hinbox
    rw [← hinbox]
    exact hseen (List.Subset.refl _)

section Nodes

open Simulation DiscoveryEngine

def clientCalls : List Call :=
  [.sendProbe (ascii "127.0.0.1") 9400 (ascii "node-a"),
    .sendTo (ascii "127.0.0.1") 0 (.probe (ascii "node-a")), .poll,
    .sendAnnounce (ascii "127.0.0.1") 9400 (ascii "node-a") [1, 2, 3]]

def clientSide : Endpoint where
  backend := (started (system (ticking 1000)) "node-a" 9500).backend

def serverSide : Endpoint where
  backend := (started (system (ticking 1000)) "node-b" 9400).backend
  world.inbox := (Call.run .littleEndian (system (ticking 1000)) clientCalls
    clientSide).2.world.outbox.map fun d ↦ .datagram (ascii "127.0.0.1") 9500 d.payload

/-- The call with port zero sends nothing, and the server's own probe between its
polls takes nothing away. -/
theorem channel_in_order_pair :
    (Call.run .littleEndian (system (ticking 1000))
      [.poll, .sendProbe (ascii "127.0.0.1") 9500 (ascii "node-b"), .poll, .poll]
        serverSide).1.filterMap Outcome.seen =
      [(.probe (ascii "node-a"), ascii "127.0.0.1", 9500),
        (.announce (ascii "node-a") [1, 2, 3], ascii "127.0.0.1", 9500)] := by
  have hfits : ∀ p ∈ parcels clientCalls, p.2.2.Fits := by
    have hparcels : parcels clientCalls =
        [(ascii "127.0.0.1", 9400, .probe (ascii "node-a")),
          (ascii "127.0.0.1", 9400, .announce (ascii "node-a") [1, 2, 3])] := by decide
    rw [hparcels]
    intro p hp
    simp only [List.mem_cons, List.not_mem_nil, or_false] at hp
    rcases hp with rfl | rfl <;> constructor <;> decide
  exact (channel_in_order listing_lawful clientCalls
    [.poll, .sendProbe (ascii "127.0.0.1") 9500 (ascii "node-b"), .poll, .poll] rfl (by decide)
    (by decide) rfl hfits (by decide)).2 (clockPositive_ticking (by decide))
    (sendsSucceed_system _) (fun _ _ ↦ rfl) ⟨by decide, by decide, by decide⟩
    ⟨by decide, by decide, by decide⟩ (by decide) (by decide) (by decide)

end Nodes

end Channel

end Discovery
