import Discovery.Lib.Retry
import Discovery.Simulation

/-!
# Interrupted system calls

`send_to` and `recv_datagram` repeat a call that a signal interrupts.  The loops
are modelled over every attempt of a call, and what they do is what the socket
does on the tape of the attempts that were not interrupted.
-/

namespace Discovery

open Lib

/-! ## The loops -/

/-- The calls of a socket that a backend makes between its start and its stop. -/
inductive SocketCall where
  | sendDatagram (datagram : Datagram)
  | recvDatagram (maxSize : ℕ)

inductive SocketResult where
  | sent (count : ℕ)
  | received (datagram : Datagram)
deriving DecidableEq

def SocketCall.apply (os : Os) (socket : UdpSocket) : SocketCall → World → SocketResult × World
  | sendDatagram datagram, w =>
    let (count, w) := socket.sendDatagram os datagram w
    (.sent count, w)
  | recvDatagram maxSize, w =>
    let (datagram, w) := socket.recvDatagram maxSize w
    (.received datagram, w)

def SocketCall.run (os : Os) (socket : UdpSocket) :
    List SocketCall → World → List SocketResult × World
  | [], w => ([], w)
  | call :: calls, w =>
    let (result, w) := call.apply os socket w
    let (results, w) := run os socket calls w
    (result :: results, w)

/-- A world with signals: `tries` counts the attempts of `sendto`, and `none` in
the queue is an interruption of `recvfrom`. -/
structure SignalWorld where
  tries : ℕ := 0
  queue : List (Option Arrival) := []
  outbox : List Datagram := []

namespace Signalled

/-- The attempts of `sendto`; an interrupted one has no result. -/
abbrev Attempts := ℕ → Bytes → Option ℤ

def sendTo (os : Os) (attempts : Attempts) (fuel : ℕ) (socket : UdpSocket) (host : Bytes)
    (port : UInt16) (data : Bytes) (w : SignalWorld) : Option (ℕ × SignalWorld) :=
  if !socket.isValid || data.isEmpty then some (0, w)
  else if !os.inetPton host then some (0, w)
  else
    match retry (attempts · data) fuel w.tries with
    | none => none
    | some (sent, tries) =>
      let w := { w with tries, outbox := w.outbox ++ [⟨host, port, data⟩] }
      some (if sent < 0 then (0, w) else (sent.toNat, w))

def sendDatagram (os : Os) (attempts : Attempts) (fuel : ℕ) (socket : UdpSocket)
    (datagram : Datagram) (w : SignalWorld) : Option (ℕ × SignalWorld) :=
  if !datagram.isValid then some (0, w)
  else sendTo os attempts fuel socket datagram.host datagram.port datagram.payload w

/-- The loop of `recv_datagram`, which waits in vain at the end of the queue. -/
def recvLoop (maxSize : ℕ) : List (Option Arrival) → Datagram × List (Option Arrival)
  | [] => ({}, [])
  | none :: queue => recvLoop maxSize queue
  | some arrival :: queue => (UdpSocket.received maxSize arrival, queue)

def recvDatagram (socket : UdpSocket) (maxSize : ℕ) (w : SignalWorld) : Datagram × SignalWorld :=
  if !socket.isValid || maxSize == 0 then ({}, w)
  else
    let (datagram, queue) := recvLoop maxSize w.queue
    (datagram, { w with queue })

def apply (os : Os) (attempts : Attempts) (fuel : ℕ) (socket : UdpSocket) :
    SocketCall → SignalWorld → Option (SocketResult × SignalWorld)
  | .sendDatagram datagram, w =>
    (sendDatagram os attempts fuel socket datagram w).map fun (count, w) ↦ (.sent count, w)
  | .recvDatagram maxSize, w =>
    let (datagram, w) := recvDatagram socket maxSize w
    some (.received datagram, w)

def run (os : Os) (attempts : Attempts) (fuel : ℕ) (socket : UdpSocket) :
    List SocketCall → SignalWorld → Option (List SocketResult × SignalWorld)
  | [], w => some ([], w)
  | call :: calls, w =>
    match apply os attempts fuel socket call w with
    | none => none
    | some (result, w) =>
      (run os attempts fuel socket calls w).map fun (results, w) ↦ (result :: results, w)

/-! ## The tape of the attempts that count -/

/-- The system whose `k`-th `sendto` is the attempt `select k`; `missing` stands for
the result of an attempt that was interrupted. -/
def settled (os : Os) (attempts : Attempts) (missing : Bytes → ℤ) (select : ℕ → ℕ) : Os :=
  { os with sendto := fun k data ↦ (attempts (select k) data).getD (missing data) }

/-- The worlds agree but for the interruptions. -/
structure Settles (v : SignalWorld) (w : World) : Prop where
  inbox : w.inbox = v.queue.filterMap id
  outbox : w.outbox = v.outbox

variable {os : Os} {attempts : Attempts} {fuel : ℕ} {socket : UdpSocket} {v v' : SignalWorld}
  {w : World} {result : SocketResult} {results : List SocketResult}

theorem recvLoop_eq (maxSize : ℕ) (queue : List (Option Arrival)) :
    (recvLoop maxSize queue).1 =
        (queue.filterMap id).head?.elim {} (UdpSocket.received maxSize) ∧
      (recvLoop maxSize queue).2.filterMap id = (queue.filterMap id).tail := by
  induction queue with
  | nil => exact ⟨rfl, rfl⟩
  | cons first queue ih =>
      cases first with
      | none => exact ih
      | some arrival => exact ⟨rfl, rfl⟩

/-- From `v` to `v'` the datagrams `sent` are handed over, one for each of the
attempts `picks` that count, and `w'` agrees with `v'`. -/
structure Picks (attempts : Attempts) (v v' : SignalWorld) (w w' : World) (sent : List Datagram)
    (picks : List ℕ) : Prop where
  settles : Settles v' w'
  outbox : v'.outbox = v.outbox ++ sent
  tape : Tape attempts v.tries (sent.map Datagram.payload) picks v'.tries
  calls : w'.calls = w.calls + picks.length

/-- From `n` on, `select` lists the picks. -/
def Lists (select : ℕ → ℕ) (n : ℕ) (picks : List ℕ) : Prop :=
  ∀ k (hk : k < picks.length), select (n + k) = picks[k]

theorem Lists.left {select : ℕ → ℕ} {n : ℕ} {picks picks' : List ℕ}
    (h : Lists select n (picks ++ picks')) : Lists select n picks := by
  intro k hk
  have hk' : k < (picks ++ picks').length := by
    rw [List.length_append]
    omega
  rw [h k hk', List.getElem_append_left hk]

theorem Lists.right {select : ℕ → ℕ} {n : ℕ} {picks picks' : List ℕ}
    (h : Lists select n (picks ++ picks')) : Lists select (n + picks.length) picks' := by
  intro k hk
  have hk' : picks.length + k < (picks ++ picks').length := by
    rw [List.length_append]
    omega
  rw [Nat.add_assoc, h _ hk', List.getElem_append_right (Nat.le_add_right _ _)]
  simp only [Nat.add_sub_cancel_left]

/-- What took `v` to `v'` does the same to `w` on the tape of the attempts that
count. -/
def Follows {α : Type} (os : Os) (attempts : Attempts) (v v' : SignalWorld) (w : World)
    (call : Os → α × World) (a : α) : Prop :=
  ∃ sent picks w', Picks attempts v v' w w' sent picks ∧
    ∀ missing select, Lists select w.calls picks →
      call (settled os attempts missing select) = (a, w')

theorem Follows.idle {α : Type} {call : Os → α × World} {a : α} (htries : v'.tries = v.tries)
    (houtbox : v'.outbox = v.outbox) {w' : World} (hw : Settles v' w') (hcalls : w'.calls = w.calls)
    (h : ∀ missing select, call (settled os attempts missing select) = (a, w')) :
    Follows os attempts v v' w call a :=
  ⟨[], [], w', ⟨hw, by simp [houtbox], htries ▸ .nil _, hcalls⟩,
    fun missing select _ ↦ h missing select⟩

theorem sendTo_follows {host data : Bytes} {port : UInt16} {count : ℕ}
    (h : sendTo os attempts fuel socket host port data v = some (count, v'))
    (hw : Settles v w) :
    Follows os attempts v v' w (fun os ↦ socket.sendTo os host port data w) count := by
  unfold sendTo at h
  split_ifs at h with hguard hhost
  · obtain ⟨rfl, rfl⟩ := Prod.mk.inj (Option.some.inj h)
    exact .idle rfl rfl hw rfl fun missing select ↦ by rw [UdpSocket.sendTo, if_pos hguard]
  · obtain ⟨rfl, rfl⟩ := Prod.mk.inj (Option.some.inj h)
    refine .idle rfl rfl hw rfl fun missing select ↦ ?_
    have hhost' : (!(settled os attempts missing select).inetPton host) = true := hhost
    rw [UdpSocket.sendTo, if_neg hguard, if_pos hhost']
  · split at h
    · cases h
    next sent tries hretry =>
      obtain ⟨m, hattempt, rfl, htape⟩ := Tape.of_retry hretry
      obtain ⟨hcount, rfl⟩ : (if sent < 0 then 0 else sent.toNat) = count ∧
          { v with tries := m + 1, outbox := v.outbox ++ [⟨host, port, data⟩] } = v' := by
        by_cases hneg : sent < 0 <;> simpa [hneg] using h
      refine ⟨[⟨host, port, data⟩], [m],
        { w with calls := w.calls + 1, outbox := w.outbox ++ [⟨host, port, data⟩] },
        ⟨⟨hw.inbox, by simp [hw.outbox]⟩, rfl, htape, rfl⟩, fun missing select hselect ↦ ?_⟩
      have hhost' : ¬ (!(settled os attempts missing select).inetPton host) = true := hhost
      have hpick : select w.calls = m := hselect 0 Nat.one_pos
      have hsent : (settled os attempts missing select).sendto w.calls data = sent := by
        simp only [settled, hpick]
        rw [hattempt]
        rfl
      dsimp only
      rw [UdpSocket.sendTo, if_neg hguard, if_neg hhost', hsent, ← hcount]
      dsimp only
      split_ifs <;> rfl

/-- A call that returns does what the socket does with the attempt that counts. -/
theorem apply_follows {call : SocketCall}
    (h : apply os attempts fuel socket call v = some (result, v')) (hw : Settles v w) :
    Follows os attempts v v' w (fun os ↦ call.apply os socket w) result := by
  cases call with
  | sendDatagram datagram =>
      obtain ⟨⟨count, v''⟩, hsend, heq⟩ := Option.map_eq_some_iff.mp h
      obtain ⟨rfl, rfl⟩ := Prod.mk.inj heq
      unfold sendDatagram at hsend
      split_ifs at hsend with hvalid
      · obtain ⟨rfl, rfl⟩ := Prod.mk.inj (Option.some.inj hsend)
        refine .idle rfl rfl hw rfl fun missing select ↦ ?_
        simp only [SocketCall.apply]
        rw [UdpSocket.sendDatagram, if_pos hvalid]
      · obtain ⟨sent, picks, w', hpicks, hcall⟩ := sendTo_follows hsend hw
        refine ⟨sent, picks, w', hpicks, fun missing select hselect ↦ ?_⟩
        have hsent : socket.sendTo (settled os attempts missing select) datagram.host datagram.port
            datagram.payload w = (count, w') := hcall missing select hselect
        simp only [SocketCall.apply]
        rw [UdpSocket.sendDatagram, if_neg hvalid, hsent]
  | recvDatagram maxSize =>
      simp only [apply, Option.some.injEq, Prod.mk.injEq] at h
      obtain ⟨rfl, rfl⟩ := h
      unfold recvDatagram
      split_ifs with hguard
      · refine .idle rfl rfl hw rfl fun missing select ↦ ?_
        simp only [SocketCall.apply, UdpSocket.recvDatagram, if_pos hguard]
      · obtain ⟨hreceived, hqueue⟩ := recvLoop_eq maxSize v.queue
        have hw' : Settles { v with queue := (recvLoop maxSize v.queue).2 }
            { w with inbox := w.inbox.tail } := ⟨by rw [hw.inbox, hqueue], hw.outbox⟩
        refine .idle rfl rfl hw' rfl fun missing select ↦ ?_
        dsimp only
        rw [hreceived, ← hw.inbox]
        simp only [SocketCall.apply, UdpSocket.recvDatagram, if_neg hguard]
        rcases w with ⟨ticks, calls, _ | ⟨arrival, rest⟩, tried, outbox⟩ <;> rfl

/-! ## Runs -/

theorem Picks.trans {v'' : SignalWorld} {w' w'' : World} {sent sent' : List Datagram}
    {picks picks' : List ℕ} (h : Picks attempts v v' w w' sent picks)
    (h' : Picks attempts v' v'' w' w'' sent' picks') :
    Picks attempts v v'' w w'' (sent ++ sent') (picks ++ picks') where
  settles := h'.settles
  outbox := by rw [h'.outbox, h.outbox, List.append_assoc]
  tape := by
    rw [List.map_append]
    exact h.tape.append h'.tape
  calls := by rw [h'.calls, h.calls, List.length_append, Nat.add_assoc]

theorem run_follows {calls : List SocketCall}
    (h : run os attempts fuel socket calls v = some (results, v')) (hw : Settles v w) :
    Follows os attempts v v' w (fun os ↦ SocketCall.run os socket calls w) results := by
  induction calls generalizing v w results with
  | nil =>
      obtain ⟨rfl, rfl⟩ := Prod.mk.inj (Option.some.inj h)
      exact .idle rfl rfl hw rfl fun _ _ ↦ rfl
  | cons call calls ih =>
      rw [run] at h
      split at h
      · cases h
      next result v₁ happly =>
        obtain ⟨⟨rest, v₂⟩, hrest, heq⟩ := Option.map_eq_some_iff.mp h
        obtain ⟨rfl, rfl⟩ := Prod.mk.inj heq
        obtain ⟨sent, picks, w₁, hpicks, hcall⟩ := apply_follows happly hw
        obtain ⟨sent', picks', w₂, hpicks', hrun⟩ := ih hrest hpicks.settles
        refine ⟨_, _, w₂, hpicks.trans hpicks', fun missing select hselect ↦ ?_⟩
        have hfirst : call.apply (settled os attempts missing select) socket w = (result, w₁) :=
          hcall missing select hselect.left
        have hsecond : SocketCall.run (settled os attempts missing select) socket calls w₁ =
            (rest, w₂) :=
          hrun missing select (hpicks.calls ▸ hselect.right)
        simp only [SocketCall.run, hfirst, hsecond]

/-! ## Runs that return -/

theorem apply_mono {fuel' : ℕ} (hfuel : fuel ≤ fuel') {call : SocketCall}
    (h : apply os attempts fuel socket call v = some (result, v')) :
    apply os attempts fuel' socket call v = some (result, v') := by
  cases call with
  | recvDatagram maxSize => exact h
  | sendDatagram datagram =>
      rw [apply] at h ⊢
      unfold sendDatagram sendTo at h ⊢
      cases hretry : retry (attempts · datagram.payload) fuel v.tries with
      | some r => rwa [retry_mono hfuel hretry, ← hretry]
      | none =>
          rw [hretry] at h
          split_ifs at h ⊢
          · exact h
          · exact h
          · exact h
          · cases h

theorem run_mono {fuel' : ℕ} (hfuel : fuel ≤ fuel') {calls : List SocketCall}
    (h : run os attempts fuel socket calls v = some (results, v')) :
    run os attempts fuel' socket calls v = some (results, v') := by
  induction calls generalizing v v' results with
  | nil => exact h
  | cons call calls ih =>
      rw [run] at h ⊢
      split at h
      · cases h
      next result v₁ happly =>
        obtain ⟨⟨rest, v₂⟩, hrest, heq⟩ := Option.map_eq_some_iff.mp h
        rw [apply_mono hfuel happly]
        dsimp only
        rw [ih hrest, ← heq]
        rfl

theorem exists_apply {call : SocketCall} (hattempt : ∀ datagram, call = .sendDatagram datagram →
      ∃ m < fuel, (attempts (v.tries + m) datagram.payload).isSome = true) :
    ∃ result v', apply os attempts fuel socket call v = some (result, v') := by
  cases call with
  | recvDatagram maxSize => exact ⟨_, _, rfl⟩
  | sendDatagram datagram =>
      obtain ⟨sent, tries, hretry⟩ := exists_retry (attempts · datagram.payload)
        (hattempt datagram rfl)
      obtain ⟨count, v', hcount⟩ : ∃ count v',
          sendDatagram os attempts fuel socket datagram v = some (count, v') := by
        unfold sendDatagram sendTo
        rw [hretry]
        split_ifs <;> exact ⟨_, _, rfl⟩
      exact ⟨.sent count, v', by rw [apply, hcount]; rfl⟩

/-- The loops return if no call is interrupted `fuel` times in a row. -/
theorem exists_run (hattempts : ∀ n data, ∃ m < fuel, (attempts (n + m) data).isSome = true)
    (calls : List SocketCall) (v : SignalWorld) :
    ∃ results v', run os attempts fuel socket calls v = some (results, v') := by
  induction calls generalizing v with
  | nil => exact ⟨[], v, rfl⟩
  | cons call calls ih =>
      obtain ⟨result, v₁, happly⟩ : ∃ result v₁,
          apply os attempts fuel socket call v = some (result, v₁) :=
        exists_apply fun datagram _ ↦ hattempts v.tries datagram.payload
      obtain ⟨results, v', hrest⟩ := ih v₁
      exact ⟨result :: results, v', by simp [run, happly, hrest]⟩

/-- The loops return if no call is interrupted without end. -/
theorem exists_run_of_ending (hattempts : ∀ n data, ∃ m, (attempts (n + m) data).isSome = true)
    (calls : List SocketCall) (v : SignalWorld) :
    ∃ fuel results v', run os attempts fuel socket calls v = some (results, v') := by
  induction calls generalizing v with
  | nil => exact ⟨0, [], v, rfl⟩
  | cons call calls ih =>
      obtain ⟨fuel, result, v₁, happly⟩ : ∃ fuel result v₁,
          apply os attempts fuel socket call v = some (result, v₁) := by
        cases call with
        | recvDatagram maxSize => exact ⟨0, _, _, rfl⟩
        | sendDatagram datagram =>
            obtain ⟨m, hm⟩ := hattempts v.tries datagram.payload
            refine ⟨m + 1, exists_apply fun other hother ↦ ⟨m, Nat.lt_succ_self m, ?_⟩⟩
            cases hother
            exact hm
      obtain ⟨fuel', results, v', hrest⟩ := ih v₁
      refine ⟨max fuel fuel', result :: results, v', ?_⟩
      rw [run, apply_mono (le_max_left fuel fuel') happly]
      dsimp only
      rw [run_mono (le_max_right fuel fuel') hrest]
      rfl

/-- A selection lists the picks of a tape, and past it the attempts that were not
made. -/
theorem exists_strictMonoOn_lists {tries tries' : ℕ} {payloads : List Bytes} {picks : List ℕ}
    (htape : Tape attempts tries payloads picks tries') (n : ℕ) :
    ∃ select, Lists select n picks ∧ StrictMonoOn select (Set.Ici n) := by
  refine ⟨fun k ↦ (picks[k - n]?).getD (tries' + k), fun k hk ↦ by simp [hk], ?_⟩
  intro j hj k hk hjk
  have hnj : n ≤ j := hj
  dsimp only
  by_cases hk' : k - n < picks.length
  · have hj' : j - n < picks.length := by omega
    rw [List.getElem?_eq_getElem hj', List.getElem?_eq_getElem hk']
    exact List.pairwise_iff_getElem.mp htape.pairwise _ _ hj' hk' (by omega)
  · rw [List.getElem?_eq_none (not_lt.mp hk'), Option.getD_none]
    by_cases hj' : j - n < picks.length
    · have hrange := htape.range _ (List.getElem_mem hj')
      rw [List.getElem?_eq_getElem hj', Option.getD_some]
      omega
    · rw [List.getElem?_eq_none (not_lt.mp hj'), Option.getD_none]
      omega

/-- Whatever interrupts them, the loops of a run that returns do what the socket
does on a tape of attempts that counted, in their order: the results are the
same, each datagram is handed over once, by an attempt before which all were
interrupted, and each arrival is read once.  The loops return if no call is
interrupted without end, and with any larger bound on the attempts they do the
same. -/
theorem interruptions_invisible (os : Os) (attempts : Attempts) (socket : UdpSocket)
    (calls : List SocketCall) (v : SignalWorld) :
    (∀ fuel results v', run os attempts fuel socket calls v = some (results, v') →
      ∀ w, Settles v w → ∃ sent picks select w', v'.outbox = v.outbox ++ sent ∧
        Tape attempts v.tries (sent.map Datagram.payload) picks v'.tries ∧
        Lists select w.calls picks ∧ StrictMonoOn select (Set.Ici w.calls) ∧
        (∀ missing, SocketCall.run (settled os attempts missing select) socket calls w =
          (results, w')) ∧ w'.calls = w.calls + picks.length ∧ Settles v' w') ∧
    ((∀ n data, ∃ m, (attempts (n + m) data).isSome = true) → ∃ enough results v',
      ∀ fuel, enough ≤ fuel → run os attempts fuel socket calls v = some (results, v')) ∧
    (∀ fuel, (∀ n data, ∃ m < fuel, (attempts (n + m) data).isSome = true) →
      ∃ results v', run os attempts fuel socket calls v = some (results, v')) := by
  refine ⟨fun fuel results v' h w hw ↦ ?_, fun hattempts ↦ ?_,
    fun fuel hattempts ↦ exists_run hattempts calls v⟩
  · obtain ⟨sent, picks, w', hpicks, hrun⟩ := run_follows h hw
    obtain ⟨select, hlists, hselect⟩ := exists_strictMonoOn_lists hpicks.tape w.calls
    exact ⟨sent, picks, select, w', hpicks.outbox, hpicks.tape, hlists, hselect,
      fun missing ↦ hrun missing select hlists, hpicks.calls, hpicks.settles⟩
  · obtain ⟨enough, results, v', h⟩ := exists_run_of_ending hattempts calls v
    exact ⟨enough, results, v', fun fuel hfuel ↦ run_mono hfuel h⟩

example : (run (Simulation.system (Simulation.ticking 1))
    (fun n data ↦ if n < 2 then none else some data.length) 3 { fd := 3 }
    [.sendDatagram ⟨ascii "10.0.0.1", 9400, [1, 2]⟩, .recvDatagram 8]
    { queue := [none, some (.datagram (ascii "10.0.0.2") 9400 [3])] }).map Prod.fst =
      some [.sent 2, .received ⟨ascii "10.0.0.2", 9400, [3]⟩] := by
  decide

end Signalled

end Discovery
