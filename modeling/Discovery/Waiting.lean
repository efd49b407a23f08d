import Discovery.Drain
import Discovery.Lib.Batches

/-!
# Waiting behind rejected datagrams

An owner calls `poll_many` again and again while datagrams come in.  Each call is
a batch of the queue.  So a datagram waits a call for every rejected one ahead of
it, and further calls only where these are cut off by their limit.
-/

namespace Discovery

open Lib

namespace DiscoveryEngine

variable {T : Type}

/-- A turn of the owner: datagrams arrive, the clock and the transport engine go
on, and `poll_many` is called. -/
structure Round (T : Type) where
  arrivals : List Arrival
  transport : T → T
  readings : ℕ
  maxMessages : ℕ

def Round.meet (round : Round T) (s : Runtime T) : Runtime T :=
  environment (s.world.inbox ++ round.arrivals) round.transport round.readings s

/-- The values that the calls return, and the state after them. -/
def pollManyRounds (deps : External T) (os : Os) :
    List (Round T) → Runtime T → List ℕ × Runtime T
  | [], s => ([], s)
  | round :: rounds, s =>
    let (processed, s) := pollMany deps os round.maxMessages (round.meet s)
    let (counts, s) := pollManyRounds deps os rounds s
    (processed :: counts, s)

def Round.batch (round : Round T) : List Arrival × ℕ := (round.arrivals, round.maxMessages)

variable {deps : External T} {os : Os} {s : Runtime T} {c : DiscoveryConfig}

theorem flatMap_batch (rounds : List (Round T)) :
    (rounds.map Round.batch).flatMap Prod.fst = rounds.flatMap Round.arrivals := by
  rw [List.flatMap_map]
  rfl

/-! ## A call is a batch -/

section Batches

variable (hser : deps.ser.Lawful) (hclock : os.ClockPositive) (hsends : os.SendsSucceed)

include hser hclock hsends

theorem pollManyLoop_batch (limit processed : ℕ) (h : Live s c)
    (hanswer : Answerable deps os c s.backend.config.maxDatagramSize s.world.inbox) :
    Live (pollManyLoop deps os limit processed s).2 c ∧
      (pollManyLoop deps os limit processed s).2.backend = s.backend ∧
      (pollManyLoop deps os limit processed s).1 = processed +
        (batch (acceptable deps.ser s.backend.config.maxDatagramSize c.nodeId) limit
          s.world.inbox).1 ∧
      (pollManyLoop deps os limit processed s).2.world.inbox =
        (batch (acceptable deps.ser s.backend.config.maxDatagramSize c.nodeId) limit
          s.world.inbox).2 := by
  induction limit generalizing s processed with
  | zero => exact ⟨h, rfl, rfl, rfl⟩
  | succ limit ih =>
      have hspec := pollOnce_spec deps os h
      have hlive := h.of_kept hspec.kept
      cases hinbox : s.world.inbox with
      | nil =>
          have hr : nextReaction deps c s = .reject := by rw [nextReaction, hinbox]
          have hnil : (pollOnce deps os s).2.world.inbox = [] := by rw [hspec.inbox, hinbox]; rfl
          rw [pollManyLoop_of_false (pollOnce_fst_of_reject h hr)]
          exact ⟨hlive, hspec.kept.backend, rfl, hnil⟩
      | cons a rest =>
          have hrest : (pollOnce deps os s).2.world.inbox = rest := by rw [hspec.inbox, hinbox]; rfl
          cases ha : acceptable deps.ser s.backend.config.maxDatagramSize c.nodeId a with
          | false =>
              have hr := nextReaction_of_rejected (c := c) hinbox ha
              rw [pollManyLoop_of_false (pollOnce_fst_of_reject h hr), batch_cons_of_rejected ha]
              exact ⟨hlive, hspec.kept.backend, rfl, hrest⟩
          | true =>
              have htrue := pollOnce_fst_of_acceptable hser hclock hsends h hinbox hanswer ha
              rw [hinbox, ← hspec.kept.backend] at hanswer
              have hnext := ih (processed + 1) hlive (by rw [hrest]; exact hanswer.tail)
              rw [hrest, hspec.kept.backend] at hnext
              obtain ⟨hlive', hbackend, hcount, hleft⟩ := hnext
              rw [pollManyLoop_of_true htrue, batch_cons_of_accepted ha]
              exact ⟨hlive', hbackend, by rw [hcount, Nat.add_assoc, Nat.add_comm 1], hleft⟩

theorem pollManyRounds_batches (rounds : List (Round T)) (h : Live s c)
    (hanswer : Answerable deps os c s.backend.config.maxDatagramSize
      (s.world.inbox ++ rounds.flatMap Round.arrivals)) :
    ((pollManyRounds deps os rounds s).1, (pollManyRounds deps os rounds s).2.world.inbox) =
      batches (acceptable deps.ser s.backend.config.maxDatagramSize c.nodeId)
        (rounds.map Round.batch) s.world.inbox := by
  induction rounds generalizing s with
  | nil => rfl
  | cons round rounds ih =>
      have hmeet : Live (round.meet s) c := h.of_kept (environment_kept _ _ _ s)
      rw [List.flatMap_cons, ← List.append_assoc] at hanswer
      have hnow : Answerable deps os c (round.meet s).backend.config.maxDatagramSize
          (round.meet s).world.inbox := fun x hx ↦ hanswer x (List.mem_append_left _ hx)
      obtain ⟨hlive, hbackend, hcount, hleft⟩ :=
        pollManyLoop_batch hser hclock hsends round.maxMessages 0 hmeet hnow
      -- what the call leaves is still answerable
      have hlater : Answerable deps os c s.backend.config.maxDatagramSize
          ((pollMany deps os round.maxMessages (round.meet s)).2.world.inbox ++
            rounds.flatMap Round.arrivals) := by
        obtain ⟨taken, hqueue, -⟩ := exists_batch_taken
          (acceptable deps.ser s.backend.config.maxDatagramSize c.nodeId) round.maxMessages
          (s.world.inbox ++ round.arrivals)
        intro x hx
        refine hanswer x ?_
        rw [hqueue, List.append_assoc]
        rw [pollMany, hleft] at hx
        exact List.mem_append_right _ hx
      have hrest := ih hlive (by rw [hbackend]; exact hlater)
      rw [hbackend, hleft] at hrest
      obtain ⟨hcounts, hinbox⟩ := Prod.mk.inj hrest
      rw [Nat.zero_add] at hcount
      exact Prod.ext (List.cons_eq_cons.mpr ⟨hcount, hcounts⟩) hinbox

end Batches

/-! ## Waiting -/

/-- Over every run of `poll_many` calls the queue is read in order, and what the
calls return adds up to the acceptable arrivals that were read.  An arrival waits
at least a call for each rejected one ahead of it, and is read one call later if
no limit cuts off the acceptable ones ahead of it. -/
theorem polling_wait_bounded (hser : deps.ser.Lawful) (hclock : os.ClockPositive)
    (hsends : os.SendsSucceed) (hs : Reachable deps os s) (hrunning : isRunning s = true)
    (hc : s.context.config = some c) (rounds : List (Round T))
    (hanswer : Answerable deps os c s.backend.config.maxDatagramSize
      (s.world.inbox ++ rounds.flatMap Round.arrivals)) :
    let accepted := acceptable deps.ser s.backend.config.maxDatagramSize c.nodeId
    let arrivals := rounds.flatMap Round.arrivals
    let r := pollManyRounds deps os rounds s
    (∃ taken, s.world.inbox ++ arrivals = taken ++ r.2.world.inbox ∧
      r.1.sum = taken.countP accepted) ∧
    ∀ ahead a behind, s.world.inbox = ahead ++ a :: behind →
      (rounds.length ≤ ahead.countP (!accepted ·) →
        a :: behind ++ arrivals <:+ r.2.world.inbox) ∧
      ∀ least, 0 < least → (∀ round ∈ rounds, least ≤ round.maxMessages) →
        ahead.countP (!accepted ·) + ahead.countP accepted / least < rounds.length →
          r.2.world.inbox <:+ behind ++ arrivals := by
  intro accepted arrivals r
  obtain ⟨hcounts, hinbox⟩ := Prod.mk.inj
    (pollManyRounds_batches hser hclock hsends rounds (hs.live hrunning hc) hanswer)
  have harrivals : (rounds.map Round.batch).flatMap Prod.fst = arrivals := flatMap_batch rounds
  constructor
  · obtain ⟨taken, hqueue, hsum⟩ :=
      exists_batches_taken accepted (rounds.map Round.batch) s.world.inbox
    rw [harrivals, ← hinbox] at hqueue
    rw [← hcounts] at hsum
    exact ⟨taken, hqueue, hsum⟩
  · intro ahead a behind hqueue
    rw [hqueue] at hinbox
    refine ⟨fun hfew ↦ ?_, fun least hleast hlimits hmany ↦ ?_⟩
    · rw [← List.length_map Round.batch] at hfew
      have hwait := batches_wait (rounds.map Round.batch) hfew (a :: behind)
      rwa [harrivals, ← hinbox] at hwait
    · rw [← List.length_map Round.batch] at hmany
      have hreach := batches_reach a behind hleast (rounds.map Round.batch)
        (List.forall_mem_map.mpr hlimits) hmany
      rwa [harrivals, ← hinbox] at hreach

open Simulation in
/-- The node's own broadcast holds the announcement behind it up by one call. -/
theorem polling_wait_bounded_echo :
    (pollManyRounds listing (system (ticking 1000)) [⟨[], id, 0, 16⟩, ⟨[], id, 0, 16⟩]
      (receiver [announced "node-b" 9400 9400, announced "node-a" 9500 9400])).2.world.inbox <:+
        [] :=
  ((polling_wait_bounded listing_lawful (clockPositive_ticking (by decide))
    (sendsSucceed_system _) (reachable_receiver _) (by decide) rfl
      [⟨[], id, 0, 16⟩, ⟨[], id, 0, 16⟩] (fun _ _ _ _ _ _ ↦ rfl)).2
        [announced "node-b" 9400 9400] (announced "node-a" 9500 9400) [] rfl).2 16 (by decide)
          (by decide) (by decide)

end DiscoveryEngine

end Discovery
