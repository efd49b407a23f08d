import Mathlib.Logic.Relation
import Discovery.Lib.Ownership
import Discovery.SharedBackend

/-!
# Who owns which descriptor

The two `UdpSocket` classes own at most one handle of the operating system each,
hand it over when they are moved, and close it when they are closed, opened
again, assigned to or destroyed.  The kernel is a bank of handles.  A program that
uses sockets leaks no handle and closes none twice, as long as it adopts none that
another object holds, and no run of an engine over its backend does either.
-/

namespace Discovery

open Lib

/-! ## Sockets and their handles -/

/-- The value that stands for no handle, and the test for it. -/
structure HandleKind (H : Type) where
  invalid : H
  isInvalid : H → Bool
  isInvalid_invalid : isInvalid invalid = true

/-- File descriptors on Linux. -/
def HandleKind.linux : HandleKind ℤ where
  invalid := -1
  isInvalid fd := decide (fd < 0)
  isInvalid_invalid := rfl

/-- `SOCKET` on Windows, with `INVALID_SOCKET`. -/
def HandleKind.windows : HandleKind UInt64 where
  invalid := 0xffffffffffffffff
  isInvalid socket := socket == 0xffffffffffffffff
  isInvalid_invalid := rfl

namespace HandleKind

variable {H : Type} [DecidableEq H] (k : HandleKind H)

def close (handle : H) (kernel : Bank H) : H × Bank H :=
  if k.isInvalid handle then (handle, kernel) else (k.invalid, kernel.release handle)

/-- What `::socket` does when it returns `answer`. -/
def socketCall (answer : H) (kernel : Bank H) : Bank H :=
  if k.isInvalid answer then kernel else kernel.acquire answer

/-- `UdpSocket::open`. -/
def openSocket (answer handle : H) (kernel : Bank H) : Bool × H × Bank H :=
  let (_, kernel) := k.close handle kernel
  (!k.isInvalid answer, answer, k.socketCall answer kernel)

/-- `bind`; the host parses or not, and `::bind` succeeds or not. -/
def bind (answer : H) (parses bound : Bool) (handle : H) (kernel : Bank H) : Bool × H × Bank H :=
  let (ready, handle, kernel) :=
    if k.isInvalid handle then k.openSocket answer handle kernel else (true, handle, kernel)
  if !ready then (false, handle, kernel)
  else if !parses then (false, handle, kernel)
  else (bound, handle, kernel)

/-- The handles of the new object and of the one it is moved from. -/
def moveConstruct (other : H) : H × H := (other, k.invalid)

/-- The assignment from another object, with the handles of both. -/
def moveAssign (handle other : H) (kernel : Bank H) : H × H × Bank H :=
  let (_, kernel) := k.close handle kernel
  (other, k.invalid, kernel)

/-- The destructor. -/
def destroy (handle : H) (kernel : Bank H) : Bank H := (k.close handle kernel).2

end HandleKind

/-! ## Programs that use sockets -/

/-- The socket objects that are alive, by name, and the kernel. -/
structure SocketProgram (ι H : Type) where
  objects : ι → Option H := fun _ ↦ none
  kernel : Bank H := {}

namespace SocketProgram

variable {ι H : Type} [DecidableEq ι] [DecidableEq H]

/-- The object named `i` with a new handle, and the kernel that goes with it. -/
def set (p : SocketProgram ι H) (i : ι) (r : H × Bank H) : SocketProgram ι H :=
  { objects := Function.update p.objects i (some r.1), kernel := r.2 }

/-- One use of a socket.  The kernel never returns a handle that is open.  A handle
that is adopted was opened elsewhere, and whoever adopts it sees to it that no
other object holds it: the constructor takes it unchecked. -/
inductive Step (k : HandleKind H) (p : SocketProgram ι H) : SocketProgram ι H → Prop where
  | construct (i : ι) (hi : p.objects i = none) : Step k p (p.set i (k.invalid, p.kernel))
  | adopt (i : ι) (handle : H) (hi : p.objects i = none)
      (hunheld : k.isInvalid handle = false → ∀ j, p.objects j ≠ some handle) :
      Step k p (p.set i (handle, k.socketCall handle p.kernel))
  | moveConstruct (i j : ι) (other : H) (hi : p.objects i = none)
      (hj : p.objects j = some other) :
      Step k p ((p.set j ((k.moveConstruct other).2, p.kernel)).set i
        ((k.moveConstruct other).1, p.kernel))
  | moveAssign (i j : ι) (handle other : H) (hij : i ≠ j) (hi : p.objects i = some handle)
      (hj : p.objects j = some other) :
      Step k p ((p.set j (k.moveAssign handle other p.kernel).2).set i
        ((k.moveAssign handle other p.kernel).1, (k.moveAssign handle other p.kernel).2.2))
  | selfAssign (i : ι) (handle : H) (hi : p.objects i = some handle) : Step k p p
  | openSocket (i : ι) (handle answer : H) (hi : p.objects i = some handle)
      (hfresh : answer ∉ (k.close handle p.kernel).2.live) :
      Step k p (p.set i (k.openSocket answer handle p.kernel).2)
  | bind (i : ι) (handle answer : H) (parses bound : Bool) (hi : p.objects i = some handle)
      (hfresh : answer ∉ p.kernel.live) :
      Step k p (p.set i (k.bind answer parses bound handle p.kernel).2)
  | close (i : ι) (handle : H) (hi : p.objects i = some handle) :
      Step k p (p.set i (k.close handle p.kernel))
  | destroy (i : ι) (handle : H) (hi : p.objects i = some handle) :
      Step k p { objects := Function.update p.objects i none, kernel := k.destroy handle p.kernel }

/-- The handle that the object named `i` owns. -/
def held (k : HandleKind H) (p : SocketProgram ι H) (i : ι) : Option H :=
  (p.objects i).filter fun handle ↦ !k.isInvalid handle

abbrev Sound (k : HandleKind H) (p : SocketProgram ι H) : Prop := Owned (p.held k) p.kernel

variable {k : HandleKind H} {p p' : SocketProgram ι H} {i j : ι} {handle : H}

omit [DecidableEq ι] [DecidableEq H] in
theorem held_of_none (hi : p.objects i = none) : p.held k i = none := by
  simp [held, hi]

omit [DecidableEq ι] [DecidableEq H] in
theorem held_of_some (hi : p.objects i = some handle) :
    p.held k i = if k.isInvalid handle then none else some handle := by
  cases hinvalid : k.isInvalid handle <;> simp [held, hi, hinvalid]

omit [DecidableEq H] in
theorem held_update (k : HandleKind H) (object : Option H) (kernel : Bank H) :
    held k { objects := Function.update p.objects i object, kernel } =
      Function.update (p.held k) i (object.filter fun handle ↦ !k.isInvalid handle) := by
  funext a
  by_cases ha : a = i
  · subst ha
    simp [held]
  · simp [held, ha]

omit [DecidableEq H] in
theorem held_set (k : HandleKind H) (r : H × Bank H) :
    (p.set i r).held k =
      Function.update (p.held k) i (if k.isInvalid r.1 then none else some r.1) := by
  rw [set, held_update]
  cases hinvalid : k.isInvalid r.1 <;> simp [hinvalid, Option.filter]

/-! ### What each use does to the ownership -/

/-- After a close nobody holds the handle of the object, and it is handed back. -/
theorem Sound.close (h : Sound k p) (hi : p.objects i = some handle) :
    Owned (Function.update (p.held k) i none) (k.close handle p.kernel).2 := by
  unfold HandleKind.close
  cases hinvalid : k.isInvalid handle with
  | true =>
      have hheld : p.held k i = none := by simp [held_of_some hi, hinvalid]
      rw [← hheld, Function.update_eq_self]
      exact h
  | false => exact Owned.release h (by simp [held_of_some hi, hinvalid])

theorem owned_socketCall {held : ι → Option H} {kernel : Bank H} {answer : H}
    (h : Owned held kernel) (hi : held i = none) (hfresh : answer ∉ kernel.live) :
    Owned (Function.update held i (if k.isInvalid answer then none else some answer))
      (k.socketCall answer kernel) := by
  unfold HandleKind.socketCall
  split_ifs
  · rw [← hi, Function.update_eq_self]
    exact h
  · exact h.acquire hi hfresh

theorem Sound.openSocket {answer : H} (h : Sound k p) (hi : p.objects i = some handle)
    (hfresh : answer ∉ (k.close handle p.kernel).2.live) :
    Sound k (p.set i (k.openSocket answer handle p.kernel).2) := by
  have hopened := owned_socketCall (k := k) (h.close hi) (Function.update_self ..) hfresh
  rw [Function.update_idem] at hopened
  rw [Sound, held_set]
  exact hopened

omit [DecidableEq H] in
/-- Writing back the handle of an object is no change. -/
theorem set_eq_self (hi : p.objects i = some handle) : p.set i (handle, p.kernel) = p := by
  rw [set, ← hi, Function.update_eq_self]

theorem Sound.bind {answer : H} (h : Sound k p) (hi : p.objects i = some handle)
    (hfresh : answer ∉ p.kernel.live) (parses bound : Bool) :
    Sound k (p.set i (k.bind answer parses bound handle p.kernel).2) := by
  have hresult : (k.bind answer parses bound handle p.kernel).2 =
      if k.isInvalid handle then (k.openSocket answer handle p.kernel).2
      else (handle, p.kernel) := by
    unfold HandleKind.bind
    dsimp only
    split_ifs <;> rfl
  rw [hresult]
  cases hinvalid : k.isInvalid handle with
  | true =>
      have hclose : (k.close handle p.kernel).2 = p.kernel := by simp [HandleKind.close, hinvalid]
      exact h.openSocket hi (by rwa [hclose])
  | false =>
      rw [if_neg Bool.false_ne_true, set_eq_self hi]
      exact h

omit [DecidableEq H] in
theorem owned_transfer {other : H} {kernel : Bank H} {held : ι → Option H}
    (h : Owned held kernel) (hi : held i = none) (hij : i ≠ j)
    (hj : held j = if k.isInvalid other then none else some other) :
    Owned (Function.update (Function.update held j none) i
      (if k.isInvalid other then none else some other)) kernel := by
  rw [← hj, Function.update_comm hij.symm]
  exact h.transfer hi

omit [DecidableEq ι] [DecidableEq H] in
theorem Sound.mem_live_iff (h : Sound k p) (handle : H) :
    handle ∈ p.kernel.live ↔ ∃ i, p.objects i = some handle ∧ k.isInvalid handle = false := by
  simp [h.live, held, Option.filter_eq_some_iff]

/-- To adopt a handle keeps the ownership exactly if no object holds it. -/
theorem Sound.adopt_iff (h : Sound k p) (hi : p.objects i = none) :
    Sound k (p.set i (handle, k.socketCall handle p.kernel)) ↔
      (k.isInvalid handle = false → ∀ j, p.objects j ≠ some handle) := by
  constructor
  · intro hadopted hvalid j hj
    have hij : j ≠ i := fun heq ↦ by rw [heq, hi] at hj; cases hj
    have hheld : (p.set i (handle, k.socketCall handle p.kernel)).held k =
        Function.update (p.held k) i (some handle) := by simp [held_set, hvalid]
    refine hij (hadopted.unique j i handle ?_ ?_)
    · rw [hheld, Function.update_of_ne hij, held_of_some hj, hvalid]
      rfl
    · rw [hheld, Function.update_self]
  · intro hunheld
    rw [Sound, held_set]
    refine owned_socketCall h (held_of_none hi) fun hlive ↦ ?_
    obtain ⟨j, hj, hvalid⟩ := (h.mem_live_iff handle).mp hlive
    exact hunheld hvalid j hj

/-- An object that is made of a handle which another one holds: once both are
destroyed, a handle was closed that was not open. -/
theorem Sound.faults_of_shared (h : Sound k p) (hi : p.objects i = some handle)
    (hj : p.objects j = none) (hvalid : k.isInvalid handle = false) :
    ∃ p₁ p₂, Step k (p.set j (handle, p.kernel)) p₁ ∧ Step k p₁ p₂ ∧ p₁.objects i = none ∧
      p₂.objects j = none ∧ p₂.kernel.faults = 1 := by
  have hij : i ≠ j := fun heq ↦ by rw [heq, hj] at hi; cases hi
  refine ⟨_, _, .destroy i handle ?_, .destroy j handle ?_, Function.update_self ..,
    Function.update_self .., ?_⟩
  · exact (Function.update_of_ne hij _ _).trans hi
  · exact (Function.update_of_ne hij.symm _ _).trans (Function.update_self ..)
  · have hheld : p.held k i = some handle := by rw [held_of_some hi, hvalid]; rfl
    simpa [set, HandleKind.destroy, HandleKind.close, hvalid] using h.faults_of_release_twice hheld

theorem Step.sound (hstep : Step k p p') (h : Sound k p) : Sound k p' := by
  cases hstep with
  | construct i hi =>
      have hheld := held_of_none (k := k) hi
      rw [Sound, held_set, if_pos k.isInvalid_invalid, ← hheld, Function.update_eq_self]
      exact h
  | adopt i handle hi hunheld => exact (Sound.adopt_iff h hi).mpr hunheld
  | moveConstruct i j other hi hj =>
      have hij : i ≠ j := fun heq ↦ by rw [heq, hj] at hi; cases hi
      rw [Sound, held_set, held_set, HandleKind.moveConstruct, if_pos k.isInvalid_invalid]
      exact owned_transfer h (held_of_none hi) hij (held_of_some hj)
  | moveAssign i j handle other hij hi hj =>
      have hclosed := Sound.close h hi
      have hother : Function.update (p.held k) i none j =
          if k.isInvalid other then none else some other := by
        rw [Function.update_of_ne hij.symm, held_of_some hj]
      have hmoved := owned_transfer hclosed (Function.update_self ..) hij hother
      rw [Function.update_comm hij.symm, Function.update_idem, Function.update_comm hij] at hmoved
      rw [Sound, held_set, held_set, HandleKind.moveAssign, if_pos k.isInvalid_invalid]
      exact hmoved
  | selfAssign i handle hi => exact h
  | openSocket i handle answer hi hfresh => exact Sound.openSocket h hi hfresh
  | bind i handle answer parses bound hi hfresh => exact Sound.bind h hi hfresh parses bound
  | close i handle hi =>
      have hinvalid : k.isInvalid (k.close handle p.kernel).1 = true := by
        unfold HandleKind.close
        split_ifs with hhandle
        · exact hhandle
        · exact k.isInvalid_invalid
      rw [Sound, held_set, if_pos hinvalid]
      exact Sound.close h hi
  | destroy i handle hi =>
      rw [Sound, held_update]
      exact Sound.close h hi

theorem sound_of_run (hrun : Relation.ReflTransGen (Step k) {} p) : Sound k p := by
  induction hrun with
  | refl => exact Owned.empty
  | tail _ hstep ih => exact hstep.sound ih

/-- In every program on sockets that starts with none, and in which no handle is
adopted that another object holds, the open handles are exactly those that socket
objects own, each a single one.  No handle that is not open is ever closed, and
once all objects are destroyed every handle has been closed as often as it was
opened. -/
theorem sockets_own_handles (hrun : Relation.ReflTransGen (Step k) {} p) :
    (∀ handle, handle ∈ p.kernel.live ↔
      ∃ i, p.objects i = some handle ∧ k.isInvalid handle = false) ∧
    (∀ i j handle, p.objects i = some handle → p.objects j = some handle →
      k.isInvalid handle = false → i = j) ∧
    p.kernel.faults = 0 ∧
    p.kernel.acquired = p.kernel.released + p.kernel.live.val ∧
    ((∀ i, p.objects i = none) → p.kernel.live = ∅ ∧ p.kernel.acquired = p.kernel.released) := by
  have h := sound_of_run hrun
  refine ⟨h.mem_live_iff, fun i j handle hi hj hvalid ↦ ?_, h.faults, h.balance, fun hnone ↦ ?_⟩
  · refine h.unique i j handle ?_ ?_
    · rw [held_of_some hi, hvalid]
      rfl
    · rw [held_of_some hj, hvalid]
      rfl
  · exact h.settled fun i ↦ held_of_none (hnone i)

/-- One socket is opened, another is made of it by a move, a third adopts a handle
that was opened elsewhere, and all are destroyed. -/
def moved : SocketProgram Bool UInt64 :=
  let k := HandleKind.windows
  let p := ({} : SocketProgram Bool UInt64).set false (k.invalid, {})
  let p := p.set false (k.openSocket 3 k.invalid p.kernel).2
  let p := (p.set false ((k.moveConstruct 3).2, p.kernel)).set true
    ((k.moveConstruct 3).1, p.kernel)
  let p : SocketProgram Bool UInt64 :=
    { objects := Function.update p.objects false none, kernel := k.destroy k.invalid p.kernel }
  let p := p.set false (5, k.socketCall 5 p.kernel)
  let p : SocketProgram Bool UInt64 :=
    { objects := Function.update p.objects true none, kernel := k.destroy 3 p.kernel }
  { objects := Function.update p.objects false none, kernel := k.destroy 5 p.kernel }

theorem run_moved : Relation.ReflTransGen (Step HandleKind.windows) {} moved :=
  .tail (.tail (.tail (.tail (.tail (.tail (.tail .refl (.construct false rfl))
    (.openSocket false HandleKind.windows.invalid 3 rfl (by decide)))
      (.moveConstruct true false 3 rfl rfl)) (.destroy false HandleKind.windows.invalid rfl))
        (.adopt false 5 rfl (by decide))) (.destroy true 3 rfl)) (.destroy false 5 rfl)

theorem sockets_own_handles_moved :
    moved.kernel.live = ∅ ∧ moved.kernel.acquired = moved.kernel.released :=
  (sockets_own_handles run_moved).2.2.2.2 (by decide)

end SocketProgram

/-! ## Descriptors of the backend -/

namespace UdpSocket

def closeIn (socket : UdpSocket) (kernel : Bank ℤ) : UdpSocket × Bank ℤ :=
  let (fd, kernel) := HandleKind.linux.close socket.fd kernel
  ({ fd }, kernel)

def openIn (os : Os) (socket : UdpSocket) (w : World) (kernel : Bank ℤ) :
    Bool × UdpSocket × World × Bank ℤ :=
  let (ok, fd, kernel) := HandleKind.linux.openSocket (os.socket w.calls) socket.fd kernel
  (ok, { fd }, { w with calls := w.calls + 1 }, kernel)

def bindIn (os : Os) (socket : UdpSocket) (host : Bytes) (_port : UInt16) (w : World)
    (kernel : Bank ℤ) : Bool × UdpSocket × World × Bank ℤ :=
  let (ready, socket, w, kernel) :=
    if socket.isValid then (true, socket, w, kernel) else socket.openIn os w kernel
  if !ready then (false, socket, w, kernel)
  else if !os.inetPton host then (false, socket, w, kernel)
  else (os.bind w.calls == 0, socket, { w with calls := w.calls + 1 }, kernel)

end UdpSocket

namespace UdpDiscoveryBackend

def startIn (os : Os) (backend : UdpDiscoveryBackend) (w : World) (kernel : Bank ℤ) :
    Bool × UdpDiscoveryBackend × World × Bank ℤ :=
  if backend.running then (true, backend, w, kernel)
  else if !backend.config.isValid then (false, backend, w, kernel)
  else
    let (ok, socket, w, kernel) := backend.socket.openIn os w kernel
    let backend := { backend with socket }
    if !ok then (false, backend, w, kernel) else
    let (ok, w) := backend.configureSocket os w
    if !ok then
      let (socket, kernel) := backend.socket.closeIn kernel
      (false, { backend with socket }, w, kernel)
    else
    let (ok, socket, w, kernel) :=
      backend.socket.bindIn os backend.config.bindHost backend.config.bindPort w kernel
    let backend := { backend with socket }
    if !ok then
      let (socket, kernel) := backend.socket.closeIn kernel
      (false, { backend with socket }, w, kernel)
    else (true, { backend with running := true }, w, kernel)

def stopIn (backend : UdpDiscoveryBackend) (kernel : Bank ℤ) : UdpDiscoveryBackend × Bank ℤ :=
  let (socket, kernel) := backend.socket.closeIn kernel
  ({ backend with running := false, socket }, kernel)

/-- The destructor, and after it the destructor of the socket. -/
def destroyIn (backend : UdpDiscoveryBackend) (kernel : Bank ℤ) : Bank ℤ :=
  let (backend, kernel) := backend.stopIn kernel
  HandleKind.linux.destroy backend.socket.fd kernel

end UdpDiscoveryBackend

/-! ### The kernel does not change what the calls do -/

section Erasure

variable {os : Os} (socket : UdpSocket) (backend : UdpDiscoveryBackend) (w : World)
  (kernel : Bank ℤ)

theorem closeIn_fst : (socket.closeIn kernel).1 = socket.close := by
  unfold UdpSocket.closeIn UdpSocket.close HandleKind.close HandleKind.linux
  by_cases h : socket.fd < 0 <;> simp [h]

theorem openIn_eq : socket.openIn os w kernel =
    ((socket.openSocket os w).1, (socket.openSocket os w).2.1, (socket.openSocket os w).2.2,
      (HandleKind.linux.openSocket (os.socket w.calls) socket.fd kernel).2.2) := by
  have hvalid : (!decide (os.socket w.calls < 0)) = decide (0 ≤ os.socket w.calls) := by
    simp [← decide_not]
  simp only [UdpSocket.openIn, UdpSocket.openSocket, HandleKind.openSocket, HandleKind.linux,
    hvalid]

theorem bindIn_eq (host : Bytes) (port : UInt16) : socket.bindIn os host port w kernel =
    ((socket.bind os host port w).1, (socket.bind os host port w).2.1,
      (socket.bind os host port w).2.2,
      if socket.isValid then kernel else (socket.openIn os w kernel).2.2.2) := by
  unfold UdpSocket.bindIn UdpSocket.bind
  rw [openIn_eq]
  dsimp only
  split_ifs <;> rfl

variable (os) in
theorem startIn_eq : ∃ kernel', backend.startIn os w kernel =
    ((backend.start os w).1, (backend.start os w).2.1, (backend.start os w).2.2, kernel') := by
  unfold UdpDiscoveryBackend.startIn UdpDiscoveryBackend.start
  simp only [openIn_eq, bindIn_eq, closeIn_fst]
  split_ifs <;> exact ⟨_, rfl⟩

theorem stopIn_fst : (backend.stopIn kernel).1 = backend.stop := by
  simp only [UdpDiscoveryBackend.stopIn, UdpDiscoveryBackend.stop, closeIn_fst]

end Erasure

/-! ### The kernel holds what the socket owns -/

/-- A single socket, seen as a program. -/
def UdpSocket.alone (socket : UdpSocket) (kernel : Bank ℤ) : SocketProgram Unit ℤ where
  objects _ := some socket.fd
  kernel := kernel

/-- The one socket of a backend owns whatever is open. -/
abbrev OwnsFd (socket : UdpSocket) (kernel : Bank ℤ) : Prop :=
  SocketProgram.Sound HandleKind.linux (socket.alone kernel)

theorem held_alone (socket : UdpSocket) (kernel : Bank ℤ) :
    (socket.alone kernel).held HandleKind.linux =
      fun _ ↦ if socket.isValid then some socket.fd else none := by
  funext i
  have hobject : (socket.alone kernel).objects i = some socket.fd := rfl
  rw [SocketProgram.held_of_some hobject]
  by_cases hfd : socket.fd < 0 <;> simp [HandleKind.linux, UdpSocket.isValid, hfd, Int.not_lt.mp]

namespace OwnsFd

variable {os : Os} {socket : UdpSocket} {backend : UdpDiscoveryBackend} {w : World}
  {kernel : Bank ℤ}

theorem of_set {p : SocketProgram Unit ℤ} {r : ℤ × Bank ℤ}
    (h : SocketProgram.Sound HandleKind.linux (p.set () r)) : OwnsFd { fd := r.1 } r.2 := by
  have hobjects : (p.set () r).objects = fun _ ↦ some r.1 := by
    funext a
    exact Function.update_self a (some r.1) p.objects
  unfold OwnsFd UdpSocket.alone
  rwa [← hobjects]

theorem closeIn (h : OwnsFd socket kernel) :
    OwnsFd (socket.closeIn kernel).1 (socket.closeIn kernel).2 :=
  of_set ((SocketProgram.Step.close () socket.fd rfl).sound h)

/-- Once the socket has been closed nothing is open. -/
theorem close_kernel (h : OwnsFd socket kernel) :
    let closed := (HandleKind.linux.close socket.fd kernel).2
    closed.live = ∅ ∧ closed.acquired = closed.released ∧ closed.faults = 0 := by
  have hclosed := SocketProgram.Sound.close (i := ()) h rfl
  obtain ⟨hlive, hbalance⟩ := hclosed.settled fun _ ↦ Function.update_self ..
  exact ⟨hlive, hbalance, hclosed.faults⟩

/-- An open closes first, so no descriptor of the backend is left to collide with. -/
theorem openIn (h : OwnsFd socket kernel) :
    OwnsFd (socket.openIn os w kernel).2.1 (socket.openIn os w kernel).2.2.2 := by
  refine of_set ((SocketProgram.Step.openSocket () socket.fd (os.socket w.calls) rfl ?_).sound h)
  have hempty := h.close_kernel.1
  dsimp only [UdpSocket.alone]
  rw [hempty]
  exact Finset.notMem_empty _

theorem bindIn (h : OwnsFd socket kernel) (host : Bytes) (port : UInt16) :
    OwnsFd (socket.bindIn os host port w kernel).2.1
      (socket.bindIn os host port w kernel).2.2.2 := by
  unfold UdpSocket.bindIn
  dsimp only
  split_ifs
  · exact h
  · exact h
  · exact h
  · exact h.openIn
  · exact h.openIn
  · exact h.openIn

variable (os w) in
theorem startIn (h : OwnsFd backend.socket kernel) :
    OwnsFd (backend.startIn os w kernel).2.1.socket (backend.startIn os w kernel).2.2.2 := by
  have hopened : OwnsFd (backend.socket.openIn os w kernel).2.1 _ := h.openIn
  unfold UdpDiscoveryBackend.startIn
  dsimp only
  split_ifs
  · exact h
  · exact h
  · exact hopened
  · exact hopened.closeIn
  · exact (hopened.bindIn _ _).closeIn
  · exact hopened.bindIn _ _

theorem stopIn (h : OwnsFd backend.socket kernel) :
    OwnsFd (backend.stopIn kernel).1.socket (backend.stopIn kernel).2 :=
  h.closeIn

end OwnsFd

/-! ## Runs of an engine on the kernel -/

namespace DiscoveryEngine

/-- A runtime and the descriptors that its backend opened and closed. -/
structure Hosted (T : Type) where
  runtime : Runtime T
  kernel : Bank ℤ := {}

variable {T : Type} {deps : External T} {os : Os}

def startIn (os : Os) (h : Hosted T) : Bool × Hosted T :=
  let s := h.runtime
  if s.engine.status.isRunning then (true, h)
  else if !s.context.isValid then (false, { h with runtime.engine.status := .failed })
  else
    let s := { s with engine.status := .starting }
    let (ok, backend, world, kernel) := s.backend.startIn os s.world h.kernel
    let s := { s with backend, world }
    if !ok then (false, ⟨{ s with engine.status := .failed }, kernel⟩)
    else (true, ⟨{ s with engine.lastAnnounceAt := {}, engine.status := .running }, kernel⟩)

def stopIn (h : Hosted T) : Hosted T :=
  let s := h.runtime
  if s.engine.status = .stopped then h
  else
    let s := { s with engine.status := .stopping }
    let (backend, kernel) := s.backend.stopIn h.kernel
    let s := { s with backend }
    let s := { s with engine.registry := s.engine.registry.clear }
    ⟨{ s with engine.lastAnnounceAt := {}, engine.status := .stopped }, kernel⟩

/-- Only starting and stopping open or close a descriptor. -/
def Turn.applyIn (deps : External T) (os : Os) : Turn T → Hosted T → Hosted T
  | engine .start, h => (startIn os h).2
  | engine .stop, h => stopIn h
  | backendStart, h =>
    let (_, backend, world, kernel) := h.runtime.backend.startIn os h.runtime.world h.kernel
    ⟨{ h.runtime with backend, world }, kernel⟩
  | backendStop, h =>
    let (backend, kernel) := h.runtime.backend.stopIn h.kernel
    ⟨{ h.runtime with backend }, kernel⟩
  | t, h => { h with runtime := t.apply deps os h.runtime }

def afterTurnsIn (deps : External T) (os : Os) : List (Turn T) → Hosted T → Hosted T
  | [], h => h
  | t :: turns, h => afterTurnsIn deps os turns (t.applyIn deps os h)

/-- The destructor of the engine, and after it that of the backend. -/
def destroyIn (h : Hosted T) : Bank ℤ :=
  (stopIn h).runtime.backend.destroyIn (stopIn h).kernel

/-! ### The kernel does not change what the engine does -/

theorem startIn_runtime (h : Hosted T) : (startIn os h).2.runtime = (start os h.runtime).2 := by
  obtain ⟨kernel, hkernel⟩ := startIn_eq os h.runtime.backend h.runtime.world h.kernel
  unfold startIn start
  dsimp only
  rw [hkernel]
  split_ifs <;> rfl

theorem stopIn_runtime (h : Hosted T) : (stopIn h).runtime = stop h.runtime := by
  unfold stopIn stop
  dsimp only
  rw [stopIn_fst]
  split_ifs <;> rfl

variable (deps os) in
theorem applyIn_runtime (t : Turn T) (h : Hosted T) :
    (t.applyIn deps os h).runtime = t.apply deps os h.runtime := by
  cases t with
  | backendStart =>
      obtain ⟨kernel, hkernel⟩ := startIn_eq os h.runtime.backend h.runtime.world h.kernel
      simp only [Turn.applyIn, Turn.apply, hkernel]
  | backendStop => simp only [Turn.applyIn, Turn.apply, stopIn_fst]
  | environment inbox transport readings => rfl
  | engine op =>
      cases op with
      | start => exact startIn_runtime h
      | stop => exact stopIn_runtime h
      | _ => rfl

/-! ### The descriptors of a run -/

/-- The socket owns whatever is open, and it owns something while the backend runs. -/
structure Hosted.Tidy (h : Hosted T) : Prop where
  owns : OwnsFd h.runtime.backend.socket h.kernel
  coupled : h.runtime.backend.Coupled

variable (os) in
theorem coupled_start {b : UdpDiscoveryBackend} (h : b.Coupled) (w : World) :
    (b.start os w).2.1.Coupled := by
  cases hrunning : b.running with
  | true => simpa [UdpDiscoveryBackend.start, hrunning] using h
  | false => exact (UdpDiscoveryBackend.start_of_down os w hrunning h).2.2

theorem Hosted.Tidy.start {h : Hosted T} (htidy : h.Tidy) : (startIn os h).2.Tidy := by
  have hcoupled := coupled_start os htidy.coupled h.runtime.world
  have howns := OwnsFd.startIn os h.runtime.world htidy.owns
  obtain ⟨kernel, hkernel⟩ := startIn_eq os h.runtime.backend h.runtime.world h.kernel
  rw [hkernel] at howns
  unfold DiscoveryEngine.startIn
  dsimp only
  rw [hkernel]
  split_ifs
  · exact htidy
  · exact ⟨htidy.owns, htidy.coupled⟩
  · exact ⟨howns, hcoupled⟩
  · exact ⟨howns, hcoupled⟩

theorem Hosted.Tidy.backendStop {h : Hosted T} (htidy : h.Tidy) :
    OwnsFd (h.runtime.backend.stopIn h.kernel).1.socket (h.runtime.backend.stopIn h.kernel).2 ∧
      (h.runtime.backend.stopIn h.kernel).1.Coupled := by
  refine ⟨htidy.owns.stopIn, ?_⟩
  rw [stopIn_fst]
  exact .stop _

theorem Hosted.Tidy.stop {h : Hosted T} (htidy : h.Tidy) : (stopIn h).Tidy := by
  obtain ⟨howns, hcoupled⟩ := htidy.backendStop
  unfold DiscoveryEngine.stopIn
  dsimp only
  split_ifs
  · exact htidy
  · exact ⟨howns, hcoupled⟩

theorem Hosted.Tidy.of_backend {h : Hosted T} (htidy : h.Tidy) {s : Runtime T}
    (hs : s.backend = h.runtime.backend) : Hosted.Tidy { h with runtime := s } := by
  refine ⟨?_, ?_⟩
  · rw [hs]
    exact htidy.owns
  · rw [hs]
    exact htidy.coupled

theorem Hosted.Tidy.turn {h : Hosted T} (htidy : h.Tidy) (t : Turn T) :
    (t.applyIn deps os h).Tidy := by
  cases t with
  | backendStart =>
      have hcoupled := coupled_start os htidy.coupled h.runtime.world
      have howns := OwnsFd.startIn os h.runtime.world htidy.owns
      obtain ⟨kernel, hkernel⟩ := startIn_eq os h.runtime.backend h.runtime.world h.kernel
      rw [hkernel] at howns
      simp only [Turn.applyIn, hkernel]
      exact ⟨howns, hcoupled⟩
  | backendStop =>
      obtain ⟨howns, hcoupled⟩ := htidy.backendStop
      exact ⟨howns, hcoupled⟩
  | environment inbox transport readings => exact htidy.of_backend rfl
  | engine op =>
      cases op with
      | start => exact htidy.start
      | stop => exact htidy.stop
      | announceNow => exact htidy.of_backend (exec_backend (by simp) (by simp) h.runtime)
      | probeNow => exact htidy.of_backend (exec_backend (by simp) (by simp) h.runtime)
      | pollOnce => exact htidy.of_backend (exec_backend (by simp) (by simp) h.runtime)
      | pollMany maxMessages => exact htidy.of_backend (exec_backend (by simp) (by simp) h.runtime)

variable (deps os) in
theorem Hosted.Tidy.turns {h : Hosted T} (htidy : h.Tidy) (turns : List (Turn T)) :
    (afterTurnsIn deps os turns h).Tidy := by
  induction turns generalizing h with
  | nil => exact htidy
  | cons t turns ih => exact ih (htidy.turn t)

theorem afterTurnsIn_runtime (turns : List (Turn T)) (h : Hosted T) :
    (afterTurnsIn deps os turns h).runtime = afterTurns deps os turns h.runtime := by
  induction turns generalizing h with
  | nil => rfl
  | cons t turns ih => rw [afterTurnsIn, ih, applyIn_runtime, afterTurns]

theorem Hosted.Tidy.mem_live_iff {h : Hosted T} (htidy : h.Tidy) (fd : ℤ) :
    fd ∈ h.kernel.live ↔
      h.runtime.backend.running = true ∧ h.runtime.backend.socket.fd = fd := by
  have hrunning := htidy.coupled
  have hlive := htidy.owns.live fd
  rw [UdpDiscoveryBackend.Coupled] at hrunning
  rw [held_alone, ← hrunning] at hlive
  refine hlive.trans ?_
  cases h.runtime.backend.running <;> simp

/-- The destructors leave nothing open and close nothing twice. -/
theorem Hosted.Tidy.destroy {h : Hosted T} (htidy : h.Tidy) :
    (destroyIn h).live = ∅ ∧ (destroyIn h).acquired = (destroyIn h).released ∧
      (destroyIn h).faults = 0 := by
  obtain ⟨howns, -⟩ := htidy.stop.backendStop
  exact howns.close_kernel

/-- In every run of an engine and of the owner of its backend, and whatever the
system calls return, the only descriptor that is open is that of the running
backend.  None is closed that is not open, and after the destructors each one
that was opened has been closed. -/
theorem engine_owns_descriptors (context : DiscoveryContext T) (config : DiscoveryConfig)
    (world : World) (turns : List (Turn T)) :
    let s : Runtime T := { context, backend := { config }, world }
    let h := afterTurnsIn deps os turns { runtime := s }
    h.runtime = afterTurns deps os turns s ∧
      (∀ fd, fd ∈ h.kernel.live ↔
        h.runtime.backend.running = true ∧ h.runtime.backend.socket.fd = fd) ∧
      h.kernel.faults = 0 ∧ h.kernel.acquired = h.kernel.released + h.kernel.live.val ∧
      (destroyIn h).live = ∅ ∧ (destroyIn h).acquired = (destroyIn h).released ∧
      (destroyIn h).faults = 0 := by
  let fresh : Hosted T := { runtime := { context, backend := { config }, world } }
  have hinit : fresh.Tidy := by
    refine ⟨?_, rfl⟩
    unfold OwnsFd SocketProgram.Sound
    rw [held_alone]
    exact Owned.empty
  have htidy := hinit.turns deps os turns
  exact ⟨afterTurnsIn_runtime _ _, htidy.mem_live_iff, htidy.owns.faults, htidy.owns.balance,
    htidy.destroy⟩

end DiscoveryEngine

end Discovery
