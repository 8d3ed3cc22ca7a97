import Icmpenguin.Table
import Icmpenguin.Receive
import Mathlib.Logic.Relation

/-!
# Icmpenguin — the engine

One `ProbeManager` as a state machine: the worker thread running `handler`, any number of
caller threads inside `send_probe`, the thread returning from `start` and the one in
`stop`, over the shared probe table, the process's open descriptors, the epoll interest
list and the eventfd counter. One action is one step of one thread; what the kernel, the
network and the clock return is part of the action.

A function that holds `probes_mutex` for its whole body is one step: no other thread can
see the table in between. Between two such steps any other thread may run, so a run is
any interleaving of the threads' steps. `send_probe` takes three steps: `socket()`; the
thread-local calls up to `sendto()`; `add_socket`.
-/

namespace Icmpenguin

/-- What a system call returns: a value, or failure with `errno` and `strerror(errno)`. -/
inductive SysResult (α : Type) where
  | ok (v : α)
  | err (errno : Nat) (text : String)
  deriving DecidableEq, Repr

/-- Where the worker is in `ProbeManager::handler`. `wait` records the bound
`get_min_wait_time` returned, its clock reading and the `WAITING` entries it scanned;
`cleanProbes` records the serials the iteration's `send_callbacks` delivered. -/
inductive WorkerPc where
  | setup
  | failed
  | storeRunning
  | loopTest
  | scan
  | wait (w : Int) (t0 : Timeval) (seen : List (Int × Slot))
  | dispatch (evs : List Int)
  | checkTimeouts
  | sendCallbacks
  | cleanProbes (batch : List Nat)
  | forceTimeouts
  | finalClean
  | closeWakeup
  | closeEpoll
  | done
  deriving DecidableEq, Repr

/-- Where a caller thread is in `send_probe`: before it, after `socket()`, after
`sendto()`, returned, or left by an exception. -/
inductive CallerPc where
  | idle
  | opened (fd : Int) (serial : Nat) (probe : ProbeContext) (size : Int)
      (pattern : List UInt8)
  | sent (fd : Int) (serial : Nat) (probe : ProbeContext)
  | returned (r : Int)
  | threw
  deriving DecidableEq, Repr

/-- Not inside `send_probe`, so free to call it. -/
def CallerPc.Free : CallerPc → Prop
  | .idle | .returned _ => True
  | _ => False

instance : DecidablePred CallerPc.Free := fun c => by
  cases c <;> unfold CallerPc.Free <;> infer_instance

/-- Where the thread in `stop` is. -/
inductive StopPc where
  | idle
  | stored
  | woke
  | joined
  deriving DecidableEq, Repr

/-- The state of one engine and the threads using it. -/
structure Engine where
  cfg : Config
  probes : ProbeTable
  epollFd : Int
  wakeupFd : Int
  epollOpen : Bool
  eventOpen : Bool
  running : Bool
  counter : Nat
  registered : List Int
  openFds : List Int
  worker : WorkerPc
  started : Bool
  stopper : StopPc
  callers : Nat → CallerPc
  aborted : Bool
  nextSerial : Nat
  delivered : List (Nat × ProbeContext)

/-- The actions, one per step of one thread, with what the environment returns. -/
inductive Action where
  | setup (epollRes eventRes : Option Int) (ctlOk : Bool)
  | storeRunning
  | loopTest
  | scan (now : Timeval)
  | waitReturn (evs : List Int)
  | drain
  | readData (now : Timeval) (errq data : Option Received)
  | checkTimeouts (now : Timeval)
  | sendCallbacks
  | cleanProbes
  | forceTimeouts
  | finalClean
  | closeWakeup
  | closeEpoll
  | startReturns
  | stopStore
  | stopWake
  | stopJoin
  | socket (t : Nat) (args : SendArgs) (res : SysResult Int)
  | transmit (t : Nat) (bindRes : SysResult Unit) (now : Timeval) (sendRes : SysResult Unit)
  | addSocket (t : Nat) (ctlOk : Bool)

namespace Engine

/-- The engine after its constructor and `start`'s spawn of the worker. -/
def initial (cfg : Config) : Engine where
  cfg := cfg
  probes := .empty
  epollFd := -1
  wakeupFd := -1
  epollOpen := false
  eventOpen := false
  running := false
  counter := 0
  registered := []
  openFds := []
  worker := .setup
  started := false
  stopper := .idle
  callers := fun _ => .idle
  aborted := false
  nextSerial := 0
  delivered := []

/-- A descriptor the kernel may return now: any one that is not open. -/
def Fresh (s : Engine) (fd : Int) : Prop := 0 ≤ fd ∧ fd ∉ s.openFds

instance (s : Engine) (fd : Int) : Decidable (s.Fresh fd) :=
  inferInstanceAs (Decidable (_ ∧ _))

/-- `close(fd)`; closing the last reference also drops it from the interest list. -/
def close (s : Engine) (fd : Int) : Engine :=
  { s with openFds := s.openFds.filter (· ≠ fd), registered := s.registered.filter (· ≠ fd) }

/-- `wakeup_event`: `write` one token to `wakeup_fd`; it counts only on the live eventfd. -/
def wakeupEvent (s : Engine) : Engine :=
  { s with counter := if s.eventOpen then s.counter + 1 else s.counter }

/-- `trigger_callback(callback_obj, probe)` on a `FATAL_ERROR` path of `send_probe`, then
`return SEND_PROBE_ERROR`. An unset `std::function` throws out of `send_probe` instead. -/
def fatal (s : Engine) (t serial : Nat) (p : ProbeContext) : Engine :=
  if s.cfg.callbackSet then
    { s with delivered := s.delivered ++ [(serial, p)],
             callers := Function.update s.callers t (.returned sendProbeError) }
  else { s with callers := Function.update s.callers t .threw }

/-- `setup_epoll` and the check after it: `epoll_create1`, `eventfd`, and the unchecked
`EPOLL_CTL_ADD` of the eventfd. On a failure `handler` fails the start promise and
returns. -/
def setupEpoll (s : Engine) (epollRes eventRes : Option Int) (ctlOk : Bool) :
    Option Engine :=
  if s.worker ≠ .setup then none else
  match epollRes with
  | none => some { s with epollFd := -1, worker := .failed }
  | some e =>
    if ¬s.Fresh e then none else
    match eventRes with
    | none => some { s with epollFd := e, epollOpen := true, openFds := e :: s.openFds,
                            wakeupFd := -1, worker := .failed }
    | some w =>
      if ¬(0 ≤ w ∧ w ∉ e :: s.openFds) then none else
      some { s with epollFd := e, epollOpen := true, wakeupFd := w, eventOpen := true,
                    openFds := w :: e :: s.openFds,
                    registered := if ctlOk then w :: s.registered else s.registered,
                    worker := .storeRunning }

/-- What `epoll_wait` may return: distinct registered descriptors, at most 32, the eventfd
only while its counter is nonzero. Sockets become readable when the network says so, and
an empty return (timeout, `EINTR`) is always possible. -/
def EventsReady (s : Engine) (evs : List Int) : Prop :=
  evs.Nodup ∧ evs.length ≤ 32 ∧ (∀ e ∈ evs, e ∈ s.registered) ∧
    (s.wakeupFd ∈ evs → 0 < s.counter)

instance (s : Engine) (evs : List Int) : Decidable (s.EventsReady evs) :=
  inferInstanceAs (Decidable (_ ∧ _ ∧ _ ∧ _))

/-- `send_callbacks`: one `trigger_callback` per terminal entry, under the lock. With the
callback unset the first call throws out of the worker and `std::terminate` ends the
process. -/
def sendCallbacks (s : Engine) : Engine :=
  if terminal s.probes ≠ [] ∧ ¬s.cfg.callbackSet then { s with aborted := true }
  else { s with delivered := s.delivered ++ (terminal s.probes).map (fun e => (e.2.serial, e.2.probe)),
                worker := .cleanProbes ((terminal s.probes).map (·.2.serial)) }

/-- `clean_probes`: `EPOLL_CTL_DEL`, `close` and erase for every terminal entry. -/
def cleanProbes (s : Engine) : Engine :=
  { s with probes := Icmpenguin.cleanProbes s.probes,
           registered := s.registered.filter (· ∉ (terminal s.probes).map Prod.fst),
           openFds := s.openFds.filter (· ∉ (terminal s.probes).map Prod.fst) }

/-- The top of `send_probe` up to `socket()`: build the record and open the socket; a
failure reports `FATAL_ERROR` at once. -/
def openSocket (s : Engine) (t : Nat) (a : SendArgs) (res : SysResult Int) : Option Engine :=
  if ¬(s.started ∧ (s.callers t).Free) then none else
  let p := makeProbe s.cfg a
  let s' := { s with nextSerial := s.nextSerial + 1 }
  match res with
  | .err _ text =>
    some (s'.fatal t s.nextSerial
      { p with errorMsg := "Error creating socket: " ++ text, status := .fatalError })
  | .ok fd =>
    if ¬s.Fresh fd then none else
    some { s' with openFds := fd :: s.openFds,
                   callers := Function.update s.callers t
                     (.opened fd s.nextSerial p a.size a.pattern) }

/-- `send_probe` after `bind`: `init_socket` (its failures are only logged), the packet,
the send timestamp and `sendto`, where `EMSGSIZE` is not an error. An exception from
`init_packet_data` leaves `send_probe` with the socket still open. -/
def sendPacket (s : Engine) (t : Nat) (fd : Int) (serial : Nat) (p : ProbeContext)
    (size : Int) (pattern : List UInt8) (now : Timeval) (sendRes : SysResult Unit) : Engine :=
  match initPacketData s.cfg.family s.cfg.ident p size pattern with
  | .error _ => { s with callers := Function.update s.callers t .threw }
  | .ok pd =>
    let p := { p with packetData := pd, tvSent := now }
    match sendRes with
    | .err e text =>
      if e ≠ emsgsize then
        (s.close fd).fatal t serial
          { p with errorMsg := "Error sending probe: " ++ text, status := .fatalError }
      else { s with callers := Function.update s.callers t (.sent fd serial p) }
    | .ok _ => { s with callers := Function.update s.callers t (.sent fd serial p) }

/-- The middle of `send_probe`: `bind` when a source address is set, then `sendPacket`. -/
def transmit (s : Engine) (t : Nat) (bindRes : SysResult Unit) (now : Timeval)
    (sendRes : SysResult Unit) : Option Engine :=
  match s.callers t with
  | .opened fd serial p size pattern =>
    some <|
      match bindRes with
      | .err _ text =>
        if s.cfg.sourceIp ≠ "" then
          (s.close fd).fatal t serial
            { p with errorMsg := "Error binding socket: " ++ text, status := .fatalError }
        else s.sendPacket t fd serial p size pattern now sendRes
      | .ok _ => s.sendPacket t fd serial p size pattern now sendRes
  | _ => none

/-- `add_socket` and `return SEND_PROBE_SUCCESS`: store the record, register the
descriptor for `EPOLLIN` (the result is not checked), wake the worker. -/
def addSocket (s : Engine) (t : Nat) (ctlOk : Bool) : Option Engine :=
  match s.callers t with
  | .sent fd serial p =>
    some { s.wakeupEvent with
      probes := s.probes.assign fd ⟨p, serial⟩
      registered :=
        if s.epollOpen ∧ ctlOk ∧ fd ∉ s.registered ∧ fd ≠ s.epollFd then fd :: s.registered
        else s.registered
      callers := Function.update s.callers t (.returned sendProbeSuccess) }
  | _ => none

/-! ### Fields the helpers leave alone -/

@[simp] theorem fatal_probes (s : Engine) (t n p) : (s.fatal t n p).probes = s.probes := by
  unfold fatal; split <;> rfl
@[simp] theorem fatal_worker (s : Engine) (t n p) : (s.fatal t n p).worker = s.worker := by
  unfold fatal; split <;> rfl
@[simp] theorem fatal_openFds (s : Engine) (t n p) : (s.fatal t n p).openFds = s.openFds := by
  unfold fatal; split <;> rfl
@[simp] theorem fatal_registered (s : Engine) (t n p) :
    (s.fatal t n p).registered = s.registered := by
  unfold fatal; split <;> rfl
@[simp] theorem fatal_epollFd (s : Engine) (t n p) : (s.fatal t n p).epollFd = s.epollFd := by
  unfold fatal; split <;> rfl
@[simp] theorem fatal_wakeupFd (s : Engine) (t n p) : (s.fatal t n p).wakeupFd = s.wakeupFd := by
  unfold fatal; split <;> rfl
@[simp] theorem fatal_epollOpen (s : Engine) (t n p) :
    (s.fatal t n p).epollOpen = s.epollOpen := by
  unfold fatal; split <;> rfl
@[simp] theorem fatal_eventOpen (s : Engine) (t n p) :
    (s.fatal t n p).eventOpen = s.eventOpen := by
  unfold fatal; split <;> rfl
@[simp] theorem fatal_running (s : Engine) (t n p) : (s.fatal t n p).running = s.running := by
  unfold fatal; split <;> rfl
@[simp] theorem fatal_stopper (s : Engine) (t n p) : (s.fatal t n p).stopper = s.stopper := by
  unfold fatal; split <;> rfl
@[simp] theorem fatal_counter (s : Engine) (t n p) : (s.fatal t n p).counter = s.counter := by
  unfold fatal; split <;> rfl
@[simp] theorem fatal_nextSerial (s : Engine) (t n p) :
    (s.fatal t n p).nextSerial = s.nextSerial := by
  unfold fatal; split <;> rfl
@[simp] theorem fatal_cfg (s : Engine) (t n p) : (s.fatal t n p).cfg = s.cfg := by
  unfold fatal; split <;> rfl
@[simp] theorem fatal_aborted (s : Engine) (t n p) : (s.fatal t n p).aborted = s.aborted := by
  unfold fatal; split <;> rfl

/-- The caller of a `FATAL_ERROR` path leaves `send_probe`, by return or by exception. -/
theorem fatal_callers (s : Engine) (t n p) :
    ∃ v, (v = .returned sendProbeError ∨ v = .threw) ∧
      (s.fatal t n p).callers = Function.update s.callers t v := by
  unfold fatal; split
  · exact ⟨_, .inl rfl, rfl⟩
  · exact ⟨_, .inr rfl, rfl⟩

/-- A `FATAL_ERROR` path logs its record exactly when the callback is set. -/
theorem fatal_delivered (s : Engine) (t n p) :
    (s.fatal t n p).delivered = s.delivered ∨ (s.fatal t n p).delivered = s.delivered ++ [(n, p)] := by
  unfold fatal; split
  · exact .inr rfl
  · exact .inl rfl

/-- One step. Nothing moves once the process has terminated. -/
def next (s : Engine) (a : Action) : Option Engine :=
  if s.aborted then none else
  match a with
  | .setup er wr ok => s.setupEpoll er wr ok
  | .storeRunning =>
    if s.worker = .storeRunning then some { s with running := true, worker := .loopTest }
    else none
  | .loopTest =>
    if s.worker = .loopTest then
      some { s with worker := if s.running then .scan else .forceTimeouts }
    else none
  | .scan now =>
    if s.worker = .scan then
      some { s with worker := .wait (getMinWaitTime s.probes now) now
                                (s.probes.entries.filter (fun e => e.2.Waiting)) }
    else none
  | .waitReturn evs =>
    match s.worker with
    | .wait .. => if s.EventsReady evs then some { s with worker := .dispatch evs } else none
    | _ => none
  | .drain =>
    match s.worker with
    | .dispatch (e :: evs) =>
      if e = s.wakeupFd then some { s with counter := 0, worker := .dispatch evs } else none
    | _ => none
  | .readData now errq data =>
    match s.worker with
    | .dispatch (e :: evs) =>
      if e = s.wakeupFd then none else
      some { s with
        probes := s.probes.modify e s.nextSerial
          (fun sl => { sl with probe := readData now errq data sl.probe })
        nextSerial := s.nextSerial + 1
        worker := .dispatch evs }
    | _ => none
  | .checkTimeouts now =>
    if s.worker = .dispatch [] then
      some { s with probes := checkTimeouts s.probes now, worker := .sendCallbacks }
    else none
  | .sendCallbacks => if s.worker = .sendCallbacks then some s.sendCallbacks else none
  | .cleanProbes =>
    match s.worker with
    | .cleanProbes _ => some { s.cleanProbes with worker := .loopTest }
    | _ => none
  | .forceTimeouts =>
    if s.worker = .forceTimeouts then
      some { s with probes := forceTimeouts s.probes, worker := .finalClean }
    else none
  | .finalClean =>
    if s.worker = .finalClean then some { s.cleanProbes with worker := .closeWakeup } else none
  | .closeWakeup =>
    if s.worker = .closeWakeup then
      some { s.close s.wakeupFd with eventOpen := false, worker := .closeEpoll }
    else none
  | .closeEpoll =>
    if s.worker = .closeEpoll then
      some { s.close s.epollFd with epollOpen := false, registered := [], worker := .done }
    else none
  | .startReturns => if s.started then none else some { s with started := true }
  | .stopStore =>
    if s.started ∧ s.stopper = .idle then some { s with running := false, stopper := .stored }
    else none
  | .stopWake => if s.stopper = .stored then some { s.wakeupEvent with stopper := .woke } else none
  | .stopJoin =>
    if s.stopper = .woke ∧ (s.worker = .done ∨ s.worker = .failed) then
      some { s with stopper := .joined }
    else none
  | .socket t args res => s.openSocket t args res
  | .transmit t b now r => s.transmit t b now r
  | .addSocket t ok => s.addSocket t ok

/-! ## What one step does

One inversion lemma per action: its guard and the state it leaves. Invariant proofs use
these and never unfold `next`. -/

section Inversion

variable {s t : Engine}

theorem next_setup {er wr : Option Int} {ok : Bool} (h : s.next (.setup er wr ok) = some t) :
    s.setupEpoll er wr ok = some t := by
  simp only [next, Option.ite_none_left_eq_some] at h
  exact h.2

theorem setupEpoll_cases {er wr : Option Int} {ok : Bool} (h : s.setupEpoll er wr ok = some t) :
    s.worker = .setup ∧
      (t = { s with epollFd := -1, worker := .failed } ∨
       (∃ e, s.Fresh e ∧ t = { s with epollFd := e, epollOpen := true, openFds := e :: s.openFds,
                                      wakeupFd := -1, worker := .failed }) ∨
       (∃ e w, s.Fresh e ∧ 0 ≤ w ∧ w ∉ e :: s.openFds ∧
          t = { s with epollFd := e, epollOpen := true, wakeupFd := w, eventOpen := true,
                       openFds := w :: e :: s.openFds,
                       registered := if ok then w :: s.registered else s.registered,
                       worker := .storeRunning })) := by
  simp only [setupEpoll, Option.ite_none_left_eq_some, not_not] at h
  obtain ⟨hw, h⟩ := h
  refine ⟨hw, ?_⟩
  rcases er with _ | e
  · exact .inl (Option.some.inj h).symm
  · simp only [Option.ite_none_left_eq_some, not_not] at h
    obtain ⟨he, h⟩ := h
    rcases wr with _ | w
    · exact .inr (.inl ⟨e, he, (Option.some.inj h).symm⟩)
    · simp only [Option.ite_none_left_eq_some, not_not, Option.some.injEq] at h
      exact .inr (.inr ⟨e, w, he, h.1.1, h.1.2, h.2.symm⟩)

theorem next_storeRunning (h : s.next .storeRunning = some t) :
    s.worker = .storeRunning ∧ t = { s with running := true, worker := .loopTest } := by
  simp only [next, Option.ite_none_left_eq_some, Option.ite_none_right_eq_some,
    Option.some.injEq] at h
  exact ⟨h.2.1, h.2.2.symm⟩

theorem next_loopTest (h : s.next .loopTest = some t) :
    s.worker = .loopTest ∧ t = { s with worker := if s.running then .scan else .forceTimeouts } := by
  simp only [next, Option.ite_none_left_eq_some, Option.ite_none_right_eq_some,
    Option.some.injEq] at h
  exact ⟨h.2.1, h.2.2.symm⟩

theorem next_scan {now : Timeval} (h : s.next (.scan now) = some t) :
    s.worker = .scan ∧ t = { s with worker := .wait (getMinWaitTime s.probes now) now
                                      (s.probes.entries.filter (fun e => e.2.Waiting)) } := by
  simp only [next, Option.ite_none_left_eq_some, Option.ite_none_right_eq_some,
    Option.some.injEq] at h
  exact ⟨h.2.1, h.2.2.symm⟩

theorem next_waitReturn {evs : List Int} (h : s.next (.waitReturn evs) = some t) :
    (∃ w t0 seen, s.worker = .wait w t0 seen) ∧ s.EventsReady evs ∧
      t = { s with worker := .dispatch evs } := by
  simp only [next, Option.ite_none_left_eq_some] at h
  obtain ⟨-, h⟩ := h
  split at h
  · simp only [Option.ite_none_right_eq_some, Option.some.injEq] at h
    exact ⟨⟨_, _, _, ‹_›⟩, h.1, h.2.symm⟩
  · cases h

theorem next_drain (h : s.next .drain = some t) :
    ∃ evs, s.worker = .dispatch (s.wakeupFd :: evs) ∧
      t = { s with counter := 0, worker := .dispatch evs } := by
  simp only [next, Option.ite_none_left_eq_some] at h
  obtain ⟨-, h⟩ := h
  split at h
  · simp only [Option.ite_none_right_eq_some, Option.some.injEq] at h
    obtain ⟨rfl, rfl⟩ := h
    exact ⟨_, ‹_›, rfl⟩
  · cases h

theorem next_readData {now : Timeval} {errq data : Option Received}
    (h : s.next (.readData now errq data) = some t) :
    ∃ e evs, s.worker = .dispatch (e :: evs) ∧ e ≠ s.wakeupFd ∧
      t = { s with probes := s.probes.modify e s.nextSerial
                     (fun sl => { sl with probe := readData now errq data sl.probe }),
                   nextSerial := s.nextSerial + 1, worker := .dispatch evs } := by
  simp only [next, Option.ite_none_left_eq_some] at h
  obtain ⟨-, h⟩ := h
  split at h
  · simp only [Option.ite_none_left_eq_some, Option.some.injEq] at h
    exact ⟨_, _, ‹_›, h.1, h.2.symm⟩
  · cases h

theorem next_checkTimeouts {now : Timeval} (h : s.next (.checkTimeouts now) = some t) :
    s.worker = .dispatch [] ∧
      t = { s with probes := checkTimeouts s.probes now, worker := .sendCallbacks } := by
  simp only [next, Option.ite_none_left_eq_some, Option.ite_none_right_eq_some,
    Option.some.injEq] at h
  exact ⟨h.2.1, h.2.2.symm⟩

theorem next_sendCallbacks (h : s.next .sendCallbacks = some t) :
    s.worker = .sendCallbacks ∧ t = s.sendCallbacks := by
  simp only [next, Option.ite_none_left_eq_some, Option.ite_none_right_eq_some,
    Option.some.injEq] at h
  exact ⟨h.2.1, h.2.2.symm⟩

theorem next_cleanProbes (h : s.next .cleanProbes = some t) :
    ∃ B, s.worker = .cleanProbes B ∧ t = { s.cleanProbes with worker := .loopTest } := by
  simp only [next, Option.ite_none_left_eq_some] at h
  obtain ⟨-, h⟩ := h
  split at h
  · exact ⟨_, ‹_›, (Option.some.inj h).symm⟩
  · cases h

theorem next_forceTimeouts (h : s.next .forceTimeouts = some t) :
    s.worker = .forceTimeouts ∧
      t = { s with probes := forceTimeouts s.probes, worker := .finalClean } := by
  simp only [next, Option.ite_none_left_eq_some, Option.ite_none_right_eq_some,
    Option.some.injEq] at h
  exact ⟨h.2.1, h.2.2.symm⟩

theorem next_finalClean (h : s.next .finalClean = some t) :
    s.worker = .finalClean ∧ t = { s.cleanProbes with worker := .closeWakeup } := by
  simp only [next, Option.ite_none_left_eq_some, Option.ite_none_right_eq_some,
    Option.some.injEq] at h
  exact ⟨h.2.1, h.2.2.symm⟩

theorem next_closeWakeup (h : s.next .closeWakeup = some t) :
    s.worker = .closeWakeup ∧
      t = { s.close s.wakeupFd with eventOpen := false, worker := .closeEpoll } := by
  simp only [next, Option.ite_none_left_eq_some, Option.ite_none_right_eq_some,
    Option.some.injEq] at h
  exact ⟨h.2.1, h.2.2.symm⟩

theorem next_closeEpoll (h : s.next .closeEpoll = some t) :
    s.worker = .closeEpoll ∧
      t = { s.close s.epollFd with epollOpen := false, registered := [], worker := .done } := by
  simp only [next, Option.ite_none_left_eq_some, Option.ite_none_right_eq_some,
    Option.some.injEq] at h
  exact ⟨h.2.1, h.2.2.symm⟩

theorem next_startReturns (h : s.next .startReturns = some t) :
    t = { s with started := true } := by
  simp only [next, Option.ite_none_left_eq_some, Option.some.injEq] at h
  exact h.2.2.symm

theorem next_stopStore (h : s.next .stopStore = some t) :
    s.started ∧ s.stopper = .idle ∧ t = { s with running := false, stopper := .stored } := by
  simp only [next, Option.ite_none_left_eq_some, Option.ite_none_right_eq_some,
    Option.some.injEq] at h
  exact ⟨h.2.1.1, h.2.1.2, h.2.2.symm⟩

theorem next_stopWake (h : s.next .stopWake = some t) :
    s.stopper = .stored ∧ t = { s.wakeupEvent with stopper := .woke } := by
  simp only [next, Option.ite_none_left_eq_some, Option.ite_none_right_eq_some,
    Option.some.injEq] at h
  exact ⟨h.2.1, h.2.2.symm⟩

theorem next_stopJoin (h : s.next .stopJoin = some t) :
    s.stopper = .woke ∧ (s.worker = .done ∨ s.worker = .failed) ∧
      t = { s with stopper := .joined } := by
  simp only [next, Option.ite_none_left_eq_some, Option.ite_none_right_eq_some,
    Option.some.injEq] at h
  exact ⟨h.2.1.1, h.2.1.2, h.2.2.symm⟩

theorem next_socket {c : Nat} {a : SendArgs} {res : SysResult Int}
    (h : s.next (.socket c a res) = some t) :
    s.started ∧ (s.callers c).Free ∧
      ((∃ errno text, res = .err errno text ∧
          t = { s with nextSerial := s.nextSerial + 1 }.fatal c s.nextSerial
            { makeProbe s.cfg a with errorMsg := "Error creating socket: " ++ text,
                                     status := .fatalError }) ∨
       (∃ fd, res = .ok fd ∧ s.Fresh fd ∧
          t = { s with nextSerial := s.nextSerial + 1, openFds := fd :: s.openFds,
                       callers := Function.update s.callers c
                         (.opened fd s.nextSerial (makeProbe s.cfg a) a.size a.pattern) })) := by
  simp only [next, openSocket, Option.ite_none_left_eq_some, not_not] at h
  obtain ⟨-, ⟨hs, hf⟩, h⟩ := h
  refine ⟨hs, hf, ?_⟩
  rcases res with fd | ⟨errno, text⟩
  · simp only [Option.ite_none_left_eq_some, not_not, Option.some.injEq] at h
    exact .inr ⟨fd, rfl, h.1, h.2.symm⟩
  · exact .inl ⟨errno, text, rfl, (Option.some.inj h).symm⟩

theorem sendPacket_cases {c : Nat} {fd : Int} {n : Nat} {p : ProbeContext} {size : Int}
    {pat : List UInt8} {now : Timeval} {r : SysResult Unit} :
    s.sendPacket c fd n p size pat now r = { s with callers := Function.update s.callers c .threw } ∨
    (∃ q, q.status = .fatalError ∧ s.sendPacket c fd n p size pat now r = (s.close fd).fatal c n q) ∨
    (∃ q, q.status = p.status ∧ s.sendPacket c fd n p size pat now r =
      { s with callers := Function.update s.callers c (.sent fd n q) }) := by
  unfold sendPacket
  split
  · exact .inl rfl
  · split
    · split_ifs
      · exact .inr (.inl ⟨_, rfl, rfl⟩)
      · exact .inr (.inr ⟨_, by rfl, rfl⟩)
    · exact .inr (.inr ⟨_, by rfl, rfl⟩)

theorem next_transmit {c : Nat} {b r : SysResult Unit} {now : Timeval}
    (h : s.next (.transmit c b now r) = some t) :
    ∃ fd n p size pat, s.callers c = .opened fd n p size pat ∧
      (t = { s with callers := Function.update s.callers c .threw } ∨
       (∃ q, q.status = .fatalError ∧ t = (s.close fd).fatal c n q) ∨
       (∃ q, q.status = p.status ∧
          t = { s with callers := Function.update s.callers c (.sent fd n q) })) := by
  simp only [next, transmit, Option.ite_none_left_eq_some] at h
  obtain ⟨-, h⟩ := h
  split at h
  · refine ⟨_, _, _, _, _, ‹_›, ?_⟩
    obtain rfl := (Option.some.inj h).symm
    split
    · split_ifs
      · exact .inr (.inl ⟨_, rfl, rfl⟩)
      · exact sendPacket_cases
    · exact sendPacket_cases
  · cases h

theorem next_addSocket {c : Nat} {ok : Bool} (h : s.next (.addSocket c ok) = some t) :
    ∃ fd n p, s.callers c = .sent fd n p ∧
      t = { s.wakeupEvent with
        probes := s.probes.assign fd ⟨p, n⟩
        registered :=
          if s.epollOpen ∧ ok ∧ fd ∉ s.registered ∧ fd ≠ s.epollFd then fd :: s.registered
          else s.registered
        callers := Function.update s.callers c (.returned sendProbeSuccess) } := by
  simp only [next, addSocket, Option.ite_none_left_eq_some] at h
  obtain ⟨-, h⟩ := h
  split at h
  · exact ⟨_, _, _, ‹_›, (Option.some.inj h).symm⟩
  · cases h

end Inversion

/-- Run a list of actions; `none` as soon as one is not enabled. -/
def run (s : Engine) : List Action → Option Engine
  | [] => some s
  | a :: as => (s.next a).bind (run · as)

/-- One step of some thread. -/
def Step (s t : Engine) : Prop := ∃ a, s.next a = some t

/-- Some run leads from `s` to `t`. -/
abbrev Reaches : Engine → Engine → Prop := Relation.ReflTransGen Step

end Engine

/-- The states some run of some engine reaches from its construction. -/
inductive Reachable : Engine → Prop
  | initial (cfg : Config) : Reachable (Engine.initial cfg)
  | step {s t : Engine} (a : Action) : Reachable s → s.next a = some t → Reachable t

theorem Reachable.reaches {s t : Engine} (hs : Reachable s) (h : s.Reaches t) :
    Reachable t := by
  induction h with
  | refl => exact hs
  | tail _ hst ih => obtain ⟨a, ha⟩ := hst; exact .step a ih ha

theorem Engine.reaches_of_run {s t : Engine} :
    ∀ {as : List Action}, s.run as = some t → s.Reaches t
  | [], h => by cases h; exact .refl
  | a :: as, h => by
    obtain ⟨u, hu, hr⟩ := Option.bind_eq_some.1 h
    exact .head ⟨a, hu⟩ (reaches_of_run hr)

theorem Reachable.run {cfg : Config} {as : List Action} {t : Engine}
    (h : (Engine.initial cfg).run as = some t) : Reachable t :=
  (Reachable.initial cfg).reaches (Engine.reaches_of_run h)

/-! ## A concrete engine

An IPv4 engine with identifier 7 and the run that starts its worker (epoll instance 3,
eventfd 4) and puts one echo probe in flight on socket 5, sent at time 0. The concrete
runs of the later modules start with it. -/

/-- An engine for 192.0.2.1 with no source address. -/
def demoCfg : Config :=
  { family := afInet, remoteIp := "192.0.2.1", sourceIp := "", ident := 7, callbackSet := true }

/-- An ICMP echo with sequence 1, 8 bytes and no pattern, timing out after 1000 ms. -/
def echoArgs : SendArgs :=
  { id := 1, probeType := .icmp, port := 0, sequence := 1, ttl := 64, timeout := 1000,
    size := 8, detectMtu := false, pattern := [], timeout_range := by decide,
    size_range := by decide, pattern_range := by decide }

/-- `start` with a worker that sets up, then one `send_probe` on thread 0 that succeeds. -/
def inFlight : List Action :=
  [.setup (some 3) (some 4) true, .storeRunning, .startReturns, .socket 0 echoArgs (.ok 5),
   .transmit 0 (.ok ()) {} (.ok ()), .addSocket 0 true]

/-- The slot that probe takes: serial 0, and the echo header `init_packet_data` wrote
(type 8, identifier 7, sequence 1). -/
def echoSlot : Slot :=
  ⟨{ makeProbe demoCfg echoArgs with packetData := [8, 0, 0, 0, 0, 7, 0, 1] }, 0⟩

end Icmpenguin
