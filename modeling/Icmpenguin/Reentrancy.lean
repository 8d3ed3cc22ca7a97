import Icmpenguin.Delivery

/-!
# Icmpenguin — callbacks that call back into the engine

`probes_mutex` is a `std::mutex`: a thread that locks it while holding it never gets it.
The callback runs in two places. On the worker, `send_callbacks` takes the lock and calls
it once per terminal entry. On the caller's own thread, a `FATAL_ERROR` path of
`send_probe` calls it with no lock held. A callback that calls `get_queue_size`, or a
`send_probe` that gets as far as `add_socket`, takes the lock.

One thread's run is a list of lock operations in program order, where `callback` runs the
callback's own calls in place, so a callback that calls `send_probe` on a failing path
nests a callback inside itself. `runLocks` follows it with fuel, one unit an operation.
What the three delivery situations do:

* on the caller's thread, no callback ever relocks, whatever it calls
  (`runLocks_paired`: every lock the callback's calls take is released before the next);
* on the worker, a callback that calls nothing never relocks (`runLocks_quiet`);
* on the worker, a callback whose first call takes the lock relocks as soon as one
  terminal entry is delivered (`runLocks_sendCallbacks_relocks`).
-/

namespace Icmpenguin

/-- What one thread does to `probes_mutex`, in program order. -/
inductive LockOp where
  | lock
  | unlock
  | callback
  deriving DecidableEq, Repr

/-- The public operations a callback may call: `get_queue_size`, a `send_probe` that
reaches `add_socket`, and a `send_probe` that fails at `socket()`, `bind()` or `sendto()`
and reports `FATAL_ERROR` on the calling thread. -/
inductive ApiCall where
  | getQueueSize
  | sendProbeAccepted
  | sendProbeFatal
  deriving DecidableEq, Repr

/-- The lock operations of one call: `get_queue_size` and `add_socket` hold a
`lock_guard` for their whole body; the failing paths of `send_probe` take no lock before
`trigger_callback`. -/
def ApiCall.lockOps : ApiCall → List LockOp
  | .getQueueSize => [.lock, .unlock]
  | .sendProbeAccepted => [.lock, .unlock]
  | .sendProbeFatal => [.callback]

/-- How one thread's run ends. -/
inductive LockOutcome where
  | finished
  | selfDeadlock
  | outOfFuel
  deriving DecidableEq, Repr

/-- One thread running `ops`, `held` telling whether it holds `probes_mutex`, where every
callback makes the calls `body`. -/
def runLocks (body : List ApiCall) : Nat → Bool → List LockOp → LockOutcome
  | _, _, [] => .finished
  | 0, _, _ :: _ => .outOfFuel
  | fuel + 1, held, .lock :: ops => if held then .selfDeadlock else runLocks body fuel true ops
  | fuel + 1, _, .unlock :: ops => runLocks body fuel false ops
  | fuel + 1, held, .callback :: ops =>
    runLocks body fuel held (body.flatMap ApiCall.lockOps ++ ops)

/-- `send_callbacks`: the `lock_guard`, one `trigger_callback` per terminal entry of the
table (the entries the engine's `sendCallbacks` step logs), and the release. -/
def sendCallbacksOps (t : ProbeTable) : List LockOp :=
  .lock :: List.replicate (terminal t).length .callback ++ [.unlock]

/-- A `FATAL_ERROR` path of `send_probe` called from outside any callback: the callback
on the caller's thread, no lock held. -/
def fatalErrorOps : List LockOp := ApiCall.sendProbeFatal.lockOps

/-- Operation lists in which each `lock` is released right after it is taken. -/
inductive Paired : List LockOp → Prop
  | nil : Paired []
  | lockUnlock {ops : List LockOp} : Paired ops → Paired (.lock :: .unlock :: ops)
  | callback {ops : List LockOp} : Paired ops → Paired (.callback :: ops)

theorem Paired.append {xs ys : List LockOp} (hx : Paired xs) (hy : Paired ys) :
    Paired (xs ++ ys) := by
  induction hx with
  | nil => exact hy
  | lockUnlock _ ih => exact .lockUnlock ih
  | callback _ ih => exact .callback ih

theorem ApiCall.paired_lockOps : ∀ a : ApiCall, Paired a.lockOps
  | .getQueueSize => .lockUnlock .nil
  | .sendProbeAccepted => .lockUnlock .nil
  | .sendProbeFatal => .callback .nil

theorem paired_flatMap_lockOps (body : List ApiCall) : Paired (body.flatMap ApiCall.lockOps) := by
  induction body with
  | nil => exact .nil
  | cons a body ih => exact a.paired_lockOps.append ih

/-- A thread that holds no lock and runs paired operations never relocks, and neither does
one about to release the lock before them. -/
theorem runLocks_paired (body : List ApiCall) (fuel : Nat) {ops : List LockOp}
    (h : Paired ops) : runLocks body fuel false ops ≠ .selfDeadlock ∧
      runLocks body fuel true (.unlock :: ops) ≠ .selfDeadlock := by
  induction fuel generalizing ops with
  | zero => cases h <;> simp [runLocks]
  | succ fuel ih =>
    refine ⟨?_, by simpa only [runLocks] using (ih h).1⟩
    cases h with
    | nil => simp [runLocks]
    | lockUnlock h => simpa only [runLocks, if_false] using (ih h).2
    | callback h => simpa only [runLocks] using (ih ((paired_flatMap_lockOps body).append h)).1

/-- A callback that calls nothing, run any number of times under the lock, never
relocks. -/
theorem runLocks_quiet (n fuel : Nat) :
    runLocks [] fuel true (List.replicate n .callback ++ [.unlock]) ≠ .selfDeadlock := by
  induction n generalizing fuel with
  | zero => cases fuel <;> simp [runLocks]
  | succ n ih =>
    cases fuel with
    | zero => simp [runLocks]
    | succ fuel => simpa [runLocks, List.replicate_succ] using ih fuel

/-- Under the lock of `send_callbacks`, a callback whose first call takes the lock
relocks at the first terminal entry. -/
theorem runLocks_sendCallbacks_relocks {a : ApiCall} (ha : a ≠ .sendProbeFatal)
    (rest : List ApiCall) {t : ProbeTable} (ht : terminal t ≠ []) {fuel : Nat} (hf : 3 ≤ fuel) :
    runLocks (a :: rest) fuel false (sendCallbacksOps t) = .selfDeadlock := by
  obtain ⟨e, es, he⟩ := List.exists_cons_of_ne_nil ht
  obtain ⟨fuel, rfl⟩ := Nat.exists_eq_add_of_le' hf
  simp only [sendCallbacksOps, he, List.length_cons, List.replicate_succ, List.cons_append,
    runLocks, if_false, List.flatMap_cons]
  cases a <;> simp_all [ApiCall.lockOps, runLocks]

/-- The engine after thread 0's echo was read with no datagram: the worker is at
`send_callbacks` with one terminal entry. -/
def timedOutState : Engine :=
  ((Engine.initial demoCfg).run (readable ++ [.readData {} none none, .checkTimeouts {}])).get
    (by decide)

/-- A callback that calls `get_queue_size`, delivered by the worker from a reachable
engine, relocks `probes_mutex` on the worker. -/
theorem queue_size_callback_relocks :
    Reachable timedOutState ∧ timedOutState.worker = .sendCallbacks ∧
    runLocks [.getQueueSize] 3 false (sendCallbacksOps timedOutState.probes) = .selfDeadlock :=
  ⟨Reachable.run (Option.some_get _).symm, by decide, by decide⟩

/-- Where a re-entrant callback relocks: delivered on the caller's thread by a
`FATAL_ERROR` path of `send_probe`, never, whatever it calls; delivered on the worker by
`send_callbacks`, never if it calls nothing, and always once a terminal entry is delivered
if its first call is `get_queue_size` or a `send_probe` that reaches `add_socket`. -/
theorem callback_relock_sites :
    (∀ body fuel, runLocks body fuel false fatalErrorOps ≠ .selfDeadlock) ∧
    (∀ t fuel, runLocks [] fuel false (sendCallbacksOps t) ≠ .selfDeadlock) ∧
    (∀ a rest t fuel, a ≠ .sendProbeFatal → terminal t ≠ [] → 3 ≤ fuel →
      runLocks (a :: rest) fuel false (sendCallbacksOps t) = .selfDeadlock) := by
  refine ⟨fun body fuel => (runLocks_paired body fuel (.callback .nil)).1, fun t fuel => ?_,
    fun a rest _ _ ha ht hf => runLocks_sendCallbacks_relocks ha rest ht hf⟩
  cases fuel with
  | zero => simp [sendCallbacksOps, runLocks]
  | succ fuel => simpa [sendCallbacksOps, runLocks] using runLocks_quiet _ fuel

end Icmpenguin
