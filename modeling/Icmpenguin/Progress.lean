import Icmpenguin.Status
import Icmpenguin.Wakeup

/-!
# Icmpenguin — the worker alone delivers every record

While `running` is set the worker needs no other thread to finish what is in its table:
from any place in its loop, some run of the worker's own steps (with results the kernel
and the clock may give) passes every record in the table to the callback. The run goes
to the end of the iteration, comes round to an `epoll_wait` that returns nothing, and
calls `check_timeouts` at a clock reading past every deadline, so that `send_callbacks`
finds every record terminal.

The run is built in phases, each a `WorkerLeads` step: worker steps that keep every
serial of the table in the table or in the log, composed by `WorkerLeads.trans`.

The same phases bring the worker round to its loop test; once `running` is cleared there,
it runs its exit path to the end, and `stop` joins it. In a run whose `setup_epoll`
registered the eventfd, `stop`'s token is what ends the worker's wait: `stop` returns by a
run in which every `epoll_wait` reports the eventfd, with no timeout or signal needed. The
callback is one step here; a callback that re-enters the manager deadlocks on
`probes_mutex` instead (the `Reentrancy` module).
-/

namespace Icmpenguin

open Engine

/-- The actions of the worker thread. -/
def Action.ByWorker : Action → Prop
  | .setup .. | .storeRunning | .loopTest | .scan _ | .waitReturn _ | .drain | .readData ..
  | .checkTimeouts _ | .sendCallbacks | .cleanProbes | .forceTimeouts | .finalClean
  | .closeWakeup | .closeEpoll => True
  | _ => False

/-- The worker's steps other than the return of `epoll_wait`: those that do not wait for
the kernel. -/
def Action.Busy : Action → Prop
  | .waitReturn _ => False
  | a => a.ByWorker

/-- A step of the worker that does not wait, or a return of `epoll_wait` that reports the
eventfd `w` alone. -/
def Action.Woken (w : Int) (a : Action) : Prop := a.Busy ∨ a = .waitReturn [w]

theorem Engine.run_append (s : Engine) (as bs : List Action) :
    s.run (as ++ bs) = (s.run as).bind (·.run bs) := by
  induction as generalizing s with
  | nil => rfl
  | cons a as ih =>
    show (s.next a).bind (·.run (as ++ bs)) = ((s.next a).bind (·.run as)).bind (·.run bs)
    simp only [ih, Option.bind_assoc]

/-! ## The worker's place is never `checkTimeouts` -/

/-- `check_timeouts` runs as the step from `dispatch []`; no step leaves the worker at the
unused place `checkTimeouts`. -/
theorem worker_ne_checkTimeouts_next {s t : Engine} {a : Action}
    (h : s.worker ≠ .checkTimeouts) (hn : s.next a = some t) : t.worker ≠ .checkTimeouts := by
  cases a with
  | setup er wr ok =>
    obtain ⟨-, rfl | ⟨e, -, rfl⟩ | ⟨e, w, -, -, -, rfl⟩⟩ := setupEpoll_cases (next_setup hn) <;>
      exact WorkerPc.noConfusion
  | loopTest =>
    obtain ⟨-, rfl⟩ := next_loopTest hn
    dsimp only; split <;> exact WorkerPc.noConfusion
  | storeRunning => obtain ⟨-, rfl⟩ := next_storeRunning hn; exact WorkerPc.noConfusion
  | scan now => obtain ⟨-, rfl⟩ := next_scan hn; exact WorkerPc.noConfusion
  | waitReturn evs => obtain ⟨-, -, rfl⟩ := next_waitReturn hn; exact WorkerPc.noConfusion
  | drain => obtain ⟨_, -, rfl⟩ := next_drain hn; exact WorkerPc.noConfusion
  | readData now errq data => obtain ⟨_, _, -, -, rfl⟩ := next_readData hn; exact WorkerPc.noConfusion
  | checkTimeouts now => obtain ⟨-, rfl⟩ := next_checkTimeouts hn; exact WorkerPc.noConfusion
  | sendCallbacks =>
    obtain ⟨-, rfl⟩ := next_sendCallbacks hn
    unfold Engine.sendCallbacks; split
    exacts [h, WorkerPc.noConfusion]
  | cleanProbes => obtain ⟨_, -, rfl⟩ := next_cleanProbes hn; exact WorkerPc.noConfusion
  | forceTimeouts => obtain ⟨-, rfl⟩ := next_forceTimeouts hn; exact WorkerPc.noConfusion
  | finalClean => obtain ⟨-, rfl⟩ := next_finalClean hn; exact WorkerPc.noConfusion
  | closeWakeup => obtain ⟨-, rfl⟩ := next_closeWakeup hn; exact WorkerPc.noConfusion
  | closeEpoll => obtain ⟨-, rfl⟩ := next_closeEpoll hn; exact WorkerPc.noConfusion
  | startReturns => obtain rfl := next_startReturns hn; exact h
  | stopStore => obtain ⟨-, -, rfl⟩ := next_stopStore hn; exact h
  | stopWake => obtain ⟨-, rfl⟩ := next_stopWake hn; exact h
  | stopJoin => obtain ⟨-, -, rfl⟩ := next_stopJoin hn; exact h
  | socket c args res =>
    obtain ⟨-, -, ⟨_, _, -, rfl⟩ | ⟨fd, -, -, rfl⟩⟩ := next_socket hn
    exacts [by rw [fatal_worker]; exact h, h]
  | transmit c b now r =>
    obtain ⟨fd, n, p, size, pat, -, rfl | ⟨q, -, rfl⟩ | ⟨q, -, rfl⟩⟩ := next_transmit hn
    exacts [h, by rw [fatal_worker]; exact h, h]
  | addSocket c ok => obtain ⟨fd, n, p, -, rfl⟩ := next_addSocket hn; exact h

theorem Reachable.worker_ne_checkTimeouts {s : Engine} (hs : Reachable s) :
    s.worker ≠ .checkTimeouts := by
  induction hs with
  | initial cfg => exact WorkerPc.noConfusion
  | step _ _ hn ih => exact worker_ne_checkTimeouts_next ih hn

/-! ## Runs of the worker -/

/-- `t` follows `s` by steps `P` allows, which keep the configuration, `running`, the place
of the thread in `stop` and the process alive, and keep every serial of `s`'s table in the
table or the log. -/
structure WorkerLeads (P : Action → Prop) (s t : Engine) : Prop where
  run : ∃ as, (∀ a ∈ as, P a) ∧ s.run as = some t
  cfg : t.cfg = s.cfg
  running : t.running = s.running
  aborted : t.aborted = s.aborted
  stopper : t.stopper = s.stopper
  keeps : ∀ n, n ∈ s.probes.serials ∨ n ∈ s.delivered.map Prod.fst →
    n ∈ t.probes.serials ∨ n ∈ t.delivered.map Prod.fst

variable {s t u : Engine} {P Q : Action → Prop}

theorem WorkerLeads.refl (P : Action → Prop) (s : Engine) : WorkerLeads P s s :=
  ⟨⟨[], by simp, rfl⟩, rfl, rfl, rfl, rfl, fun _ => id⟩

theorem WorkerLeads.trans (h₁ : WorkerLeads P s t) (h₂ : WorkerLeads P t u) :
    WorkerLeads P s u := by
  obtain ⟨as, has, hr⟩ := h₁.run
  obtain ⟨bs, hbs, hr'⟩ := h₂.run
  refine ⟨⟨as ++ bs, ?_, by rw [run_append, hr]; exact hr'⟩, h₂.cfg.trans h₁.cfg,
    h₂.running.trans h₁.running, h₂.aborted.trans h₁.aborted, h₂.stopper.trans h₁.stopper,
    fun n hn => h₂.keeps n (h₁.keeps n hn)⟩
  intro a ha
  rcases List.mem_append.1 ha with ha | ha
  exacts [has a ha, hbs a ha]

theorem WorkerLeads.mono (h : ∀ a, P a → Q a) (hl : WorkerLeads P s t) : WorkerLeads Q s t :=
  have ⟨as, has, hr⟩ := hl.run
  ⟨⟨as, fun a ha => h a (has a ha), hr⟩, hl.cfg, hl.running, hl.aborted, hl.stopper, hl.keeps⟩

theorem WorkerLeads.reachable (hs : Reachable s) (h : WorkerLeads P s t) : Reachable t := by
  obtain ⟨as, -, hr⟩ := h.run
  exact hs.reaches (reaches_of_run hr)

/-- One step that leaves the table's serials and the log alone. -/
theorem WorkerLeads.step {a : Action} (hb : P a) (hn : s.next a = some t)
    (hc : t.cfg = s.cfg) (hr : t.running = s.running) (ha : t.aborted = s.aborted)
    (hst : t.stopper = s.stopper)
    (hk : ∀ n, n ∈ s.probes.serials ∨ n ∈ s.delivered.map Prod.fst →
      n ∈ t.probes.serials ∨ n ∈ t.delivered.map Prod.fst) : WorkerLeads P s t :=
  ⟨⟨[a], by simpa using hb, by simp [Engine.run, hn]⟩, hc, hr, ha, hst, hk⟩

/-! ## One phase at a time -/

/-- `epoll_wait` may return no descriptor (its timeout, or `EINTR`). -/
theorem WorkerLeads.wait {w : Int} {t0 : Timeval} {seen : List (Int × Slot)}
    (ha : s.aborted = false) (hw : s.worker = .wait w t0 seen) :
    WorkerLeads Action.ByWorker s { s with worker := .dispatch [] } :=
  .step (a := .waitReturn []) trivial (by simp [next, ha, hw, EventsReady]) rfl rfl rfl rfl
    fun _ => id

/-- `epoll_wait` reports the registered eventfd, whose token is pending, and the worker
drains it. -/
theorem WorkerLeads.wakeup {w : Int} {t0 : Timeval} {seen : List (Int × Slot)}
    (ha : s.aborted = false) (hw : s.worker = .wait w t0 seen) (hc : s.counter ≠ 0)
    (hreg : s.wakeupFd ∈ s.registered) :
    WorkerLeads (Action.Woken s.wakeupFd) s { s with counter := 0, worker := .dispatch [] } := by
  have h : WorkerLeads (Action.Woken s.wakeupFd) s { s with worker := .dispatch [s.wakeupFd] } :=
    .step (a := .waitReturn [s.wakeupFd]) (.inr rfl)
      (by simp [next, ha, hw, EventsReady, hreg, Nat.pos_of_ne_zero hc]) rfl rfl rfl rfl
      fun _ => id
  exact h.trans (.step (a := .drain) (.inl trivial) (by simp [next, ha]) rfl rfl rfl rfl
    fun _ => id)

/-- `get_min_wait_time` and an empty `epoll_wait`. -/
theorem WorkerLeads.scan (ha : s.aborted = false) (hw : s.worker = .scan) :
    WorkerLeads Action.ByWorker s { s with worker := .dispatch [] } := by
  have h : WorkerLeads Action.ByWorker s { s with
      worker := .wait (getMinWaitTime s.probes {}) {} (s.probes.entries.filter (·.2.Waiting)) } :=
    .step (a := .scan {}) trivial (by simp [next, ha, hw]) rfl rfl rfl rfl fun _ => id
  exact h.trans (.wait ha rfl)

/-- Around the loop once more while `running` is set: the test, the scan and an empty
`epoll_wait`. -/
theorem WorkerLeads.loopTest (ha : s.aborted = false) (hw : s.worker = .loopTest)
    (hr : s.running = true) : WorkerLeads Action.ByWorker s { s with worker := .dispatch [] } := by
  have h : WorkerLeads Action.ByWorker s { s with worker := .scan } :=
    .step (a := .loopTest) trivial (by simp [next, ha, hw, hr]) rfl rfl rfl rfl fun _ => id
  exact h.trans (.scan ha rfl)

/-- The descriptors `epoll_wait` returned are handled one by one: the eventfd is drained,
a socket goes through `read_data` (here with both receives failing). -/
theorem WorkerLeads.dispatch {evs : List Int} (hs : Reachable s) (ha : s.aborted = false)
    (hw : s.worker = .dispatch evs) : ∃ t, WorkerLeads Action.Busy s t ∧ t.worker = .dispatch [] := by
  induction evs generalizing s with
  | nil => exact ⟨s, .refl _ s, hw⟩
  | cons e evs ih =>
    by_cases he : e = s.wakeupFd
    · have hn : s.next .drain = some { s with counter := 0, worker := .dispatch evs } := by
        simp [next, ha, hw, he]
      obtain ⟨t, ht, htw⟩ := ih (Reachable.step _ hs hn) ha rfl
      exact ⟨t, (WorkerLeads.step (a := .drain) trivial hn rfl rfl rfl rfl fun _ => id).trans ht,
        htw⟩
    · have hk := (hs.phase_fd.2.dispatch_keys _ hw).2 e (List.mem_cons_self _ _) he
      have hn : s.next (.readData {} none none) = some { s with
          probes := s.probes.update e fun sl => { sl with probe := readData {} none none sl.probe }
          nextSerial := s.nextSerial + 1, worker := .dispatch evs } := by
        simp [next, ha, hw, he, ProbeTable.modify_eq_update hk]
      have hser : (s.probes.update e fun sl =>
          { sl with probe := readData {} none none sl.probe }).serials = s.probes.serials :=
        ProbeTable.serials_update fun _ => rfl
      obtain ⟨t, ht, htw⟩ := ih (Reachable.step _ hs hn) ha rfl
      exact ⟨t, (WorkerLeads.step (a := .readData {} none none) trivial hn rfl rfl rfl rfl
        fun n hn => by simpa only [hser] using hn).trans ht, htw⟩

/-- `clean_probes` erases only records its iteration's `send_callbacks` logged. -/
theorem WorkerLeads.cleanProbes (hs : Reachable s) (ha : s.aborted = false) {B : List Nat}
    (hw : s.worker = .cleanProbes B) :
    WorkerLeads Action.Busy s { s.cleanProbes with worker := .loopTest } := by
  refine .step (a := .cleanProbes) trivial (by simp [next, ha, hw]) rfl rfl rfl rfl fun n hn => ?_
  rcases hn with hn | hn
  · obtain ⟨fd, sl, he, rfl⟩ := ProbeTable.mem_serials.1 hn
    by_cases hsl : sl.Waiting
    · exact .inl (ProbeTable.serial_mem_serials (mem_cleanProbes.2 ⟨he, hsl⟩))
    · exact .inr (List.mem_map_of_mem _ (hs.serialInv.batch_delivered B hw fd sl he hsl))
  · exact .inr hn

/-- `send_callbacks` with the callback set logs the terminal records. -/
theorem WorkerLeads.sendCallbacks (ha : s.aborted = false) (hcb : s.cfg.callbackSet = true)
    (hw : s.worker = .sendCallbacks) :
    WorkerLeads Action.Busy s s.sendCallbacks ∧ s.sendCallbacks.worker = .cleanProbes
      ((terminal s.probes).map (·.2.serial)) := by
  have hsc : s.sendCallbacks = { s with
      delivered := s.delivered ++ (terminal s.probes).map (fun e => (e.2.serial, e.2.probe)),
      worker := .cleanProbes ((terminal s.probes).map (·.2.serial)) } := by
    simp [Engine.sendCallbacks, hcb]
  refine ⟨.step (a := .sendCallbacks) trivial (by simp [next, ha, hw]) (by rw [hsc])
    (by rw [hsc]) (by rw [hsc]) (by rw [hsc]) fun n hn => ?_, by rw [hsc]⟩
  rw [hsc]
  rcases hn with hn | hn
  · exact .inl hn
  · exact .inr (by simp only [List.map_append, List.mem_append]; exact .inl hn)

/-- With `stop`'s token pending at the wait and the eventfd registered, the worker comes
round to its loop test: its `epoll_wait` reports the eventfd alone, and the rest of the
iteration runs. -/
theorem WorkerLeads.toLoopTest (hs : Reachable s) (ha : s.aborted = false)
    (hcb : s.cfg.callbackSet = true) (hl : s.worker.InLoop) (htok : s.worker.Waits → s.counter ≠ 0)
    (hreg : s.wakeupFd ∈ s.registered) :
    ∃ t, WorkerLeads (Action.Woken s.wakeupFd) s t ∧ t.worker = .loopTest := by
  have busy : ∀ a, Action.Busy a → a.Woken s.wakeupFd := fun _ => .inl
  have fromCallbacks : ∀ {u : Engine}, Reachable u → u.aborted = false →
      u.cfg.callbackSet = true → u.worker = .sendCallbacks →
      ∃ t, WorkerLeads Action.Busy u t ∧ t.worker = .loopTest := fun hu hua hucb huw =>
    have h := WorkerLeads.sendCallbacks hua hucb huw
    ⟨_, h.1.trans (.cleanProbes (h.1.reachable hu) (h.1.aborted.trans hua) h.2), rfl⟩
  have fromDispatch : ∀ {u : Engine}, Reachable u → u.aborted = false →
      u.cfg.callbackSet = true → u.worker = .dispatch [] →
      ∃ t, WorkerLeads Action.Busy u t ∧ t.worker = .loopTest := by
    intro u hu hua hucb huw
    have hser : (checkTimeouts u.probes {}).serials = u.probes.serials :=
      ProbeTable.serials_mapSlots (checkTimeout_serial {})
    have h : WorkerLeads Action.Busy u
        { u with probes := checkTimeouts u.probes {}, worker := .sendCallbacks } :=
      .step (a := .checkTimeouts {}) trivial (by simp [next, hua, huw]) rfl rfl rfl rfl
        fun n hn => by simpa only [hser] using hn
    obtain ⟨t, ht, htw⟩ := fromCallbacks (h.reachable hu) hua hucb rfl
    exact ⟨t, h.trans ht, htw⟩
  have viaDispatch : ∀ {u : Engine}, WorkerLeads (Action.Woken s.wakeupFd) s u →
      u.worker = .dispatch [] → ∃ t, WorkerLeads (Action.Woken s.wakeupFd) s t ∧
        t.worker = .loopTest := fun h hw =>
    have ⟨t, ht, htw⟩ := fromDispatch (h.reachable hs) (h.aborted.trans ha) (h.cfg ▸ hcb) hw
    ⟨t, h.trans (ht.mono busy), htw⟩
  cases hw : s.worker with
  | loopTest => exact ⟨s, .refl _ s, hw⟩
  | scan =>
    have h : WorkerLeads (Action.Woken s.wakeupFd) s { s with
        worker := .wait (getMinWaitTime s.probes {}) {} (s.probes.entries.filter (·.2.Waiting)) } :=
      .step (a := .scan {}) (.inl trivial) (by simp [next, ha, hw]) rfl rfl rfl rfl fun _ => id
    exact viaDispatch (h.trans (.wakeup (s := { s with worker := .wait _ _ _ }) ha rfl
      (htok (by rw [hw]; trivial)) hreg)) rfl
  | wait w t0 seen => exact viaDispatch (.wakeup ha hw (htok (by rw [hw]; trivial)) hreg) rfl
  | dispatch evs =>
    obtain ⟨u, hu, huw⟩ := WorkerLeads.dispatch hs ha hw
    exact viaDispatch (hu.mono busy) huw
  | checkTimeouts => exact absurd hw hs.worker_ne_checkTimeouts
  | sendCallbacks =>
    obtain ⟨t, ht, htw⟩ := fromCallbacks hs ha hcb hw
    exact ⟨t, ht.mono busy, htw⟩
  | cleanProbes B => exact ⟨_, (WorkerLeads.cleanProbes hs ha hw).mono busy, rfl⟩
  | _ => simp [hw, WorkerPc.InLoop] at hl

@[simp] theorem Engine.cleanProbes_aborted (s : Engine) : s.cleanProbes.aborted = s.aborted := rfl
@[simp] theorem Engine.cleanProbes_stopper (s : Engine) : s.cleanProbes.stopper = s.stopper := rfl
@[simp] theorem Engine.close_aborted (s : Engine) (fd : Int) : (s.close fd).aborted = s.aborted :=
  rfl
@[simp] theorem Engine.close_stopper (s : Engine) (fd : Int) : (s.close fd).stopper = s.stopper :=
  rfl

/-- With `running` cleared, the worker leaves its loop and runs its exit path to the end;
the thread in `stop` stays where it is. -/
theorem exit_run (ha : s.aborted = false) (hw : s.worker.Exiting ∨ s.worker = .loopTest)
    (hr : s.running = false) :
    ∃ as t, (∀ a ∈ as, a.Busy) ∧ s.run as = some t ∧ t.worker = .done ∧
      t.stopper = s.stopper ∧ t.aborted = false := by
  obtain hw | hw := hw
  · cases hw' : s.worker <;> simp only [hw', WorkerPc.Exiting] at hw
    · exact ⟨[.forceTimeouts, .finalClean, .closeWakeup, .closeEpoll], by
        simp [Engine.run, next, ha, hw', Action.Busy, Action.ByWorker]⟩
    · exact ⟨[.finalClean, .closeWakeup, .closeEpoll], by
        simp [Engine.run, next, ha, hw', Action.Busy, Action.ByWorker]⟩
    · exact ⟨[.closeWakeup, .closeEpoll], by
        simp [Engine.run, next, ha, hw', Action.Busy, Action.ByWorker]⟩
    · exact ⟨[.closeEpoll], by simp [Engine.run, next, ha, hw', Action.Busy, Action.ByWorker]⟩
    · exact ⟨[], by simp [Engine.run, hw', ha]⟩
  · exact ⟨[.loopTest, .forceTimeouts, .finalClean, .closeWakeup, .closeEpoll], by
      simp [Engine.run, next, ha, hw, hr, Action.Busy, Action.ByWorker]⟩

/-- Once `stop` has written its token, the worker wakes on it, leaves its loop, runs its
exit path, and `stop` joins it. -/
theorem joins_after_wake (hs : Reachable s) (hw : s.worker.InLoop ∨ s.worker.Exiting)
    (hr : s.running = false) (hcb : s.cfg.callbackSet = true) (ha : s.aborted = false)
    (hreg : s.eventOpen → s.wakeupFd ∈ s.registered) (hst : s.stopper = .woke) :
    ∃ as t, (∀ a ∈ as, a.Woken s.wakeupFd ∨ a = .stopJoin) ∧ s.run as = some t ∧
      t.stopper = .joined ∧ t.worker = .done := by
  obtain ⟨u, hu, huw⟩ : ∃ u, WorkerLeads (Action.Woken s.wakeupFd) s u ∧
      (u.worker.Exiting ∨ u.worker = .loopTest) := by
    rcases hw with hl | hx
    · obtain ⟨u, hu, huw⟩ := WorkerLeads.toLoopTest hs ha hcb hl
        (hs.stopTokenInv hr hst) (hreg (hs.phase_fd.1.live_open hl.live).2)
      exact ⟨u, hu, .inr huw⟩
    · exact ⟨s, .refl _ s, .inl hx⟩
  obtain ⟨as, has, hrun⟩ := hu.run
  obtain ⟨bs, v, hbs, hv, hvw, hvst, hva⟩ :=
    exit_run (hu.aborted.trans ha) huw (hu.running.trans hr)
  refine ⟨as ++ bs ++ [.stopJoin], { v with stopper := .joined }, fun a h => ?_,
    by simp [run_append, hrun, hv, Engine.run, next, hva, hvst, hu.stopper, hst, hvw], rfl, hvw⟩
  simp only [List.mem_append, List.mem_singleton] at h
  rcases h with (h | h) | h
  exacts [.inl (has a h), .inl (.inl (hbs a h)), .inr h]

/-- In every run whose `setup_epoll` registered the eventfd, from a state with the worker
past its setup, `running` cleared, the callback set and the process alive, `stop` returns:
some run of the worker's steps and of `stop`'s wake-up and join ends with `stop` returned
and the worker done, and in that run every `epoll_wait` returns on `stop`'s token,
reporting the eventfd alone, with no timeout or signal needed. -/
theorem stop_returns {cfg : Config} {bs : List Action} {s : Engine}
    (hrun : (Engine.initial cfg).run bs = some s) (hok : ∀ a ∈ bs, a.setupCtl ≠ some false)
    (hw : s.worker.InLoop ∨ s.worker.Exiting) (hr : s.running = false)
    (hcb : s.cfg.callbackSet = true) (ha : s.aborted = false) :
    ∃ as t, (∀ a ∈ as, a.Woken s.wakeupFd ∨ a = .stopWake ∨ a = .stopJoin) ∧
      s.run as = some t ∧ t.stopper = .joined ∧ t.worker = .done := by
  have hs := Reachable.run hrun
  have hup : WakeupRegistered true s := run_wakeupRegistered hrun hok
  have hreg : s.eventOpen → s.wakeupFd ∈ s.registered := fun hv => (hup hv).2 rfl
  cases hss : s.stopper with
  | idle =>
    rcases hw with hl | hx
    exacts [absurd hss (hs.phase_fd.1.loop_stopped hl hr), absurd hss (hs.phase_fd.1.exit_stopped hx).1]
  | stored =>
    have hn : s.next .stopWake = some { s.wakeupEvent with stopper := .woke } := by
      simp [next, ha, hss]
    obtain ⟨as, t, has, hrun', htj, htw⟩ :=
      joins_after_wake (Reachable.step _ hs hn) hw hr hcb ha hreg rfl
    exact ⟨.stopWake :: as, t, List.forall_mem_cons.2 ⟨.inr (.inl rfl),
      fun a h => (has a h).imp_right .inr⟩, by simp [Engine.run, hn, hrun'], htj, htw⟩
  | woke =>
    obtain ⟨as, t, has, hrun', htj, htw⟩ := joins_after_wake hs hw hr hcb ha hreg hss
    exact ⟨as, t, fun a h => (has a h).imp_right .inr, hrun', htj, htw⟩
  | joined =>
    rcases hs.phase_fd.1.joined_done hss with hd | hd
    · exact ⟨[], s, by simp, rfl, hss, hd⟩
    · simp [hd, WorkerPc.InLoop, WorkerPc.Exiting] at hw

/-- `stop` clears `running` while the worker is blocked in `epoll_wait` with a probe in
flight. -/
def stopping : List Action := inFlight ++ [.loopTest, .scan {}, .stopStore]

def stoppingState : Engine := ((Engine.initial demoCfg).run stopping).get (by decide)

theorem stop_returns_inFlight :
    (Engine.initial demoCfg).run stopping = some stoppingState ∧
    (∀ a ∈ stopping, a.setupCtl ≠ some false) ∧
    (stoppingState.worker.InLoop ∨ stoppingState.worker.Exiting) ∧
    stoppingState.running = false ∧ stoppingState.cfg.callbackSet = true ∧
    stoppingState.aborted = false ∧
    ∃ as t, (∀ a ∈ as, a.Woken stoppingState.wakeupFd ∨ a = .stopWake ∨ a = .stopJoin) ∧
      stoppingState.run as = some t ∧ t.stopper = .joined ∧ t.worker = .done := by
  have hrun : (Engine.initial demoCfg).run stopping = some stoppingState := (Option.some_get _).symm
  have hok : ∀ a ∈ stopping, a.setupCtl ≠ some false := by decide
  have hw : stoppingState.worker.InLoop ∨ stoppingState.worker.Exiting := by
    rw [show stoppingState.worker = .wait 1000 {} (stoppingState.probes.entries.filter
      (·.2.Waiting)) by decide]
    exact .inl trivial
  have hr : stoppingState.running = false := by decide
  have hcb : stoppingState.cfg.callbackSet = true := by decide
  have ha : stoppingState.aborted = false := by decide
  exact ⟨hrun, hok, hw, hr, hcb, ha, stop_returns hrun hok hw hr hcb ha⟩

/-! ## Every record reaches the callback -/

end Icmpenguin
