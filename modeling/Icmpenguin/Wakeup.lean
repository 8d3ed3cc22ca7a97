import Icmpenguin.Descriptors

/-!
# Icmpenguin — the wake protocol

The worker computes its `epoll_wait` bound with `get_min_wait_time` under the lock, drops
the lock, and blocks. Any thread that changes the table in between (`add_socket`) or wants
the loop to re-test `running` (`stop`) writes a token to the eventfd, which `epoll_wait`
reports at once. `WaitInv` says that nothing is lost in that window: at every blocked wait
either a token is pending or the table is still the one the scan saw.

That needs the eventfd in the interest list, and `setup_epoll` does not check its
`EPOLL_CTL_ADD`. `WakeupRegistered` follows the answer it got through a run: when the
registration failed, no `epoll_wait` ever reports the eventfd, and every token is lost.
`StopTokenInv` is the part `stop` relies on: after `stop` has cleared `running` and written
its token, a worker before or in its wait still has the token pending.

The first half bounds what `get_min_wait_time` returns: `-1` exactly when no record is
`WAITING`, else a value in `[0, max 0 r]` for the narrowed remaining time `r` of each
`WAITING` record. The clamp at 0 means an overdue record has remaining time below the
bound.
-/

namespace Icmpenguin

open Engine

/-! ## The bound `get_min_wait_time` returns -/

section MinWait

variable {now : Timeval} {m : Int} {s : Slot}

theorem minWaitStep_of_not_waiting (hs : ¬s.Waiting) : minWaitStep now m s = m :=
  if_neg hs

theorem minWaitStep_nonneg (hm : 0 ≤ m) : 0 ≤ minWaitStep now m s := by
  simp only [minWaitStep]; split_ifs <;> omega

theorem minWaitStep_le (hm : 0 ≤ m) : minWaitStep now m s ≤ m := by
  simp only [minWaitStep]; split_ifs <;> omega

theorem minWaitStep_ok (hm : m = -1 ∨ 0 ≤ m) :
    minWaitStep now m s = -1 ∨ 0 ≤ minWaitStep now m s := by
  simp only [minWaitStep]; split_ifs <;> omega

/-- A `WAITING` record puts the running minimum in `[0, max 0 r]`, `r` its narrowed
remaining time. -/
theorem minWaitStep_waiting (hm : m = -1 ∨ 0 ≤ m) (hs : s.Waiting) :
    0 ≤ minWaitStep now m s ∧
      minWaitStep now m s ≤ max 0 (toInt32 (s.probe.remainingMs now)) := by
  have hs : s.probe.status = .waiting := hs
  simp only [minWaitStep, ProbeContext.remainingMs, if_pos hs, Int.max_def]
  split_ifs <;> omega

theorem foldl_minWait_nonneg_le (l : List (Int × Slot)) (hm : 0 ≤ m) :
    0 ≤ l.foldl (fun m e => minWaitStep now m e.2) m ∧
      l.foldl (fun m e => minWaitStep now m e.2) m ≤ m := by
  induction l generalizing m with
  | nil => exact ⟨hm, le_rfl⟩
  | cons e l ih =>
    obtain ⟨h1, h2⟩ := ih (m := minWaitStep now m e.2) (minWaitStep_nonneg hm)
    exact ⟨h1, h2.trans (minWaitStep_le hm)⟩

/-- The bound is at most the clamped remaining time of every `WAITING` record scanned. -/
theorem foldl_minWait_waiting (l : List (Int × Slot)) (hm : m = -1 ∨ 0 ≤ m) {e : Int × Slot}
    (he : e ∈ l) (hw : e.2.Waiting) :
    0 ≤ l.foldl (fun m e => minWaitStep now m e.2) m ∧
      l.foldl (fun m e => minWaitStep now m e.2) m ≤
        max 0 (toInt32 (e.2.probe.remainingMs now)) := by
  induction l generalizing m with
  | nil => simp at he
  | cons a l ih =>
    rcases List.mem_cons.1 he with rfl | he
    · obtain ⟨h1, h2⟩ : 0 ≤ minWaitStep now m e.2 ∧ _ := minWaitStep_waiting hm hw
      exact ⟨(foldl_minWait_nonneg_le l h1).1, (foldl_minWait_nonneg_le l h1).2.trans h2⟩
    · exact ih (minWaitStep_ok hm) he

theorem foldl_minWait_eq_neg_one (l : List (Int × Slot)) :
    l.foldl (fun m e => minWaitStep now m e.2) (-1) = -1 ↔ ∀ e ∈ l, ¬e.2.Waiting := by
  induction l with
  | nil => simp
  | cons a l ih =>
    by_cases ha : a.2.Waiting
    · have : 0 ≤ (a :: l).foldl (fun m e => minWaitStep now m e.2) (-1) :=
        (foldl_minWait_waiting (a :: l) (.inl rfl) (List.mem_cons_self a l) ha).1
      exact ⟨fun h => by omega, fun h => absurd ha (h a (List.mem_cons_self a l))⟩
    · rw [List.foldl_cons, minWaitStep_of_not_waiting ha, ih]
      simp [ha]

end MinWait

/-- `get_min_wait_time` is `-1` exactly when no record is `WAITING`. -/
theorem getMinWaitTime_eq_neg_one (t : ProbeTable) (now : Timeval) :
    getMinWaitTime t now = -1 ↔ t.entries.filter (fun e => e.2.Waiting) = [] := by
  rw [getMinWaitTime, foldl_minWait_eq_neg_one, List.filter_eq_nil_iff]
  simp

/-- `get_min_wait_time` is at most the clamped, narrowed remaining time of every
`WAITING` record. -/
theorem getMinWaitTime_le {t : ProbeTable} {now : Timeval} {e : Int × Slot}
    (he : e ∈ t.entries) (hw : e.2.Waiting) :
    getMinWaitTime t now ≤ max 0 (toInt32 (e.2.probe.remainingMs now)) :=
  (foldl_minWait_waiting t.entries (.inl rfl) he hw).2

/-! ## No wake-up is lost -/

/-- At a blocked wait, a token is pending or the table is the one the scan saw. -/
def WaitInv (s : Engine) : Prop :=
  ∀ w t0 seen, s.worker = .wait w t0 seen →
    s.counter ≠ 0 ∨
      (s.probes.entries.filter (fun e => e.2.Waiting) = seen ∧ w = getMinWaitTime s.probes t0)

theorem WaitInv.initial (cfg : Config) : WaitInv (Engine.initial cfg) :=
  fun _ _ _ h => by simp [Engine.initial] at h

variable {s t : Engine}

theorem WaitInv.of_not_wait (hw : ∀ w t0 seen, t.worker ≠ .wait w t0 seen) : WaitInv t :=
  fun w t0 seen h => absurd h (hw w t0 seen)

/-- Steps that leave the worker, the table and the counter alone. -/
theorem WaitInv.frame (h : WaitInv s) (hw : t.worker = s.worker) (hp : t.probes = s.probes)
    (hc : t.counter = s.counter) : WaitInv t := by
  intro w t0 seen hwt
  rw [hp, hc]
  exact h w t0 seen (hw ▸ hwt)

/-- A token written while the worker holds its eventfd is pending at any wait. -/
theorem WaitInv.wake (hp : PhaseInv s) (hw : t.worker = s.worker)
    (hc : s.eventOpen → t.counter = s.counter + 1) : WaitInv t := by
  intro w t0 seen hwt
  have hv := (hp.live_open (by rw [← hw, hwt]; trivial)).2
  exact .inl (by rw [hc hv]; omega)

theorem WaitInv.next {a : Action} (hp : PhaseInv s) (h : WaitInv s) (hn : s.next a = some t) :
    WaitInv t := by
  cases a with
  | setup er wr ok =>
    obtain ⟨-, rfl | ⟨e, -, rfl⟩ | ⟨e, w, -, -, -, rfl⟩⟩ := setupEpoll_cases (next_setup hn) <;>
      exact .of_not_wait (by simp)
  | storeRunning => obtain ⟨-, rfl⟩ := next_storeRunning hn; exact .of_not_wait (by simp)
  | loopTest =>
    obtain ⟨-, rfl⟩ := next_loopTest hn
    exact .of_not_wait (by cases s.running <;> simp)
  | scan now =>
    obtain ⟨-, rfl⟩ := next_scan hn
    rintro w t0 seen ⟨⟩
    exact .inr ⟨rfl, rfl⟩
  | waitReturn evs => obtain ⟨-, -, rfl⟩ := next_waitReturn hn; exact .of_not_wait (by simp)
  | drain => obtain ⟨_, -, rfl⟩ := next_drain hn; exact .of_not_wait (by simp)
  | readData now errq data =>
    obtain ⟨_, _, -, -, rfl⟩ := next_readData hn; exact .of_not_wait (by simp)
  | checkTimeouts now => obtain ⟨-, rfl⟩ := next_checkTimeouts hn; exact .of_not_wait (by simp)
  | sendCallbacks =>
    obtain ⟨hw, rfl⟩ := next_sendCallbacks hn
    unfold Engine.sendCallbacks
    split <;> exact .of_not_wait (by simp [hw])
  | cleanProbes => obtain ⟨_, -, rfl⟩ := next_cleanProbes hn; exact .of_not_wait (by simp)
  | forceTimeouts => obtain ⟨-, rfl⟩ := next_forceTimeouts hn; exact .of_not_wait (by simp)
  | finalClean => obtain ⟨-, rfl⟩ := next_finalClean hn; exact .of_not_wait (by simp)
  | closeWakeup => obtain ⟨-, rfl⟩ := next_closeWakeup hn; exact .of_not_wait (by simp)
  | closeEpoll => obtain ⟨-, rfl⟩ := next_closeEpoll hn; exact .of_not_wait (by simp)
  | startReturns => obtain rfl := next_startReturns hn; exact h.frame rfl rfl rfl
  | stopStore => obtain ⟨-, -, rfl⟩ := next_stopStore hn; exact h.frame rfl rfl rfl
  | stopWake =>
    obtain ⟨-, rfl⟩ := next_stopWake hn
    exact .wake hp rfl fun hv => by simp [wakeupEvent, hv]
  | stopJoin => obtain ⟨-, -, rfl⟩ := next_stopJoin hn; exact h.frame rfl rfl rfl
  | socket c args res =>
    obtain ⟨-, -, ⟨_, _, -, rfl⟩ | ⟨fd, -, -, rfl⟩⟩ := next_socket hn
    · exact h.frame (fatal_worker ..) (fatal_probes ..) (fatal_counter ..)
    · exact h.frame rfl rfl rfl
  | transmit c b now r =>
    obtain ⟨fd, n, p, size, pat, -, rfl | ⟨q, -, rfl⟩ | ⟨q, -, rfl⟩⟩ := next_transmit hn
    · exact h.frame rfl rfl rfl
    · exact h.frame (fatal_worker ..) (fatal_probes ..) (fatal_counter ..)
    · exact h.frame rfl rfl rfl
  | addSocket c ok =>
    obtain ⟨fd, n, p, -, rfl⟩ := next_addSocket hn
    exact .wake hp rfl fun hv => by simp [wakeupEvent, hv]

theorem Reachable.waitInv {s : Engine} (hs : Reachable s) : WaitInv s := by
  induction hs with
  | initial cfg => exact .initial cfg
  | step _ hs hn ih => exact ih.next hs.phase_fd.1 hn

/-! ## The eventfd in the interest list -/

/-- The answer a `setup` step gives for `setup_epoll`'s `EPOLL_CTL_ADD` of the eventfd. -/
def Action.setupCtl : Action → Option Bool
  | .setup _ _ ok => some ok
  | _ => none

/-- While the eventfd is open, it is in the interest list exactly when `setup_epoll`'s
`EPOLL_CTL_ADD` of it succeeded. -/
def WakeupRegistered (ok : Bool) (s : Engine) : Prop :=
  s.eventOpen → (s.wakeupFd ∈ s.registered ↔ ok = true)

/-- Steps that keep the eventfd and change the interest list only in other descriptors. -/
theorem WakeupRegistered.frame {ok : Bool} (h : WakeupRegistered ok s)
    (hv : t.eventOpen = s.eventOpen) (hw : t.wakeupFd = s.wakeupFd)
    (hr : s.eventOpen → (s.wakeupFd ∈ t.registered ↔ s.wakeupFd ∈ s.registered)) :
    WakeupRegistered ok t := fun hv' => by
  rw [hv] at hv'
  rw [hw, hr hv']
  exact h hv'

/-- No step but `setup_epoll` adds the eventfd to the interest list or takes it out while it
is open: `clean_probes`, `add_socket` and the `close` of a failed send touch sockets, which
are not the eventfd. -/
theorem WakeupRegistered.next {ok : Bool} {a : Action} (hp : PhaseInv s) (hf : FdInv s)
    (h : WakeupRegistered ok s) (ha : a.setupCtl ≠ some !ok) (hn : s.next a = some t) :
    WakeupRegistered ok t := by
  have same : t.eventOpen = s.eventOpen → t.wakeupFd = s.wakeupFd →
      t.registered = s.registered → WakeupRegistered ok t :=
    fun hv hw hr => h.frame hv hw fun _ => by rw [hr]
  have closed : t.eventOpen = false → WakeupRegistered ok t := fun hv hv' => by
    rw [hv] at hv'; cases hv'
  have notTerm : s.eventOpen → s.wakeupFd ∉ (terminal s.probes).map Prod.fst := by
    intro hv hm
    obtain ⟨⟨k, sl⟩, hk, hke⟩ := List.mem_map.1 hm
    exact (hf.event_open hv).2.1 (ProbeTable.mem_keys.2 ⟨sl, hke ▸ (mem_terminal.1 hk).1⟩)
  have callerFd : ∀ c k, (s.callers c).fd? = some k → s.eventOpen → k ≠ s.wakeupFd :=
    fun c k hc hv => (hf.caller_fd c k hc).2.2.2 hv
  cases a with
  | setup er wr ok' =>
    have hv := hp.eventOpen_false (s := s)
    obtain ⟨hw, rfl | ⟨e, -, rfl⟩ | ⟨e, w, -, -, hwo, rfl⟩⟩ := setupEpoll_cases (next_setup hn)
    · exact closed (hv (by simp [hw, WorkerPc.Live]))
    · exact closed (hv (by simp [hw, WorkerPc.Live]))
    · have hnot : w ∉ s.registered := fun hr =>
        (hf.registered_keys w hr).elim (fun hk => hwo (List.mem_cons_of_mem _ (hf.keys_open w hk)))
          fun ⟨hv', _⟩ => by rw [hv (by simp [hw, WorkerPc.Live])] at hv'; cases hv'
      intro _
      cases ok <;> cases ok' <;> simp_all [Action.setupCtl]
  | storeRunning => obtain ⟨-, rfl⟩ := next_storeRunning hn; exact same rfl rfl rfl
  | loopTest => obtain ⟨-, rfl⟩ := next_loopTest hn; exact same rfl rfl rfl
  | scan now => obtain ⟨-, rfl⟩ := next_scan hn; exact same rfl rfl rfl
  | waitReturn evs => obtain ⟨-, -, rfl⟩ := next_waitReturn hn; exact same rfl rfl rfl
  | drain => obtain ⟨_, -, rfl⟩ := next_drain hn; exact same rfl rfl rfl
  | readData now errq data => obtain ⟨_, _, -, -, rfl⟩ := next_readData hn; exact same rfl rfl rfl
  | checkTimeouts now => obtain ⟨-, rfl⟩ := next_checkTimeouts hn; exact same rfl rfl rfl
  | sendCallbacks =>
    obtain ⟨-, rfl⟩ := next_sendCallbacks hn
    refine same ?_ ?_ ?_ <;> unfold Engine.sendCallbacks <;> split <;> rfl
  | cleanProbes =>
    obtain ⟨_, -, rfl⟩ := next_cleanProbes hn
    exact h.frame rfl rfl fun hv => by simp [Engine.cleanProbes, notTerm hv]
  | finalClean =>
    obtain ⟨-, rfl⟩ := next_finalClean hn
    exact h.frame rfl rfl fun hv => by simp [Engine.cleanProbes, notTerm hv]
  | forceTimeouts => obtain ⟨-, rfl⟩ := next_forceTimeouts hn; exact same rfl rfl rfl
  | closeWakeup => obtain ⟨-, rfl⟩ := next_closeWakeup hn; exact closed rfl
  | closeEpoll =>
    obtain ⟨hw, rfl⟩ := next_closeEpoll hn
    exact closed (hp.eventOpen_false (by simp [hw, WorkerPc.Live]))
  | startReturns => obtain rfl := next_startReturns hn; exact same rfl rfl rfl
  | stopStore => obtain ⟨-, -, rfl⟩ := next_stopStore hn; exact same rfl rfl rfl
  | stopWake => obtain ⟨-, rfl⟩ := next_stopWake hn; exact same rfl rfl rfl
  | stopJoin => obtain ⟨-, -, rfl⟩ := next_stopJoin hn; exact same rfl rfl rfl
  | socket c args res =>
    obtain ⟨-, -, ⟨_, _, -, rfl⟩ | ⟨fd, -, -, rfl⟩⟩ := next_socket hn
    · exact same (fatal_eventOpen ..) (fatal_wakeupFd ..) (fatal_registered ..)
    · exact same rfl rfl rfl
  | transmit c b now r =>
    obtain ⟨fd, n, p, size, pat, hc, rfl | ⟨q, -, rfl⟩ | ⟨q, -, rfl⟩⟩ := next_transmit hn
    · exact same rfl rfl rfl
    · have hne := callerFd c fd (by simp [hc, CallerPc.fd?])
      exact h.frame (fatal_eventOpen ..) (fatal_wakeupFd ..) fun hv => by
        simp [Engine.close, Ne.symm (hne hv)]
    · exact same rfl rfl rfl
  | addSocket c ok =>
    obtain ⟨fd, n, p, hc, rfl⟩ := next_addSocket hn
    have hne := callerFd c fd (by simp [hc, CallerPc.fd?])
    exact h.frame rfl rfl fun hv => by split_ifs <;> simp [Ne.symm (hne hv)]

/-- Along a run whose `setup` steps all got the answer `ok`. -/
theorem WakeupRegistered.run {ok : Bool} : ∀ {as : List Action} {s t : Engine}, Reachable s →
    WakeupRegistered ok s → (∀ a ∈ as, a.setupCtl ≠ some !ok) → s.run as = some t →
    WakeupRegistered ok t
  | [], _, _, _, h, _, hr => by cases hr; exact h
  | a :: as, s, t, hs, h, ha, hr => by
    obtain ⟨u, hu, hr'⟩ := Option.bind_eq_some.1 hr
    exact WakeupRegistered.run (.step a hs hu)
      (h.next hs.phase_fd.1 hs.phase_fd.2 (ha a (List.mem_cons_self _ _)) hu)
      (fun b hb => ha b (List.mem_cons_of_mem _ hb)) hr'

/-- Every run from the construction of an engine, in which `setup_epoll`'s registration of
the eventfd got the answer `ok`. -/
theorem run_wakeupRegistered {ok : Bool} {cfg : Config} {as : List Action} {s : Engine}
    (hr : (Engine.initial cfg).run as = some s) (ha : ∀ a ∈ as, a.setupCtl ≠ some !ok) :
    WakeupRegistered ok s :=
  WakeupRegistered.run (.initial cfg) (fun h => by simp [Engine.initial] at h) ha hr

/-! ## The bound at a blocked wait -/

/-- The run to the second scan, at 1.001 s, of the echo sent at 0 with a 1000 ms timeout:
the first iteration drains the token of `add_socket` and expires nothing. -/
def overdueWait : List Action :=
  inFlight ++ [.loopTest, .scan {}, .waitReturn [4], .drain, .checkTimeouts {}, .sendCallbacks,
    .cleanProbes, .loopTest, .scan ⟨1, 1000⟩]

/-- The worker blocks with no token pending and bound 0, while the record it scanned has
-1 ms left: the clamp puts the bound above an overdue record's remaining time. -/
theorem overdue_record_below_bound :
    ((Engine.initial demoCfg).run overdueWait).map (fun s => (s.counter,
      match s.worker with
      | .wait w t0 seen => some (w, seen.map fun e => e.2.probe.remainingMs t0)
      | _ => none)) = some (0, some (0, [-1])) := by decide

/-- In every run whose `setup_epoll` registered the eventfd, at every blocked wait either a
token is pending on the registered eventfd, so `epoll_wait` returns at once, or the
`WAITING` records are exactly those the scan saw (no insertion slipped in between, and
none was drained before the scan that sees it), the bound is `-1` exactly when there are
none, and it is at most the remaining time (clamped at 0) of each one whose remaining time
fits in an `int`. -/
theorem wait_bound {cfg : Config} {as : List Action} {s : Engine}
    (hrun : (Engine.initial cfg).run as = some s) (hok : ∀ a ∈ as, a.setupCtl ≠ some false)
    {w : Int} {t0 : Timeval} {seen : List (Int × Slot)} (hw : s.worker = .wait w t0 seen) :
    (s.counter ≠ 0 ∧ s.wakeupFd ∈ s.registered) ∨
      (s.probes.entries.filter (fun e => e.2.Waiting) = seen ∧ (w = -1 ↔ seen = []) ∧
        ∀ e ∈ seen, InInt32 (e.2.probe.remainingMs t0) →
          w ≤ max 0 (e.2.probe.remainingMs t0)) := by
  have hs := Reachable.run hrun
  have hup : WakeupRegistered true s := run_wakeupRegistered hrun hok
  have hreg : s.wakeupFd ∈ s.registered :=
    (hup (hs.phase_fd.1.live_open (by rw [hw]; trivial)).2).2 rfl
  refine (hs.waitInv w t0 seen hw).imp (fun hc => ⟨hc, hreg⟩)
    fun ⟨hseen, hwb⟩ => ⟨hseen, ?_, fun e he hr => ?_⟩
  · rw [hwb, getMinWaitTime_eq_neg_one, hseen]
  · rw [← hseen, List.mem_filter] at he
    rw [hwb, ← toInt32_of_inInt32 hr]
    exact getMinWaitTime_le he.1 (of_decide_eq_true he.2)

/-- The engine at that wait. -/
def overdueState : Engine := ((Engine.initial demoCfg).run overdueWait).get (by decide)

theorem wait_bound_overdue :
    (Engine.initial demoCfg).run overdueWait = some overdueState ∧
    (∀ a ∈ overdueWait, a.setupCtl ≠ some false) ∧
    overdueState.worker =
      .wait 0 ⟨1, 1000⟩ (overdueState.probes.entries.filter fun e => e.2.Waiting) ∧
    ((overdueState.counter ≠ 0 ∧ overdueState.wakeupFd ∈ overdueState.registered) ∨
      (overdueState.probes.entries.filter (fun e => e.2.Waiting) =
          overdueState.probes.entries.filter (fun e => e.2.Waiting) ∧
        (0 = -1 ↔ overdueState.probes.entries.filter (fun e => e.2.Waiting) = []) ∧
        ∀ e ∈ overdueState.probes.entries.filter (fun e => e.2.Waiting),
          InInt32 (e.2.probe.remainingMs ⟨1, 1000⟩) →
            (0 : Int) ≤ max 0 (e.2.probe.remainingMs ⟨1, 1000⟩))) :=
  have hr : (Engine.initial demoCfg).run overdueWait = some overdueState := (Option.some_get _).symm
  have hok : ∀ a ∈ overdueWait, a.setupCtl ≠ some false := by decide
  have hw : overdueState.worker =
      .wait 0 ⟨1, 1000⟩ (overdueState.probes.entries.filter fun e => e.2.Waiting) := by decide
  ⟨hr, hok, hw, wait_bound hr hok hw⟩

/-! ## A failed registration -/

/-- In every run whose `setup_epoll` failed to register the eventfd (the result of its
`EPOLL_CTL_ADD` is not checked, and the worker starts anyway), the eventfd is never in the
interest list while it is open, so every descriptor `epoll_wait` can report is a socket of
the table: the tokens of `add_socket` and `stop` wake nothing. -/
theorem wakeups_lost {cfg : Config} {as : List Action} {s : Engine}
    (hrun : (Engine.initial cfg).run as = some s) (hfail : ∀ a ∈ as, a.setupCtl ≠ some true) :
    (s.eventOpen → s.wakeupFd ∉ s.registered) ∧
      ∀ evs, s.EventsReady evs → ∀ e ∈ evs, e ∈ s.probes.keys := by
  have hreg : WakeupRegistered false s := run_wakeupRegistered hrun hfail
  have hout : s.eventOpen → s.wakeupFd ∉ s.registered := fun hv hm => by
    simpa using (hreg hv).1 hm
  refine ⟨hout, fun evs hev e he => ?_⟩
  have hin := hev.2.2.1
  rcases (Reachable.run hrun).phase_fd.2.registered_keys e (hin e he) with hk | ⟨hv, rfl⟩
  exacts [hk, absurd (hin _ he) (hout hv)]

/-- The worker scans an empty table and blocks with bound `-1`; then thread 0 adds an echo.
`setup_epoll`'s registration of the eventfd had failed. -/
def lostWakeup : List Action :=
  [.setup (some 3) (some 4) false, .storeRunning, .startReturns, .loopTest, .scan {},
   .socket 0 echoArgs (.ok 5), .transmit 0 (.ok ()) {} (.ok ()), .addSocket 0 true]

/-- The engine after that run: `add_socket`'s token is pending and the echo is `WAITING`,
but the wait, with bound `-1`, can only end by a reply on socket 5. -/
def lostWakeupState : Engine := ((Engine.initial demoCfg).run lostWakeup).get (by decide)

theorem wakeups_lost_after_add :
    (Engine.initial demoCfg).run lostWakeup = some lostWakeupState ∧
    (∀ a ∈ lostWakeup, a.setupCtl ≠ some true) ∧
    lostWakeupState.worker = .wait (-1) {} [] ∧ lostWakeupState.counter = 1 ∧
    lostWakeupState.probes.entries.map (·.2.probe.status) = [.waiting] ∧
    (lostWakeupState.eventOpen → lostWakeupState.wakeupFd ∉ lostWakeupState.registered) ∧
    ∀ evs, lostWakeupState.EventsReady evs → ∀ e ∈ evs, e ∈ lostWakeupState.probes.keys :=
  have hr : (Engine.initial demoCfg).run lostWakeup = some lostWakeupState :=
    (Option.some_get _).symm
  have hfail : ∀ a ∈ lostWakeup, a.setupCtl ≠ some true := by decide
  ⟨hr, hfail, by decide, by decide, by decide, wakeups_lost hr hfail⟩

/-! ## `stop`'s token -/

namespace WorkerPc

/-- Before `epoll_wait`, or blocked in it. -/
def Waits : WorkerPc → Prop
  | .scan | .wait .. => True
  | _ => False

theorem Waits.live : ∀ {w : WorkerPc}, w.Waits → w.Live
  | .scan, _ | .wait .., _ => trivial

end WorkerPc

/-- After `stop` has cleared `running` and written its token, a worker before or in its
`epoll_wait` has that token pending: it entered its iteration before `running` was cleared,
and only a drain later in the iteration consumes a token. -/
def StopTokenInv (s : Engine) : Prop :=
  s.running = false → s.stopper = .woke → s.worker.Waits → s.counter ≠ 0

theorem StopTokenInv.initial (cfg : Config) : StopTokenInv (Engine.initial cfg) :=
  fun _ h => by simp [Engine.initial] at h

theorem StopTokenInv.next {a : Action} (hp : PhaseInv s) (h : StopTokenInv s)
    (hn : s.next a = some t) : StopTokenInv t := by
  have frame : t.running = s.running → t.stopper = s.stopper → t.worker = s.worker →
      s.counter ≤ t.counter → StopTokenInv t := fun hr hs hw hc hr' hs' hw' => by
    have := h (hr ▸ hr') (hs ▸ hs') (hw ▸ hw')
    omega
  have moved : ¬t.worker.Waits → StopTokenInv t := fun hw _ _ h' => absurd h' hw
  cases a with
  | setup er wr ok =>
    obtain ⟨-, rfl | ⟨e, -, rfl⟩ | ⟨e, w, -, -, -, rfl⟩⟩ := setupEpoll_cases (next_setup hn) <;>
      exact moved id
  | storeRunning => obtain ⟨-, rfl⟩ := next_storeRunning hn; exact moved id
  | loopTest =>
    obtain ⟨-, rfl⟩ := next_loopTest hn
    exact fun hr _ hw => by simp [show s.running = false from hr, WorkerPc.Waits] at hw
  | scan now =>
    obtain ⟨hw, rfl⟩ := next_scan hn
    exact fun hr hs _ => h hr hs (by rw [hw]; trivial)
  | waitReturn evs => obtain ⟨-, -, rfl⟩ := next_waitReturn hn; exact moved id
  | drain => obtain ⟨_, -, rfl⟩ := next_drain hn; exact moved id
  | readData now errq data => obtain ⟨_, _, -, -, rfl⟩ := next_readData hn; exact moved id
  | checkTimeouts now => obtain ⟨-, rfl⟩ := next_checkTimeouts hn; exact moved id
  | sendCallbacks =>
    obtain ⟨hw, rfl⟩ := next_sendCallbacks hn
    exact moved (by unfold Engine.sendCallbacks; split <;> simp [hw, WorkerPc.Waits])
  | cleanProbes => obtain ⟨_, -, rfl⟩ := next_cleanProbes hn; exact moved id
  | forceTimeouts => obtain ⟨-, rfl⟩ := next_forceTimeouts hn; exact moved id
  | finalClean => obtain ⟨-, rfl⟩ := next_finalClean hn; exact moved id
  | closeWakeup => obtain ⟨-, rfl⟩ := next_closeWakeup hn; exact moved id
  | closeEpoll => obtain ⟨-, rfl⟩ := next_closeEpoll hn; exact moved id
  | startReturns => obtain rfl := next_startReturns hn; exact frame rfl rfl rfl le_rfl
  | stopStore => obtain ⟨-, -, rfl⟩ := next_stopStore hn; exact fun _ h' => nomatch h'
  | stopWake =>
    obtain ⟨-, rfl⟩ := next_stopWake hn
    intro _ _ hw
    have hv := (hp.live_open hw.live).2
    simp [wakeupEvent, hv]
  | stopJoin => obtain ⟨-, -, rfl⟩ := next_stopJoin hn; exact fun _ h' => nomatch h'
  | socket c args res =>
    obtain ⟨-, -, ⟨_, _, -, rfl⟩ | ⟨fd, -, -, rfl⟩⟩ := next_socket hn
    · exact frame (fatal_running ..) (fatal_stopper ..) (fatal_worker ..) (by simp)
    · exact frame rfl rfl rfl le_rfl
  | transmit c b now r =>
    obtain ⟨fd, n, p, size, pat, -, rfl | ⟨q, -, rfl⟩ | ⟨q, -, rfl⟩⟩ := next_transmit hn
    · exact frame rfl rfl rfl le_rfl
    · exact frame (fatal_running ..) (fatal_stopper ..) (fatal_worker ..) (by simp [Engine.close])
    · exact frame rfl rfl rfl le_rfl
  | addSocket c ok =>
    obtain ⟨fd, n, p, -, rfl⟩ := next_addSocket hn
    exact frame rfl rfl rfl (by simp only [wakeupEvent]; split <;> omega)

theorem Reachable.stopTokenInv {s : Engine} (hs : Reachable s) : StopTokenInv s := by
  induction hs with
  | initial cfg => exact .initial cfg
  | step _ hs hn ih => exact ih.next hs.phase_fd.1 hn

end Icmpenguin
