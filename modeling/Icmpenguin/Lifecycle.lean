import Icmpenguin.Delivery

/-!
# Icmpenguin — start, stop and a worker that is gone

`handler` delivers results only inside its loop: `send_callbacks` runs once per
iteration, and the exit path is `force_timeouts`, `clean_probes` and the two closes. A
worker that failed `setup_epoll`, or that has left its loop, never calls the callback
again. `Stranded` follows a serial from such a state: nothing can log it any more,
whatever the callers and `stop` do.

`stop` stores `running = false` and writes one token, but the worker stores
`running = true` after its setup without looking at what `stop` did. When `stop` runs
first, its token goes to `wakeup_fd = -1` and the worker's loop never ends.
-/

namespace Icmpenguin

open Engine

variable {s t : Engine} {a : Action}

/-- Only the worker moves the worker, and it has no step once it failed: a step leaves it
where it is, moves it on before the exit path, or is one of the four steps of the exit
path. -/
theorem worker_next (hn : s.next a = some t) :
    t.worker = s.worker ∨ (s.worker ≠ .failed ∧ ¬s.worker.Exiting) ∨
      (s.worker.Exiting ∧
        (a = .forceTimeouts ∨ a = .finalClean ∨ a = .closeWakeup ∨ a = .closeEpoll)) := by
  cases a with
  | setup er wr ok =>
    obtain ⟨hw, -⟩ := setupEpoll_cases (next_setup hn)
    exact .inr (.inl ⟨by simp [hw], by simp [hw, WorkerPc.Exiting]⟩)
  | storeRunning =>
    obtain ⟨hw, -⟩ := next_storeRunning hn
    exact .inr (.inl ⟨by simp [hw], by simp [hw, WorkerPc.Exiting]⟩)
  | loopTest =>
    obtain ⟨hw, -⟩ := next_loopTest hn
    exact .inr (.inl ⟨by simp [hw], by simp [hw, WorkerPc.Exiting]⟩)
  | scan now =>
    obtain ⟨hw, -⟩ := next_scan hn
    exact .inr (.inl ⟨by simp [hw], by simp [hw, WorkerPc.Exiting]⟩)
  | waitReturn evs =>
    obtain ⟨⟨_, _, _, hw⟩, -⟩ := next_waitReturn hn
    exact .inr (.inl ⟨by simp [hw], by simp [hw, WorkerPc.Exiting]⟩)
  | drain =>
    obtain ⟨_, hw, -⟩ := next_drain hn
    exact .inr (.inl ⟨by simp [hw], by simp [hw, WorkerPc.Exiting]⟩)
  | readData now errq data =>
    obtain ⟨_, _, hw, -⟩ := next_readData hn
    exact .inr (.inl ⟨by simp [hw], by simp [hw, WorkerPc.Exiting]⟩)
  | checkTimeouts now =>
    obtain ⟨hw, -⟩ := next_checkTimeouts hn
    exact .inr (.inl ⟨by simp [hw], by simp [hw, WorkerPc.Exiting]⟩)
  | sendCallbacks =>
    obtain ⟨hw, -⟩ := next_sendCallbacks hn
    exact .inr (.inl ⟨by simp [hw], by simp [hw, WorkerPc.Exiting]⟩)
  | cleanProbes =>
    obtain ⟨_, hw, -⟩ := next_cleanProbes hn
    exact .inr (.inl ⟨by simp [hw], by simp [hw, WorkerPc.Exiting]⟩)
  | forceTimeouts =>
    exact .inr (.inr ⟨by simp [(next_forceTimeouts hn).1, WorkerPc.Exiting], .inl rfl⟩)
  | finalClean =>
    exact .inr (.inr ⟨by simp [(next_finalClean hn).1, WorkerPc.Exiting], .inr (.inl rfl)⟩)
  | closeWakeup =>
    exact .inr (.inr ⟨by simp [(next_closeWakeup hn).1, WorkerPc.Exiting], .inr (.inr (.inl rfl))⟩)
  | closeEpoll =>
    exact .inr (.inr ⟨by simp [(next_closeEpoll hn).1, WorkerPc.Exiting], .inr (.inr (.inr rfl))⟩)
  | startReturns => obtain rfl := next_startReturns hn; exact .inl rfl
  | stopStore => obtain ⟨-, -, rfl⟩ := next_stopStore hn; exact .inl rfl
  | stopWake => obtain ⟨-, rfl⟩ := next_stopWake hn; exact .inl rfl
  | stopJoin => obtain ⟨-, -, rfl⟩ := next_stopJoin hn; exact .inl rfl
  | socket c args res =>
    obtain ⟨-, -, ⟨_, _, -, rfl⟩ | ⟨fd, -, -, rfl⟩⟩ := next_socket hn
    exacts [.inl (fatal_worker ..), .inl rfl]
  | transmit c b now r =>
    obtain ⟨fd, n, p, size, pat, -, rfl | ⟨q, -, rfl⟩ | ⟨q, -, rfl⟩⟩ := next_transmit hn
    exacts [.inl rfl, .inl (fatal_worker ..), .inl rfl]
  | addSocket c ok => obtain ⟨fd, n, p, -, rfl⟩ := next_addSocket hn; exact .inl rfl

/-- The four steps of the exit path keep the worker on it. -/
theorem exit_step_exiting (hn : s.next a = some t)
    (ha : a = .forceTimeouts ∨ a = .finalClean ∨ a = .closeWakeup ∨ a = .closeEpoll) :
    t.worker.Exiting := by
  rcases ha with rfl | rfl | rfl | rfl
  · obtain ⟨-, rfl⟩ := next_forceTimeouts hn; trivial
  · obtain ⟨-, rfl⟩ := next_finalClean hn; trivial
  · obtain ⟨-, rfl⟩ := next_closeWakeup hn; trivial
  · obtain ⟨-, rfl⟩ := next_closeEpoll hn; trivial

/-- The worker will not call `send_callbacks` again: it failed to set up, or it left its
loop. -/
def WorkerPc.Gone (w : WorkerPc) : Prop := w = .failed ∨ w.Exiting

theorem WorkerPc.Gone.next (hg : s.worker.Gone) (hn : s.next a = some t) : t.worker.Gone := by
  rcases worker_next hn with hw | ⟨hf, hx⟩ | ⟨-, ha⟩
  exacts [hw ▸ hg, absurd hg (not_or.2 ⟨hf, hx⟩), .inr (exit_step_exiting hn ha)]

/-! ## Serials nothing will deliver -/

/-- What a step does to serials: it hands out at most the next one, a serial a caller holds
afterwards was held by the same caller before or is the one handed out, and only
`send_callbacks` and the `FATAL_ERROR` paths log records, a path logging the serial its
caller holds or the one just handed out. -/
theorem serials_next (hn : s.next a = some t) :
    s.nextSerial ≤ t.nextSerial ∧
    (∀ c m p, (t.callers c).held = some (m, p) →
      m = s.nextSerial ∨ ∃ q, (s.callers c).held = some (m, q)) ∧
    (t.delivered = s.delivered ∨ s.worker = .sendCallbacks ∨
      ∃ m q, t.delivered = s.delivered ++ [(m, q)] ∧
        (m = s.nextSerial ∨ ∃ c p, (s.callers c).held = some (m, p))) := by
  have keep : ∀ c m p, (s.callers c).held = some (m, p) →
      m = s.nextSerial ∨ ∃ q, (s.callers c).held = some (m, q) := fun _ _ p hc => .inr ⟨p, hc⟩
  have drop : ∀ {v : CallerPc} {c : Nat}, v.held = none → ∀ d m p,
      (Function.update s.callers c v d).held = some (m, p) →
        m = s.nextSerial ∨ ∃ q, (s.callers d).held = some (m, q) :=
    fun hv d m p hd => .inr ⟨p, (CallerPc.held_update_none hd hv).2⟩
  have dropFatal : ∀ u : Engine, u.callers = s.callers → ∀ c m q d k p,
      ((u.fatal c m q).callers d).held = some (k, p) →
        k = s.nextSerial ∨ ∃ q, (s.callers d).held = some (k, q) := by
    intro u hu c m q d k p hd
    obtain ⟨v, hv, hcal⟩ := fatal_callers u c m q
    rw [hcal, hu] at hd
    exact drop (by rcases hv with rfl | rfl <;> rfl) d k p hd
  cases a with
  | socket c args res =>
    obtain ⟨-, -, ⟨_, _, -, rfl⟩ | ⟨fd, -, -, rfl⟩⟩ := next_socket hn
    · refine ⟨by simp, dropFatal { s with nextSerial := s.nextSerial + 1 } rfl c _ _, ?_⟩
      rcases fatal_delivered { s with nextSerial := s.nextSerial + 1 } c s.nextSerial _ with hd | hd
      exacts [.inl hd, .inr (.inr ⟨_, _, hd, .inl rfl⟩)]
    · refine ⟨Nat.le_succ _, fun d m p hd => ?_, .inl rfl⟩
      simp only [Function.update_apply] at hd
      split_ifs at hd
      · simp only [CallerPc.held, Option.some.injEq, Prod.mk.injEq] at hd
        exact .inl hd.1.symm
      · exact keep d m p hd
  | transmit c b now r =>
    obtain ⟨fd, m, p, size, pat, hc, rfl | ⟨q, -, rfl⟩ | ⟨q, -, rfl⟩⟩ := next_transmit hn
    · exact ⟨le_rfl, drop rfl, .inl rfl⟩
    · refine ⟨by simp [Engine.close], dropFatal (s.close fd) rfl c m q, ?_⟩
      rcases fatal_delivered (s.close fd) c m q with hd | hd
      exacts [.inl hd, .inr (.inr ⟨_, _, hd, .inr ⟨c, p, by simp [hc, CallerPc.held]⟩⟩)]
    · refine ⟨le_rfl, fun d k q' hd => ?_, .inl rfl⟩
      simp only [Function.update_apply] at hd
      split_ifs at hd with hdc
      · subst hdc
        simp only [CallerPc.held, Option.some.injEq, Prod.mk.injEq] at hd
        exact .inr ⟨p, by simp [hc, CallerPc.held, hd.1]⟩
      · exact keep d k q' hd
  | addSocket c ok =>
    obtain ⟨fd, m, p, -, rfl⟩ := next_addSocket hn; exact ⟨le_rfl, drop rfl, .inl rfl⟩
  | sendCallbacks =>
    obtain ⟨hw, rfl⟩ := next_sendCallbacks hn
    refine ⟨?_, ?_, .inr (.inl hw)⟩ <;> unfold Engine.sendCallbacks <;> split
    exacts [le_rfl, le_rfl, keep, keep]
  | setup er wr ok =>
    obtain ⟨-, rfl | ⟨e, -, rfl⟩ | ⟨e, w, -, -, -, rfl⟩⟩ := setupEpoll_cases (next_setup hn) <;>
      exact ⟨le_rfl, keep, .inl rfl⟩
  | readData now errq data =>
    obtain ⟨_, _, -, -, rfl⟩ := next_readData hn; exact ⟨Nat.le_succ _, keep, .inl rfl⟩
  | storeRunning => obtain ⟨-, rfl⟩ := next_storeRunning hn; exact ⟨le_rfl, keep, .inl rfl⟩
  | loopTest => obtain ⟨-, rfl⟩ := next_loopTest hn; exact ⟨le_rfl, keep, .inl rfl⟩
  | scan now => obtain ⟨-, rfl⟩ := next_scan hn; exact ⟨le_rfl, keep, .inl rfl⟩
  | waitReturn evs => obtain ⟨-, -, rfl⟩ := next_waitReturn hn; exact ⟨le_rfl, keep, .inl rfl⟩
  | drain => obtain ⟨_, -, rfl⟩ := next_drain hn; exact ⟨le_rfl, keep, .inl rfl⟩
  | checkTimeouts now => obtain ⟨-, rfl⟩ := next_checkTimeouts hn; exact ⟨le_rfl, keep, .inl rfl⟩
  | cleanProbes => obtain ⟨_, -, rfl⟩ := next_cleanProbes hn; exact ⟨le_rfl, keep, .inl rfl⟩
  | forceTimeouts => obtain ⟨-, rfl⟩ := next_forceTimeouts hn; exact ⟨le_rfl, keep, .inl rfl⟩
  | finalClean => obtain ⟨-, rfl⟩ := next_finalClean hn; exact ⟨le_rfl, keep, .inl rfl⟩
  | closeWakeup => obtain ⟨-, rfl⟩ := next_closeWakeup hn; exact ⟨le_rfl, keep, .inl rfl⟩
  | closeEpoll => obtain ⟨-, rfl⟩ := next_closeEpoll hn; exact ⟨le_rfl, keep, .inl rfl⟩
  | startReturns => obtain rfl := next_startReturns hn; exact ⟨le_rfl, keep, .inl rfl⟩
  | stopStore => obtain ⟨-, -, rfl⟩ := next_stopStore hn; exact ⟨le_rfl, keep, .inl rfl⟩
  | stopWake => obtain ⟨-, rfl⟩ := next_stopWake hn; exact ⟨le_rfl, keep, .inl rfl⟩
  | stopJoin => obtain ⟨-, -, rfl⟩ := next_stopJoin hn; exact ⟨le_rfl, keep, .inl rfl⟩

/-- A serial below `nextSerial` that no caller holds is never handed out or held again. -/
theorem retired_next {n : Nat} (hlt : n < s.nextSerial)
    (hnh : ∀ c p, (s.callers c).held ≠ some (n, p)) (hn : s.next a = some t) :
    n < t.nextSerial ∧ ∀ c p, (t.callers c).held ≠ some (n, p) := by
  obtain ⟨hle, hheld, -⟩ := serials_next hn
  refine ⟨hlt.trans_le hle, fun c p hp => ?_⟩
  rcases hheld c n p hp with rfl | ⟨q, hq⟩
  exacts [lt_irrefl _ hlt, hnh c q hq]

/-- A serial that no step can log any more: the worker is gone, and the serial is not
logged, not held by a caller, and below every serial handed out from now on. -/
structure Stranded (n : Nat) (s : Engine) : Prop where
  gone : s.worker.Gone
  not_delivered : n ∉ s.delivered.map Prod.fst
  lt : n < s.nextSerial
  not_held : ∀ c p, (s.callers c).held ≠ some (n, p)

theorem Stranded.next {n : Nat} (h : Stranded n s) (hn : s.next a = some t) : Stranded n t := by
  obtain ⟨hlt, hnh⟩ := retired_next h.lt h.not_held hn
  refine ⟨h.gone.next hn, ?_, hlt, hnh⟩
  rcases (serials_next hn).2.2 with hd | hw | ⟨m, q, hd, hm⟩
  · exact hd ▸ h.not_delivered
  · exact absurd h.gone (by simp [hw, WorkerPc.Gone, WorkerPc.Exiting])
  · have hmn : m ≠ n := by
      rintro rfl
      rcases hm with rfl | ⟨c, p, hc⟩
      exacts [lt_irrefl _ h.lt, h.not_held c p hc]
    simpa [hd, Ne.symm hmn] using h.not_delivered

theorem Stranded.reaches {n : Nat} (h : Stranded n s) (hst : s.Reaches t) : Stranded n t := by
  induction hst with
  | refl => exact h
  | tail _ hstep ih => obtain ⟨a, ha⟩ := hstep; exact ih.next ha

/-- Past its loop, the worker leaves every record in the table stranded. -/
theorem Stranded.of_entry (hs : Reachable s) (hx : s.worker.Exiting) {fd : Int} {sl : Slot}
    (he : (fd, sl) ∈ s.probes.entries) : Stranded sl.serial s := by
  have h := hs.serialInv
  have hm := ProbeTable.serial_mem_serials he
  refine ⟨.inr hx, fun hd => ?_, h.table_lt _ hm, fun c p hc => (h.caller_fresh c _ p hc).1 hm⟩
  obtain ⟨B, hB, -⟩ := h.table_delivered fd sl he hd
  simp [hB, WorkerPc.Exiting] at hx

/-! ## `stop` with probes in flight -/

/-- `stop` while thread 0's probe is in flight and thread 1's `send_probe` is between
`sendto` and `add_socket`; thread 1's `add_socket` lands after the final `clean_probes`. -/
def stopRace : List Action :=
  inFlight ++ [.socket 1 echoArgs (.ok 6), .transmit 1 (.ok ()) {} (.ok ()), .stopStore,
    .stopWake, .loopTest, .forceTimeouts, .finalClean, .addSocket 1 true, .closeWakeup,
    .closeEpoll, .stopJoin]

/-- Once `stop` returns, both calls have returned `SEND_PROBE_SUCCESS`, neither record was
passed to the callback, and one record is still in the table. -/
theorem stop_loses_results :
    ((Engine.initial demoCfg).run stopRace).map
      (fun s => (s.stopper, s.callers 0, s.callers 1, s.delivered.length, getQueueSize s.probes)) =
    some (.joined, .returned sendProbeSuccess, .returned sendProbeSuccess, 0, 1) := by decide

/-- A record still in the table when the worker leaves its loop is never passed to the
callback: the exit path forces it to `TIMEOUT` and erases it without `send_callbacks`. -/
theorem loop_exit_strands {s t : Engine} (hs : Reachable s) (hw : s.worker = .forceTimeouts)
    {fd : Int} {sl : Slot} (he : (fd, sl) ∈ s.probes.entries) (hst : s.Reaches t) :
    sl.serial ∉ t.delivered.map Prod.fst :=
  ((Stranded.of_entry hs (by rw [hw]; trivial) he).reaches hst).not_delivered

/-- The engine when the worker has left its loop with the echo in flight. -/
def exitState : Engine :=
  ((Engine.initial demoCfg).run (inFlight ++ [.stopStore, .stopWake, .loopTest])).get
    (by decide)

/-- The same engine once `stop` has returned. -/
def joinedState : Engine :=
  (exitState.run [.forceTimeouts, .finalClean, .closeWakeup, .closeEpoll, .stopJoin]).get
    (by decide)

theorem loop_exit_strands_stop :
    Reachable exitState ∧ exitState.worker = .forceTimeouts ∧
    ((5 : Int), echoSlot) ∈ exitState.probes.entries ∧ exitState.Reaches joinedState ∧
    echoSlot.serial ∉ joinedState.delivered.map Prod.fst :=
  have hs : Reachable exitState := Reachable.run (Option.some_get _).symm
  have hw : exitState.worker = .forceTimeouts := by decide
  have he : ((5 : Int), echoSlot) ∈ exitState.probes.entries := by decide
  have hst : exitState.Reaches joinedState := reaches_of_run (Option.some_get _).symm
  ⟨hs, hw, he, hst, loop_exit_strands hs hw he hst⟩

/-! ## What `stop` leaves in the table -/

/-- The serials `N` the exit path reaps: the worker is past its loop, no caller holds one
of them or can be handed it, their records are `TIMEOUT` once `force_timeouts` has run and
gone once the final `clean_probes` has, and from then on every record left is
`WAITING`. -/
structure Reaped (N : List Nat) (s : Engine) : Prop where
  exiting : s.worker.Exiting
  lt : ∀ n ∈ N, n < s.nextSerial
  not_held : ∀ n ∈ N, ∀ c p, (s.callers c).held ≠ some (n, p)
  forced : s.worker = .finalClean → ∀ fd sl, (fd, sl) ∈ s.probes.entries → sl.serial ∈ N →
    ¬sl.Waiting
  erased : s.worker ≠ .forceTimeouts → s.worker ≠ .finalClean → ∀ n ∈ N, n ∉ s.probes.serials
  swept : s.worker ≠ .forceTimeouts → s.worker ≠ .finalClean →
    ∀ e ∈ s.probes.entries, e.2.Waiting

/-- A step that leaves the worker where it is. -/
theorem Reaped.keep {N : List Nat} (hf : FdInv s) (hi : SerialInv s) (h : Reaped N s)
    (hn : s.next a = some t) (hw : t.worker = s.worker) : Reaped N t := by
  have hr n (hn' : n ∈ N) := retired_next (h.lt n hn') (h.not_held n hn') hn
  have hx := h.exiting
  have mk := Reaped.mk (N := N) (s := t) (hw ▸ hx) (fun n hn' => (hr n hn').1)
    (fun n hn' => (hr n hn').2)
  rw [hw] at mk
  rcases probes_next hf hi hn with hp | ⟨_, -, hd, -⟩ | ⟨-, hd, -⟩ |
      ⟨_, _, _, _, _, -, hd, -⟩ | ⟨⟨_, hd⟩ | hd, hp⟩ | ⟨c, fd, sl, hc, hsw, hk, hp⟩
  · rw [hp] at mk
    exact mk h.forced h.erased h.swept
  · exact absurd (hd ▸ hx) (by simp [WorkerPc.Exiting])
  · exact mk (fun h' => by simp [hd] at h') (fun h' => absurd hd h') (fun h' => absurd hd h')
  · exact absurd (hd ▸ hx) (by simp [WorkerPc.Exiting])
  · exact absurd (hd ▸ hx) (by simp [WorkerPc.Exiting])
  · refine mk (fun _ fd sl he hsN => ?_) (fun _ h' => absurd hd h') (fun _ h' => absurd hd h')
    rw [hp] at he
    exact h.forced hd fd sl (mem_cleanProbes.1 he).1 hsN
  · have hne : sl.serial ∉ N := fun hm => h.not_held _ hm c sl.probe hc
    rw [hp] at mk
    refine mk (fun hf' fd' sl' he hsN => ?_) (fun h1 h2 n hn' => ?_) (fun h1 h2 e he => ?_)
    · rcases ProbeTable.mem_push.1 he with he | he
      · exact h.forced hf' fd' sl' he hsN
      · cases he
        exact absurd hsN hne
    · rw [ProbeTable.serials_push, List.mem_append, List.mem_singleton, not_or]
      exact ⟨h.erased h1 h2 n hn', fun e => hne (e ▸ hn')⟩
    · rcases ProbeTable.mem_push.1 he with he | rfl
      exacts [h.swept h1 h2 e he, hsw]

theorem Reaped.next {N : List Nat} (hf : FdInv s) (hi : SerialInv s) (h : Reaped N s)
    (hn : s.next a = some t) : Reaped N t := by
  have hr n (hn' : n ∈ N) := retired_next (h.lt n hn') (h.not_held n hn') hn
  have hlt n hn' := (hr n hn').1
  have hnh n hn' := (hr n hn').2
  rcases worker_next hn with hw | ⟨-, hx⟩ | ⟨-, rfl | rfl | rfl | rfl⟩
  · exact h.keep hf hi hn hw
  · exact absurd h.exiting hx
  · obtain ⟨-, rfl⟩ := next_forceTimeouts hn
    refine ⟨trivial, hlt, hnh, fun _ fd sl he _ => ?_, fun _ h' => absurd rfl h',
      fun _ h' => absurd rfl h'⟩
    obtain ⟨sl₀, -, rfl⟩ := ProbeTable.mem_mapSlots.1 he
    exact forceTimeout_not_waiting sl₀
  · obtain ⟨hw, rfl⟩ := next_finalClean hn
    refine ⟨trivial, hlt, hnh, (fun h' => by cases h'), fun _ _ n hn' hm => ?_,
      fun _ _ e he => (mem_cleanProbes.1 he).2⟩
    obtain ⟨fd, sl, he, rfl⟩ := ProbeTable.mem_serials.1 hm
    obtain ⟨he, hwt⟩ := mem_cleanProbes.1 he
    exact h.forced hw fd sl he hn' hwt
  · obtain ⟨hw, rfl⟩ := next_closeWakeup hn
    exact ⟨trivial, hlt, hnh, (fun h' => by cases h'), fun _ _ => h.erased (by simp [hw])
      (by simp [hw]), fun _ _ => h.swept (by simp [hw]) (by simp [hw])⟩
  · obtain ⟨hw, rfl⟩ := next_closeEpoll hn
    exact ⟨trivial, hlt, hnh, (fun h' => by cases h'), fun _ _ => h.erased (by simp [hw])
      (by simp [hw]), fun _ _ => h.swept (by simp [hw]) (by simp [hw])⟩

theorem Reaped.reaches {N : List Nat} (hs : Reachable s) (h : Reaped N s) (hst : s.Reaches t) :
    Reaped N t := by
  induction hst with
  | refl => exact h
  | @tail u v hsu huv ih =>
    obtain ⟨a, ha⟩ := huv
    have hu := hs.reaches hsu
    exact ih.next hu.phase_fd.2 hu.serialInv ha

/-- Once `stop` has returned, on a run where the worker left its loop: no record that was
in the table when it left is still there, and every record still there is `WAITING` and is
never passed to the callback. -/
theorem stop_leaves_late_records {s t : Engine} (hs : Reachable s)
    (hw : s.worker = .forceTimeouts) (hst : s.Reaches t) (hj : t.stopper = .joined) :
    (∀ fd sl, (fd, sl) ∈ s.probes.entries → sl.serial ∉ t.probes.serials) ∧
    (∀ fd sl, (fd, sl) ∈ t.probes.entries →
      sl.Waiting ∧ ∀ u, t.Reaches u → sl.serial ∉ u.delivered.map Prod.fst) := by
  have hi := hs.serialInv
  have ht := hs.reaches hst
  have h0 : Reaped s.probes.serials s :=
    ⟨by simp [hw, WorkerPc.Exiting], fun n hn => hi.table_lt n hn,
      fun n hn c p hc => (hi.caller_fresh c n p hc).1 hn, fun h' => by simp [hw] at h',
      fun h' => absurd hw h', fun h' => absurd hw h'⟩
  have h1 := h0.reaches hs hst
  have hdone : t.worker = .done := by
    rcases ht.phase_fd.1.joined_done hj with hd | hd
    · exact hd
    · exact absurd (hd ▸ h1.exiting) (by simp [WorkerPc.Exiting])
  have hw1 : t.worker ≠ .forceTimeouts := by simp [hdone]
  have hw2 : t.worker ≠ .finalClean := by simp [hdone]
  exact ⟨fun _ _ he => h1.erased hw1 hw2 _ (ProbeTable.serial_mem_serials he),
    fun _ _ he => ⟨h1.swept hw1 hw2 _ he,
      fun _ hu => ((Stranded.of_entry ht h1.exiting he).reaches hu).not_delivered⟩⟩

/-- The run of `stopRace` when the worker leaves its loop, with thread 1 between `sendto`
and `add_socket`. -/
def raceExit : Engine :=
  ((Engine.initial demoCfg).run (inFlight ++ [.socket 1 echoArgs (.ok 6),
    .transmit 1 (.ok ()) {} (.ok ()), .stopStore, .stopWake, .loopTest])).get (by decide)

/-- The same run once `stop` has returned. -/
def raceJoined : Engine :=
  (raceExit.run [.forceTimeouts, .finalClean, .addSocket 1 true, .closeWakeup, .closeEpoll,
    .stopJoin]).get (by decide)

theorem stop_leaves_late_records_race :
    Reachable raceExit ∧ raceExit.worker = .forceTimeouts ∧ raceExit.Reaches raceJoined ∧
    raceJoined.stopper = .joined ∧
    (∀ fd sl, (fd, sl) ∈ raceExit.probes.entries → sl.serial ∉ raceJoined.probes.serials) ∧
    (∀ fd sl, (fd, sl) ∈ raceJoined.probes.entries →
      sl.Waiting ∧ ∀ u, raceJoined.Reaches u → sl.serial ∉ u.delivered.map Prod.fst) :=
  have hs : Reachable raceExit := Reachable.run (Option.some_get _).symm
  have hw : raceExit.worker = .forceTimeouts := by decide
  have hst : raceExit.Reaches raceJoined := reaches_of_run (Option.some_get _).symm
  have hj : raceJoined.stopper = .joined := by decide
  ⟨hs, hw, hst, hj, stop_leaves_late_records hs hw hst hj⟩

/-! ## A worker that failed to set up -/

/-- A worker whose `epoll_create1` fails, then one `send_probe` whose calls succeed. -/
def failedAccept : List Action :=
  [.setup none none true, .startReturns, .socket 0 echoArgs (.ok 5),
   .transmit 0 (.ok ()) {} (.ok ()), .addSocket 0 true]

/-- `send_probe` on an engine whose worker failed returns `SEND_PROBE_SUCCESS`, calls no
callback and leaves a record in the table. -/
theorem failed_setup_accepts :
    ((Engine.initial demoCfg).run failedAccept).map
      (fun s => (s.worker, s.callers 0, getQueueSize s.probes, s.delivered.length)) =
    some (.failed, .returned sendProbeSuccess, 1, 0) := by decide

/-- With the worker failed, table entries stay where they are. -/
theorem failed_entries_stay {e : Int × Slot} (hs : Reachable s) (hw : s.worker = .failed)
    (he : e ∈ s.probes.entries) (hst : s.Reaches t) :
    t.worker = .failed ∧ e ∈ t.probes.entries := by
  induction hst with
  | refl => exact ⟨hw, he⟩
  | @tail u v hsu huv ih =>
    obtain ⟨a, ha⟩ := huv
    obtain ⟨hwu, heu⟩ := ih
    have hu := hs.reaches hsu
    have hwv : v.worker = .failed := by
      rcases worker_next ha with h | ⟨h, -⟩ | ⟨hx, -⟩
      exacts [h.trans hwu, absurd hwu h, absurd (hwu ▸ hx) (by simp [WorkerPc.Exiting])]
    refine ⟨hwv, ?_⟩
    rcases probes_next hu.phase_fd.2 hu.serialInv ha with ht | ⟨_, -, hd, -⟩ | ⟨-, hd, -⟩ |
        ⟨_, _, _, _, _, -, hd, -⟩ | ⟨⟨_, hd⟩ | hd, -⟩ | ⟨_, _, _, -, -, _, ht⟩ <;>
      (try rw [hwu] at hd; exact absurd hd (by simp))
    · exact ht ▸ heu
    · rw [ht]; exact ProbeTable.mem_push.2 (.inl heu)

/-- On an engine whose worker failed to set up, a `send_probe` that returns
`SEND_PROBE_SUCCESS` leaves its `WAITING` record in the table, never passed to the
callback, however the run goes on. -/
theorem failed_worker_strands_probe {s t u : Engine} (hs : Reachable s)
    (hw : s.worker = .failed) {c : Nat} {ok : Bool} (hn : s.next (.addSocket c ok) = some t)
    (hu : t.Reaches u) :
    t.callers c = .returned sendProbeSuccess ∧
    ∃ fd n p, s.callers c = .sent fd n p ∧ p.status = .waiting ∧
      (fd, ⟨p, n⟩) ∈ u.probes.entries ∧ n ∉ u.delivered.map Prod.fst := by
  have h := hs.serialInv
  obtain ⟨fd, n, p, hc, ht⟩ := next_addSocket hn
  have hheld : (s.callers c).held = some (n, p) := by simp [hc, CallerPc.held]
  have hk := (hs.phase_fd.2.caller_fd c fd (by simp [hc, CallerPc.fd?])).2.1
  have hstr : Stranded n t :=
    { gone := .inl (by rw [ht]; exact hw)
      not_delivered := by rw [ht]; exact (h.caller_fresh c n p hheld).2
      lt := by rw [ht]; exact h.caller_lt c n p hheld
      not_held := fun d q hd => by
        rw [ht] at hd
        obtain ⟨hdc, hd⟩ := CallerPc.held_update_none hd rfl
        exact hdc (h.caller_unique d c n q p hd hheld) }
  have he : (fd, (⟨p, n⟩ : Slot)) ∈ t.probes.entries := by
    rw [ht]
    show (fd, ⟨p, n⟩) ∈ (s.probes.assign fd ⟨p, n⟩).entries
    rw [ProbeTable.assign_eq_push hk]
    exact ProbeTable.mem_push.2 (.inr rfl)
  refine ⟨by rw [ht]; simp, fd, n, p, hc, h.caller_waiting c n p hheld,
    (failed_entries_stay (.step _ hs hn) (by rw [ht]; exact hw) he hu).2,
    (hstr.reaches hu).not_delivered⟩

/-- The engine of that run just before `add_socket`. -/
def failedSent : Engine := ((Engine.initial demoCfg).run (failedAccept.take 4)).get (by decide)

/-- Its `add_socket`. -/
def failedAccepted : Engine := (failedSent.next (.addSocket 0 true)).get (by decide)

/-- And the engine once `stop` has returned. -/
def failedJoined : Engine :=
  (failedAccepted.run [.stopStore, .stopWake, .stopJoin]).get (by decide)

theorem failed_worker_strands_probe_stop :
    Reachable failedSent ∧ failedSent.worker = .failed ∧
    failedSent.next (.addSocket 0 true) = some failedAccepted ∧
    failedAccepted.Reaches failedJoined ∧
    (failedAccepted.callers 0 = .returned sendProbeSuccess ∧
      ∃ fd n p, failedSent.callers 0 = .sent fd n p ∧ p.status = .waiting ∧
        (fd, ⟨p, n⟩) ∈ failedJoined.probes.entries ∧
        n ∉ failedJoined.delivered.map Prod.fst) :=
  have hs : Reachable failedSent := Reachable.run (Option.some_get _).symm
  have hw : failedSent.worker = .failed := by decide
  have hn : failedSent.next (.addSocket 0 true) = some failedAccepted :=
    (Option.some_get _).symm
  have hu : failedAccepted.Reaches failedJoined := reaches_of_run (Option.some_get _).symm
  ⟨hs, hw, hn, hu, failed_worker_strands_probe hs hw hn hu⟩

/-! ## `stop` before the worker is ready -/

/-- The worker in its loop with `running` stored back to `true` after `stop` stored `false`
and went on to wait for the join. -/
structure Stuck (s : Engine) : Prop where
  running : s.running = true
  stopper : s.stopper = .woke
  loop : s.worker.InLoop

theorem Stuck.next (h : Stuck s) (hn : s.next a = some t) : Stuck t := by
  have hr := h.running
  have hs := h.stopper
  have hl := h.loop
  cases a with
  | loopTest =>
    obtain ⟨-, rfl⟩ := next_loopTest hn
    exact ⟨hr, hs, by simp [hr, WorkerPc.InLoop]⟩
  | scan now => obtain ⟨-, rfl⟩ := next_scan hn; exact ⟨hr, hs, trivial⟩
  | waitReturn evs => obtain ⟨-, -, rfl⟩ := next_waitReturn hn; exact ⟨hr, hs, trivial⟩
  | drain => obtain ⟨_, -, rfl⟩ := next_drain hn; exact ⟨hr, hs, trivial⟩
  | readData now errq data => obtain ⟨_, _, -, -, rfl⟩ := next_readData hn; exact ⟨hr, hs, trivial⟩
  | checkTimeouts now => obtain ⟨-, rfl⟩ := next_checkTimeouts hn; exact ⟨hr, hs, trivial⟩
  | sendCallbacks =>
    obtain ⟨-, rfl⟩ := next_sendCallbacks hn
    unfold Engine.sendCallbacks
    split
    exacts [⟨hr, hs, hl⟩, ⟨hr, hs, trivial⟩]
  | cleanProbes => obtain ⟨_, -, rfl⟩ := next_cleanProbes hn; exact ⟨hr, hs, trivial⟩
  | startReturns => obtain rfl := next_startReturns hn; exact ⟨hr, hs, hl⟩
  | socket c args res =>
    obtain ⟨-, -, ⟨_, _, -, rfl⟩ | ⟨fd, -, -, rfl⟩⟩ := next_socket hn
    exacts [⟨by simpa using hr, by simpa using hs, by simpa using hl⟩, ⟨hr, hs, hl⟩]
  | transmit c b now r =>
    obtain ⟨fd, n, p, size, pat, -, rfl | ⟨q, -, rfl⟩ | ⟨q, -, rfl⟩⟩ := next_transmit hn
    exacts [⟨hr, hs, hl⟩, ⟨by simpa using hr, by simpa using hs, by simpa using hl⟩,
      ⟨hr, hs, hl⟩]
  | addSocket c ok => obtain ⟨fd, n, p, -, rfl⟩ := next_addSocket hn; exact ⟨hr, hs, hl⟩
  | setup er wr ok =>
    obtain ⟨hw, -⟩ := setupEpoll_cases (next_setup hn)
    simp [hw, WorkerPc.InLoop] at hl
  | storeRunning => obtain ⟨hw, -⟩ := next_storeRunning hn; simp [hw, WorkerPc.InLoop] at hl
  | forceTimeouts => obtain ⟨hw, -⟩ := next_forceTimeouts hn; simp [hw, WorkerPc.InLoop] at hl
  | finalClean => obtain ⟨hw, -⟩ := next_finalClean hn; simp [hw, WorkerPc.InLoop] at hl
  | closeWakeup => obtain ⟨hw, -⟩ := next_closeWakeup hn; simp [hw, WorkerPc.InLoop] at hl
  | closeEpoll => obtain ⟨hw, -⟩ := next_closeEpoll hn; simp [hw, WorkerPc.InLoop] at hl
  | stopStore => obtain ⟨-, hi, -⟩ := next_stopStore hn; simp [hs] at hi
  | stopWake => obtain ⟨hi, -⟩ := next_stopWake hn; simp [hs] at hi
  | stopJoin =>
    obtain ⟨-, hw, -⟩ := next_stopJoin hn
    rcases hw with hw | hw <;> simp [hw, WorkerPc.InLoop] at hl

theorem Stuck.reaches (h : Stuck s) (hst : s.Reaches t) : Stuck t := by
  induction hst with
  | refl => exact h
  | tail _ hstep ih => obtain ⟨a, ha⟩ := hstep; exact ih.next ha

/-- `start` gives up before the worker is ready and `stop` runs at once: its token goes
to `wakeup_fd = -1`. The worker then sets up, stores `running = true`, and scans an empty
table. -/
def lateSetup : List Action :=
  [.startReturns, .stopStore, .stopWake, .setup (some 3) (some 4) true, .storeRunning,
   .loopTest, .scan {}]

/-- The engine once the worker has scanned its empty table after that late setup. -/
def lateSetupState : Engine := ((Engine.initial demoCfg).run lateSetup).get (by decide)

/-- After `stop` stored `running = false`, the worker stored `true` again and blocks with
no bound and no token; from there no run lets `stop`'s join return. -/
theorem stop_before_setup_hangs :
    Reachable lateSetupState ∧ lateSetupState.running = true ∧
    lateSetupState.stopper = .woke ∧ lateSetupState.counter = 0 ∧
    lateSetupState.worker = .wait (-1) {} [] ∧
    ∀ t, lateSetupState.Reaches t → t.running = true ∧ t.stopper ≠ .joined := by
  have hr : lateSetupState.running = true := by decide
  have hs : lateSetupState.stopper = .woke := by decide
  have hw : lateSetupState.worker = .wait (-1) {} [] := by decide
  refine ⟨Reachable.run (Option.some_get _).symm, hr, hs, by decide, hw, fun t ht => ?_⟩
  have h := Stuck.reaches ⟨hr, hs, by simp [hw, WorkerPc.InLoop]⟩ ht
  exact ⟨h.running, by simp [h.stopper]⟩

end Icmpenguin
