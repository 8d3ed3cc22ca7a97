import Icmpenguin.Lifecycle
import Icmpenguin.Callback

/-!
# Icmpenguin — the status of a record over a run

A record is created `WAITING` by `send_probe` and leaves `WAITING` once: in `read_data`
when its socket is readable, in `check_timeouts` or `force_timeouts`, or on a
`FATAL_ERROR` path before it reaches the table. `StatusInv` says where terminal records
can be: the callback is only ever given terminal records; outside the stretch of an
iteration from `read_data` to `clean_probes` (and the final sweep) the table holds only
`WAITING` records; and the descriptors `epoll_wait` returned that the worker has not yet
handled have `WAITING` records.

From it: `read_data` only ever writes a `WAITING` record, so a result, once reached, is
never written again, and stays in the table as it is until `clean_probes` erases it.
-/

namespace Icmpenguin

open Engine

/-- The worker's places outside the stretch from `read_data` to `clean_probes` and outside
the final `force_timeouts` sweep. -/
def WorkerPc.Quiet : WorkerPc → Prop
  | .dispatch _ | .checkTimeouts | .sendCallbacks | .cleanProbes _ | .finalClean => False
  | _ => True

/-! ## Where terminal records are -/

/-- Where a record that has left `WAITING` can be. -/
structure StatusInv (s : Engine) : Prop where
  /-- The callback is only given terminal records. -/
  delivered : ∀ e ∈ s.delivered, e.2.status ≠ .waiting
  /-- Outside `read_data` … `clean_probes`, every record in the table is `WAITING`. -/
  quiet : s.worker.Quiet → ∀ e ∈ s.probes.entries, e.2.Waiting
  /-- The descriptors still to handle have `WAITING` records. -/
  pending : ∀ evs, s.worker = .dispatch evs → ∀ fd ∈ evs, ∀ sl,
    (fd, sl) ∈ s.probes.entries → sl.Waiting

theorem StatusInv.initial (cfg : Config) : StatusInv (Engine.initial cfg) where
  delivered e h := by simp [Engine.initial] at h
  quiet _ e h := by simp [Engine.initial, ProbeTable.empty] at h
  pending evs h := by simp [Engine.initial] at h

variable {s t : Engine}

/-- A state whose table holds only `WAITING` records. -/
theorem StatusInv.of_all_waiting (h : StatusInv s)
    (hd : ∀ e ∈ t.delivered, e ∈ s.delivered ∨ e.2.status ≠ .waiting)
    (hall : ∀ e ∈ t.probes.entries, e.2.Waiting) : StatusInv t where
  delivered e he := (hd e he).elim (h.delivered e) id
  quiet _ := hall
  pending _ _ _ _ _ hsl := hall _ hsl

/-- A worker place inside an iteration's delivery stretch, where only the log is watched. -/
theorem StatusInv.of_busy (h : StatusInv s)
    (hd : ∀ e ∈ t.delivered, e ∈ s.delivered ∨ e.2.status ≠ .waiting)
    (hq : ¬t.worker.Quiet) (hnd : ∀ evs, t.worker ≠ .dispatch evs) : StatusInv t where
  delivered e he := (hd e he).elim (h.delivered e) id
  quiet hq' := absurd hq' hq
  pending evs hw := absurd hw (hnd evs)

/-- Steps of other threads: the worker stays where it is, the table only gains `WAITING`
records, and only terminal records are logged. -/
theorem StatusInv.frame (h : StatusInv s) (hw : t.worker = s.worker)
    (hp : ∀ e ∈ t.probes.entries, e ∈ s.probes.entries ∨ e.2.Waiting)
    (hd : ∀ e ∈ t.delivered, e ∈ s.delivered ∨ e.2.status ≠ .waiting) : StatusInv t where
  delivered e he := (hd e he).elim (h.delivered e) id
  quiet hq e he := (hp e he).elim (h.quiet (hw ▸ hq) e) id
  pending evs hev fd hfd sl hsl :=
    (hp _ hsl).elim (h.pending evs (hw ▸ hev) fd hfd sl) id

/-- A `FATAL_ERROR` path logs a record that has left `WAITING`. -/
theorem StatusInv.fatal (h : StatusInv s) {c n : Nat} {q : ProbeContext}
    (hq : q.status = .fatalError) : StatusInv (s.fatal c n q) := by
  refine h.frame (fatal_worker ..) (fun e he => .inl (by rwa [fatal_probes] at he))
    fun e he => ?_
  rcases fatal_delivered s c n q with hd | hd <;> rw [hd] at he
  · exact .inl he
  · rcases List.mem_append.1 he with he | he
    · exact .inl he
    · rw [List.mem_singleton.1 he, hq]; exact .inr (by decide)

theorem StatusInv.next {a : Action} (hf : FdInv s) (hi : SerialInv s) (h : StatusInv s)
    (hn : s.next a = some t) : StatusInv t := by
  have same : ∀ u : Engine, u.probes = s.probes →
      ∀ e ∈ u.probes.entries, e ∈ s.probes.entries ∨ e.2.Waiting :=
    fun u hu e he => .inl (hu ▸ he)
  have keep : ∀ u : Engine, u.delivered = s.delivered →
      ∀ e ∈ u.delivered, e ∈ s.delivered ∨ e.2.status ≠ .waiting :=
    fun u hu e he => .inl (hu ▸ he)
  have quietAll : s.worker.Quiet → ∀ u : Engine, u.probes = s.probes →
      ∀ e ∈ u.probes.entries, e.2.Waiting :=
    fun hq u hu e he => h.quiet hq e (hu ▸ he)
  have cleanAll : ∀ e ∈ (Icmpenguin.cleanProbes s.probes).entries, e.2.Waiting :=
    fun e he => (mem_cleanProbes.1 he).2
  cases a with
  | setup er wr ok =>
    obtain ⟨hw, rfl | ⟨e, -, rfl⟩ | ⟨e, w, -, -, -, rfl⟩⟩ := setupEpoll_cases (next_setup hn) <;>
      exact h.of_all_waiting (keep _ rfl) (quietAll (by rw [hw]; trivial) _ rfl)
  | storeRunning =>
    obtain ⟨hw, rfl⟩ := next_storeRunning hn
    exact h.of_all_waiting (keep _ rfl) (quietAll (by rw [hw]; trivial) _ rfl)
  | loopTest =>
    obtain ⟨hw, rfl⟩ := next_loopTest hn
    exact h.of_all_waiting (keep _ rfl) (quietAll (by rw [hw]; trivial) _ rfl)
  | scan now =>
    obtain ⟨hw, rfl⟩ := next_scan hn
    exact h.of_all_waiting (keep _ rfl) (quietAll (by rw [hw]; trivial) _ rfl)
  | waitReturn evs =>
    obtain ⟨⟨w, t0, seen, hw⟩, -, rfl⟩ := next_waitReturn hn
    exact h.of_all_waiting (keep _ rfl) (quietAll (by rw [hw]; trivial) _ rfl)
  | drain =>
    obtain ⟨evs, hw, rfl⟩ := next_drain hn
    exact { delivered := h.delivered, quiet := fun hq => absurd hq id
            pending := fun evs' hev fd hfd sl hsl => by
              cases hev
              exact h.pending _ hw fd (List.mem_cons_of_mem _ hfd) sl hsl }
  | readData now errq data =>
    obtain ⟨e, evs, hw, hne, rfl⟩ := next_readData hn
    obtain ⟨hnd, hk⟩ := hf.dispatch_keys _ hw
    have hfresh : e ∉ evs := (List.nodup_cons.1 hnd).1
    refine { delivered := h.delivered, quiet := fun hq => absurd hq id
             pending := fun evs' hev fd hfd sl hsl => ?_ }
    cases hev
    rw [ProbeTable.modify_eq_update (hk e (List.mem_cons_self _ _) hne),
      ProbeTable.mem_update] at hsl
    obtain ⟨sl₀, hsl₀, rfl⟩ := hsl
    rw [if_neg (fun hfe : fd = e => hfresh (hfe ▸ hfd))]
    exact h.pending _ hw fd (List.mem_cons_of_mem _ hfd) sl₀ hsl₀
  | checkTimeouts now =>
    obtain ⟨-, rfl⟩ := next_checkTimeouts hn
    exact h.of_busy (keep _ rfl) id (fun _ => WorkerPc.noConfusion)
  | sendCallbacks =>
    obtain ⟨hw, rfl⟩ := next_sendCallbacks hn
    unfold Engine.sendCallbacks
    split
    · exact h.frame rfl (same _ rfl) (keep _ rfl)
    · refine h.of_busy (fun e he => ?_) id (fun _ => WorkerPc.noConfusion)
      rcases List.mem_append.1 he with he | he
      · exact .inl he
      · obtain ⟨e', he', rfl⟩ := List.mem_map.1 he
        exact .inr (mem_terminal.1 he').2
  | cleanProbes =>
    obtain ⟨-, -, rfl⟩ := next_cleanProbes hn
    exact h.of_all_waiting (keep _ rfl) cleanAll
  | forceTimeouts =>
    obtain ⟨-, rfl⟩ := next_forceTimeouts hn
    exact h.of_busy (keep _ rfl) id (fun _ => WorkerPc.noConfusion)
  | finalClean =>
    obtain ⟨-, rfl⟩ := next_finalClean hn
    exact h.of_all_waiting (keep _ rfl) cleanAll
  | closeWakeup =>
    obtain ⟨hw, rfl⟩ := next_closeWakeup hn
    exact h.of_all_waiting (keep _ rfl) (quietAll (by rw [hw]; trivial) _ rfl)
  | closeEpoll =>
    obtain ⟨hw, rfl⟩ := next_closeEpoll hn
    exact h.of_all_waiting (keep _ rfl) (quietAll (by rw [hw]; trivial) _ rfl)
  | startReturns =>
    obtain rfl := next_startReturns hn
    exact h.frame rfl (same _ rfl) (keep _ rfl)
  | stopStore =>
    obtain ⟨-, -, rfl⟩ := next_stopStore hn
    exact h.frame rfl (same _ rfl) (keep _ rfl)
  | stopWake =>
    obtain ⟨-, rfl⟩ := next_stopWake hn
    exact h.frame rfl (same _ rfl) (keep _ rfl)
  | stopJoin =>
    obtain ⟨-, -, rfl⟩ := next_stopJoin hn
    exact h.frame rfl (same _ rfl) (keep _ rfl)
  | socket c args res =>
    obtain ⟨-, -, ⟨_, _, -, rfl⟩ | ⟨fd, -, -, rfl⟩⟩ := next_socket hn
    · refine (h.frame (t := { s with nextSerial := s.nextSerial + 1 }) rfl (same _ rfl) (keep _ rfl)).fatal ?_
      rfl
    · exact h.frame rfl (same _ rfl) (keep _ rfl)
  | transmit c b now r =>
    obtain ⟨fd, n, p, size, pat, -, rfl | ⟨q, hq, rfl⟩ | ⟨q, -, rfl⟩⟩ := next_transmit hn
    · exact h.frame rfl (same _ rfl) (keep _ rfl)
    · exact (h.frame (t := s.close fd) rfl (same _ rfl) (keep _ rfl)).fatal hq
    · exact h.frame rfl (same _ rfl) (keep _ rfl)
  | addSocket c ok =>
    obtain ⟨fd, n, p, hc, rfl⟩ := next_addSocket hn
    have hk := (hf.caller_fd c fd (by simp [hc, CallerPc.fd?])).2.1
    have hwait := hi.caller_waiting c n p (by simp [hc, CallerPc.held])
    refine h.frame rfl (fun e he => ?_) (keep _ rfl)
    rw [ProbeTable.assign_eq_push hk, ProbeTable.mem_push] at he
    rcases he with he | rfl
    exacts [.inl he, .inr hwait]

theorem Reachable.statusInv {s : Engine} (hs : Reachable s) : StatusInv s := by
  induction hs with
  | initial cfg => exact .initial cfg
  | step _ hs hn ih => exact ih.next hs.phase_fd.2 hs.serialInv hn

/-! ## What the callback is given -/

/-- Every record `trigger_callback` is given, by `send_callbacks` or on a `FATAL_ERROR`
path of `send_probe`, has left `WAITING`, so every call builds a result object: the
`default` branch that logs "Unknown probe status" is never taken. Outside the stretch from
`read_data` to `clean_probes`, in particular whenever the worker computes its wait bound
and once it has left its loop, every record in the table is `WAITING`. -/
theorem callback_gets_result {s : Engine} (hs : Reachable s) :
    (∀ e ∈ s.delivered, (triggerCallback e.2).isSome) ∧
    (s.worker.Quiet → ∀ e ∈ s.probes.entries, e.2.Waiting) :=
  ⟨fun e he => (triggerCallback_isSome e.2).2 (hs.statusInv.delivered e he), hs.statusInv.quiet⟩

theorem callback_gets_result_reply :
    Reachable replyBatchState ∧
    (∀ e ∈ replyBatchState.delivered, (triggerCallback e.2).isSome) ∧
    (replyBatchState.worker.Quiet → ∀ e ∈ replyBatchState.probes.entries, e.2.Waiting) :=
  have hs : Reachable replyBatchState := Reachable.run (Option.some_get _).symm
  ⟨hs, callback_gets_result hs⟩

/-! ## A result is final -/

/-- The entry `e` is the only one its serial can ever have: its serial is handed out, no
caller holds it, and the table holds it only as `e`. -/
structure Settled (e : Int × Slot) (s : Engine) : Prop where
  lt : e.2.serial < s.nextSerial
  not_held : ∀ c p, (s.callers c).held ≠ some (e.2.serial, p)
  only : ∀ e' ∈ s.probes.entries, e'.2.serial = e.2.serial → e' = e

theorem Settled.of_entry (hs : Reachable s) {e : Int × Slot} (he : e ∈ s.probes.entries) :
    Settled e s := by
  have h := hs.serialInv
  have hm := ProbeTable.serial_mem_serials he
  exact ⟨h.table_lt _ hm, fun c p hc => (h.caller_fresh c _ p hc).1 hm,
    fun e' he' hse => ProbeTable.entry_unique_serial h.table_nodup he' he hse⟩

/-- No step rewrites a terminal record: `check_timeouts` and `force_timeouts` leave it,
`read_data` is only handed `WAITING` records, and `add_socket` stores a fresh serial. -/
theorem Settled.next {a : Action} (hs : Reachable s) {fd : Int} {sl : Slot}
    (h : Settled (fd, sl) s) (hw : ¬sl.Waiting) (hn : s.next a = some t) :
    Settled (fd, sl) t := by
  obtain ⟨hlt, hnh⟩ := retired_next h.lt h.not_held hn
  refine ⟨hlt, hnh, fun ⟨k, sl'⟩ he hse => ?_⟩
  rcases probes_next hs.phase_fd.2 hs.serialInv hn with ht | ⟨now, -, -, ht⟩ | ⟨-, -, ht⟩ |
      ⟨_, _, _, e, evs, -, hwd, ht⟩ | ⟨-, ht⟩ | ⟨c, k', slp, hc, -, _, ht⟩ <;> rw [ht] at he
  · exact h.only _ he hse
  · obtain ⟨sl₀, he₀, rfl⟩ := ProbeTable.mem_mapSlots.1 he
    obtain ⟨rfl, rfl⟩ := Prod.mk.inj (h.only _ he₀ (by simpa using hse))
    rw [checkTimeout_of_not_waiting hw]
  · obtain ⟨sl₀, he₀, rfl⟩ := ProbeTable.mem_mapSlots.1 he
    obtain ⟨rfl, rfl⟩ := Prod.mk.inj (h.only _ he₀ (by simpa using hse))
    rw [forceTimeout_of_not_waiting hw]
  · obtain ⟨sl₀, he₀, rfl⟩ := ProbeTable.mem_update.1 he
    have hse₀ : sl₀.serial = sl.serial := by split_ifs at hse <;> exact hse
    obtain ⟨rfl, rfl⟩ := Prod.mk.inj (h.only _ he₀ hse₀)
    rw [if_neg fun hke : k = e => hw (hs.statusInv.pending _ hwd _ (hke ▸ List.mem_cons_self _ _) _ he₀)]
  · exact h.only _ (mem_cleanProbes.1 he).1 hse
  · rcases ProbeTable.mem_push.1 he with he | he
    · exact h.only _ he hse
    · obtain ⟨-, rfl⟩ := Prod.mk.inj he
      exact absurd (hse ▸ hc) (h.not_held c _)

/-- A result, once reached, is final. From a state whose table holds the terminal record
`sl` at `fd`, in every state a run reaches the only table entry with `sl`'s serial is
`(fd, sl)`, as it was: no later `read_data`, `check_timeouts` or `force_timeouts` rewrites
it, and once `clean_probes` has erased it no entry has its serial again. -/
theorem result_never_rewritten {s u : Engine} (hs : Reachable s) (hsu : s.Reaches u)
    {fd : Int} {sl : Slot} (he : (fd, sl) ∈ s.probes.entries) (hw : ¬sl.Waiting) :
    ∀ e ∈ u.probes.entries, e.2.serial = sl.serial → e = (fd, sl) := by
  have key : Reachable u ∧ Settled (fd, sl) u := by
    induction hsu with
    | refl => exact ⟨hs, .of_entry hs he⟩
    | tail _ hstep ih =>
      obtain ⟨a, ha⟩ := hstep
      exact ⟨.step a ih.1 ha, ih.2.next ih.1 hw ha⟩
  exact key.2.only

/-- The engine right after `check_timeouts` at 2 s found the echo on socket 5 overdue, and
the record there. -/
def expiredState : Engine :=
  ((Engine.initial demoCfg).run
    (inFlight ++ [.loopTest, .scan {}, .waitReturn [], .checkTimeouts ⟨2, 0⟩])).get (by decide)

def expiredSlot : Slot := checkTimeout ⟨2, 0⟩ echoSlot

theorem result_never_rewritten_expired :
    let u := (expiredState.run [.sendCallbacks]).get (by decide)
    Reachable expiredState ∧ expiredState.Reaches u ∧
    (5, expiredSlot) ∈ expiredState.probes.entries ∧ ¬expiredSlot.Waiting ∧
    ∀ e ∈ u.probes.entries, e.2.serial = expiredSlot.serial → e = (5, expiredSlot) :=
  have hs : Reachable expiredState := Reachable.run (Option.some_get _).symm
  have hsu := reaches_of_run (Option.some_get _).symm
  have he : (5, expiredSlot) ∈ expiredState.probes.entries := by decide
  have hw : ¬expiredSlot.Waiting := by decide
  ⟨hs, hsu, he, hw, result_never_rewritten hs hsu he hw⟩

end Icmpenguin
