import Icmpenguin.Status

/-!
# Icmpenguin — what a result reports

The times a result is built from are `struct timeval` readings of `gettimeofday` and of
`SIOCGSTAMP`, combined with glibc's `timersub` and the `TIMEVAL_TO_MS`/`TIMEVAL_TO_USEC`
macros. For readings as the kernel returns them (microseconds in `[0, 10^6)`),
`timersub` is exact subtraction, so `check_timeouts` expires a record exactly when
`timeout + 1` whole milliseconds of clock time have passed since its send; and over any
run, every result that carries a round-trip time reports the microsecond difference
between its receive and send readings, narrowed to `int`.

The reply of a `SUCCESS` result is the datagram the data receive copied, truncated to the
2048-byte buffer, whatever the error-queue receive copied into that buffer before it. An
`ERROR` result reports the last extended error of the error-queue message, and the data
receive is skipped.

Every record of a run was built by `send_probe` and changed only by the paths that set a
status; `Reachable.recordsHold` turns this into one induction over the records callers
hold, the table and the log. The round-trip times and the error texts of `FATAL_ERROR`
results follow from it.
-/

namespace Icmpenguin

open Engine

/-! ## Clock arithmetic -/

/-- A reading as `gettimeofday` and `SIOCGSTAMP` return it. -/
def Timeval.Normal (x : Timeval) : Prop := 0 ≤ x.tvUsec ∧ x.tvUsec < 1000000

instance (x : Timeval) : Decidable x.Normal := inferInstanceAs (Decidable (_ ∧ _))

/-- `timersub` borrows at most once, and that is enough for the microsecond total. -/
@[simp] theorem timevalToUsec_timersub (a b : Timeval) :
    timevalToUsec (timersub a b) = timevalToUsec a - timevalToUsec b := by
  unfold timersub timevalToUsec
  split_ifs <;> dsimp only <;> omega

theorem timersub_normal {a b : Timeval} (ha : a.Normal) (hb : b.Normal) :
    (timersub a b).Normal := by
  unfold timersub Timeval.Normal at *
  split_ifs <;> dsimp only <;> omega

/-- On a normal reading, `TIMEVAL_TO_MS` is the microsecond total rounded down. -/
theorem timevalToMs_of_normal {x : Timeval} (hx : x.Normal) :
    timevalToMs x = timevalToUsec x / 1000 := by
  unfold timevalToMs timevalToUsec
  rw [Int.tdiv_eq_ediv hx.1 (by decide)]
  omega

/-- The whole milliseconds `check_timeouts` sees elapsed. -/
theorem elapsedMs_of_normal {p : ProbeContext} {now : Timeval} (hn : now.Normal)
    (hs : p.tvSent.Normal) :
    p.elapsedMs now = (timevalToUsec now - timevalToUsec p.tvSent) / 1000 := by
  rw [ProbeContext.elapsedMs, timevalToMs_of_normal (timersub_normal hn hs),
    timevalToUsec_timersub]

/-- `check_timeouts` at a reading `now` moves a `WAITING` record to `TIMEOUT` exactly when
at least `timeout + 1` milliseconds of clock time have passed since its send: the check
`timeout < elapsed` is strict and the elapsed time is rounded down. -/
theorem checkTimeout_expires_iff {now : Timeval} {sl : Slot} (hn : now.Normal)
    (hs : sl.probe.tvSent.Normal) (hw : sl.Waiting) :
    ¬(checkTimeout now sl).Waiting ↔
      1000 * (sl.probe.timeout + 1) ≤ timevalToUsec now - timevalToUsec sl.probe.tvSent := by
  have key : sl.probe.timeout < sl.probe.elapsedMs now ↔
      1000 * (sl.probe.timeout + 1) ≤ timevalToUsec now - timevalToUsec sl.probe.tvSent := by
    rw [elapsedMs_of_normal hn hs]
    omega
  unfold checkTimeout
  by_cases hc : sl.probe.timeout < sl.probe.elapsedMs now
  · rw [if_pos ⟨hw, hc⟩]
    exact ⟨fun _ => key.1 hc, fun _ hw' => ProbeStatus.noConfusion hw'⟩
  · rw [if_neg fun h => hc h.2]
    exact ⟨fun h => absurd hw h, fun h => absurd (key.2 h) hc⟩

/-- A record sent at 0.5 s with a 1000 ms timeout, read at 1.501 s. -/
theorem checkTimeout_expires_at_limit :
    let sl : Slot := { echoSlot with probe := { echoSlot.probe with tvSent := ⟨0, 500000⟩ } }
    Timeval.Normal ⟨1, 501000⟩ ∧ sl.probe.tvSent.Normal ∧ sl.Waiting ∧
      (¬(checkTimeout ⟨1, 501000⟩ sl).Waiting ↔
        1000 * (sl.probe.timeout + 1) ≤ timevalToUsec ⟨1, 501000⟩ - timevalToUsec sl.probe.tvSent) :=
  ⟨by decide, by decide, by decide, checkTimeout_expires_iff (by decide) (by decide) (by decide)⟩

/-- The same record is still `WAITING` at 1.500999 s and expires at 1.501 s. -/
example :
    let sl : Slot := { echoSlot with probe := { echoSlot.probe with tvSent := ⟨0, 500000⟩ } }
    (checkTimeout ⟨1, 500999⟩ sl).Waiting ∧ ¬(checkTimeout ⟨1, 501000⟩ sl).Waiting := by
  decide

/-! ## Records over a run -/

/-- The texts `send_probe` writes before `strerror(errno)` on its `FATAL_ERROR` paths:
after `socket`, `bind` and `sendto`. -/
def sendProbeErrorPrefixes : List String :=
  ["Error creating socket: ", "Error binding socket: ", "Error sending probe: "]

section Records

variable {s t : Engine}

/-- A record a step of `send_probe` works on: the one `makeProbe` builds from the call's
arguments, or one a caller holds, as it is or given its packet and send time. -/
def Engine.Origin (s : Engine) (p : ProbeContext) : Prop :=
  (∃ a, p = makeProbe s.cfg a) ∨ ∃ c n q, (s.callers c).held = some (n, q) ∧
    (p = q ∨ ∃ pd now, p = { q with packetData := pd, tvSent := now })

theorem Engine.Origin.held {c n : Nat} {p : ProbeContext}
    (h : (s.callers c).held = some (n, p)) : s.Origin p :=
  .inr ⟨c, n, p, h, .inl rfl⟩

/-- `sendPacket` with the records it makes: the exception of `init_packet_data`, the
`FATAL_ERROR` record of a failed `sendto` (made from the record with its packet and send
time), or that record held as sent. -/
theorem sendPacket_records (c : Nat) (fd : Int) (n : Nat) (p : ProbeContext) (size : Int)
    (pat : List UInt8) (now : Timeval) (r : SysResult Unit) :
    s.sendPacket c fd n p size pat now r =
      { s with callers := Function.update s.callers c .threw } ∨
    (∃ q, (q = p ∨ ∃ pd, q = { p with packetData := pd, tvSent := now }) ∧
      ∃ pre ∈ sendProbeErrorPrefixes, ∃ text, s.sendPacket c fd n p size pat now r =
        (s.close fd).fatal c n { q with errorMsg := pre ++ text, status := .fatalError }) ∨
    ∃ pd, s.sendPacket c fd n p size pat now r =
      { s with callers := Function.update s.callers c
                             (.sent fd n { p with packetData := pd, tvSent := now }) } := by
  unfold sendPacket
  split
  · exact .inl rfl
  · split
    · split_ifs
      exacts [.inr (.inl ⟨_, .inr ⟨_, rfl⟩, _, .tail _ (.tail _ (.head _)), _, rfl⟩),
        .inr (.inr ⟨_, rfl⟩)]
    · exact .inr (.inr ⟨_, rfl⟩)

/-- `next_transmit` with the records it makes: a `FATAL_ERROR` record names `bind` or
`sendto` and is made from the caller's record, or from it with its packet and send time. -/
theorem transmit_records {c : Nat} {b r : SysResult Unit} {now : Timeval}
    (h : s.next (.transmit c b now r) = some t) :
    ∃ fd n p size pat, s.callers c = .opened fd n p size pat ∧
      (t = { s with callers := Function.update s.callers c .threw } ∨
       (∃ q, (q = p ∨ ∃ pd, q = { p with packetData := pd, tvSent := now }) ∧
         ∃ pre ∈ sendProbeErrorPrefixes, ∃ text,
           t = (s.close fd).fatal c n { q with errorMsg := pre ++ text, status := .fatalError }) ∨
       ∃ pd, t = { s with callers := Function.update s.callers c
                                        (.sent fd n { p with packetData := pd, tvSent := now }) }) := by
  simp only [next, transmit, Option.ite_none_left_eq_some] at h
  obtain ⟨-, h⟩ := h
  cases hc : s.callers c with
  | opened fd n p size pat =>
    rw [hc] at h
    obtain rfl := (Option.some.inj h).symm
    refine ⟨fd, n, p, size, pat, rfl, ?_⟩
    split
    · split_ifs
      exacts [.inr (.inl ⟨p, .inl rfl, _, .tail _ (.head _), _, rfl⟩),
        sendPacket_records c fd n p size pat now r]
    · exact sendPacket_records c fd n p size pat now r
  | _ => rw [hc] at h; cases h

/-- What a step does to the records outside the table: a record a caller holds afterwards
has its origin before, and the log is kept, gets the terminal entries of the table
(`send_callbacks`), or gets one `FATAL_ERROR` record, made from a record with its origin
before and with an error text that names the failing call. -/
theorem records_next {a : Action} (hn : s.next a = some t) :
    (∀ c n p, (t.callers c).held = some (n, p) → s.Origin p) ∧
    (t.delivered = s.delivered ∨
     t.delivered = s.delivered ++ (terminal s.probes).map (fun e => (e.2.serial, e.2.probe)) ∨
     ∃ n q, s.Origin q ∧ ∃ pre ∈ sendProbeErrorPrefixes, ∃ text,
       t.delivered = s.delivered ++ [(n, { q with errorMsg := pre ++ text, status := .fatalError })]) := by
  have keep : ∀ c n p, (s.callers c).held = some (n, p) → s.Origin p := fun _ _ _ => .held
  have drop : ∀ {v : CallerPc} {c : Nat}, v.held = none → ∀ d m p,
      (Function.update s.callers c v d).held = some (m, p) → s.Origin p :=
    fun hv d m p hd => keep d m p (CallerPc.held_update_none hd hv).2
  have fatal : ∀ (u : Engine) (c n : Nat) (q : ProbeContext) (pre text : String),
      u.callers = s.callers → u.delivered = s.delivered → s.Origin q →
      pre ∈ sendProbeErrorPrefixes →
      (∀ d m p, ((u.fatal c n { q with errorMsg := pre ++ text, status := .fatalError }).callers
        d).held = some (m, p) → s.Origin p) ∧
      ((u.fatal c n { q with errorMsg := pre ++ text, status := .fatalError }).delivered =
        s.delivered ∨
       (u.fatal c n { q with errorMsg := pre ++ text, status := .fatalError }).delivered =
        s.delivered ++ (terminal s.probes).map (fun e => (e.2.serial, e.2.probe)) ∨
       ∃ m r, s.Origin r ∧ ∃ pr ∈ sendProbeErrorPrefixes, ∃ tx,
        (u.fatal c n { q with errorMsg := pre ++ text, status := .fatalError }).delivered =
          s.delivered ++ [(m, { r with errorMsg := pr ++ tx, status := .fatalError })]) := by
    intro u c n q pre text hu hd hq hpre
    obtain ⟨v, hv, hcal⟩ := fatal_callers u c n { q with errorMsg := pre ++ text, status := .fatalError }
    refine ⟨fun d m p h => ?_, ?_⟩
    · rw [hcal, hu] at h
      exact drop (by rcases hv with rfl | rfl <;> rfl) d m p h
    rcases fatal_delivered u c n { q with errorMsg := pre ++ text, status := .fatalError } with h | h <;>
      rw [h, hd]
    exacts [.inl rfl, .inr (.inr ⟨n, q, hq, pre, hpre, text, rfl⟩)]
  cases a with
  | socket c args res =>
    obtain ⟨-, -, ⟨_, text, -, rfl⟩ | ⟨fd, -, -, rfl⟩⟩ := next_socket hn
    · exact fatal { s with nextSerial := s.nextSerial + 1 } c s.nextSerial (makeProbe s.cfg args)
        _ text rfl rfl (.inl ⟨args, rfl⟩) (.head _)
    · refine ⟨fun d m p hd => ?_, .inl rfl⟩
      simp only [Function.update_apply] at hd
      split_ifs at hd
      · simp only [CallerPc.held, Option.some.injEq, Prod.mk.injEq] at hd
        exact .inl ⟨args, hd.2.symm⟩
      · exact keep d m p hd
  | transmit c b now r =>
    obtain ⟨fd, n, p, size, pat, hc, rfl | ⟨q, hq, pre, hpre, text, rfl⟩ | ⟨pd, rfl⟩⟩ :=
      transmit_records hn
    · exact ⟨drop rfl, .inl rfl⟩
    · have hp : (s.callers c).held = some (n, p) := by simp [hc, CallerPc.held]
      refine fatal (s.close fd) c n q pre text rfl rfl (.inr ⟨c, n, p, hp, ?_⟩) hpre
      rcases hq with rfl | ⟨pd, rfl⟩
      exacts [.inl rfl, .inr ⟨pd, now, rfl⟩]
    · refine ⟨fun d m q hd => ?_, .inl rfl⟩
      simp only [Function.update_apply] at hd
      split_ifs at hd with hdc
      · subst hdc
        simp only [CallerPc.held, Option.some.injEq, Prod.mk.injEq] at hd
        exact .inr ⟨d, n, p, by simp [hc, CallerPc.held], .inr ⟨pd, now, hd.2.symm⟩⟩
      · exact keep d m q hd
  | addSocket c ok => obtain ⟨fd, m, p, -, rfl⟩ := next_addSocket hn; exact ⟨drop rfl, .inl rfl⟩
  | sendCallbacks =>
    obtain ⟨-, rfl⟩ := next_sendCallbacks hn
    unfold Engine.sendCallbacks
    split
    exacts [⟨keep, .inl rfl⟩, ⟨keep, .inr (.inl rfl)⟩]
  | setup er wr ok =>
    obtain ⟨-, rfl | ⟨e, -, rfl⟩ | ⟨e, w, -, -, -, rfl⟩⟩ := setupEpoll_cases (next_setup hn) <;>
      exact ⟨keep, .inl rfl⟩
  | storeRunning => obtain ⟨-, rfl⟩ := next_storeRunning hn; exact ⟨keep, .inl rfl⟩
  | loopTest => obtain ⟨-, rfl⟩ := next_loopTest hn; exact ⟨keep, .inl rfl⟩
  | scan now => obtain ⟨-, rfl⟩ := next_scan hn; exact ⟨keep, .inl rfl⟩
  | waitReturn evs => obtain ⟨-, -, rfl⟩ := next_waitReturn hn; exact ⟨keep, .inl rfl⟩
  | drain => obtain ⟨_, -, rfl⟩ := next_drain hn; exact ⟨keep, .inl rfl⟩
  | readData now errq data => obtain ⟨_, _, -, -, rfl⟩ := next_readData hn; exact ⟨keep, .inl rfl⟩
  | checkTimeouts now => obtain ⟨-, rfl⟩ := next_checkTimeouts hn; exact ⟨keep, .inl rfl⟩
  | cleanProbes => obtain ⟨_, -, rfl⟩ := next_cleanProbes hn; exact ⟨keep, .inl rfl⟩
  | forceTimeouts => obtain ⟨-, rfl⟩ := next_forceTimeouts hn; exact ⟨keep, .inl rfl⟩
  | finalClean => obtain ⟨-, rfl⟩ := next_finalClean hn; exact ⟨keep, .inl rfl⟩
  | closeWakeup => obtain ⟨-, rfl⟩ := next_closeWakeup hn; exact ⟨keep, .inl rfl⟩
  | closeEpoll => obtain ⟨-, rfl⟩ := next_closeEpoll hn; exact ⟨keep, .inl rfl⟩
  | startReturns => obtain rfl := next_startReturns hn; exact ⟨keep, .inl rfl⟩
  | stopStore => obtain ⟨-, -, rfl⟩ := next_stopStore hn; exact ⟨keep, .inl rfl⟩
  | stopWake => obtain ⟨-, rfl⟩ := next_stopWake hn; exact ⟨keep, .inl rfl⟩
  | stopJoin => obtain ⟨-, -, rfl⟩ := next_stopJoin hn; exact ⟨keep, .inl rfl⟩

/-- Properties of a record that every way of making or changing one keeps: `makeProbe`;
setting the packet and send time of a `WAITING` record; a `FATAL_ERROR` path of
`send_probe` on a `WAITING` record; the move of a `WAITING` record to `TIMEOUT`; and
`read_data` on a record that is not `FATAL_ERROR`. -/
structure RecordClosed (P : ProbeContext → Prop) : Prop where
  make : ∀ cfg a, P (makeProbe cfg a)
  sent : ∀ p pd now, p.status = .waiting → P p → P { p with packetData := pd, tvSent := now }
  fatal : ∀ p, p.status = .waiting → P p → ∀ pre ∈ sendProbeErrorPrefixes, ∀ text,
    P { p with errorMsg := pre ++ text, status := .fatalError }
  timeout : ∀ p, p.status = .waiting → P p → P { p with status := .timeout }
  read : ∀ now errq data p, p.status ≠ .fatalError → P p → P (readData now errq data p)

/-- `P` holds of every record of the state: those the callers hold, those of the table
(none of which is `FATAL_ERROR`), and those logged. -/
structure RecordsHold (P : ProbeContext → Prop) (s : Engine) : Prop where
  held : ∀ c n p, (s.callers c).held = some (n, p) → P p
  table : ∀ e ∈ s.probes.entries, P e.2.probe ∧ e.2.probe.status ≠ .fatalError
  delivered : ∀ e ∈ s.delivered, P e.2

variable {P : ProbeContext → Prop}

/-- The records a step starts from are `WAITING` and have `P`. -/
theorem Engine.Origin.closed (hc : RecordClosed P) (h : RecordsHold P s) (hi : SerialInv s)
    {p : ProbeContext} (ho : s.Origin p) : p.status = .waiting ∧ P p := by
  rcases ho with ⟨a, rfl⟩ | ⟨c, n, q, hq, rfl | ⟨pd, now, rfl⟩⟩
  · exact ⟨rfl, hc.make _ a⟩
  · exact ⟨hi.caller_waiting c n _ hq, h.held c n _ hq⟩
  · exact ⟨hi.caller_waiting c n q hq, hc.sent q pd now (hi.caller_waiting c n q hq) (h.held c n q hq)⟩

theorem readData_ne_fatalError (now : Timeval) (errq data : Option Received) (p : ProbeContext) :
    (readData now errq data p).status ≠ .fatalError := by
  rw [readData_status]
  split_ifs <;> exact ProbeStatus.noConfusion

theorem RecordsHold.next (hc : RecordClosed P) (h : RecordsHold P s) (hs : Reachable s)
    {a : Action} (hn : s.next a = some t) : RecordsHold P t := by
  have hi := hs.serialInv
  have hslot : ∀ (f : Slot → Slot) (sl : Slot), P sl.probe ∧ sl.probe.status ≠ .fatalError →
      (f sl = sl ∨ (sl.Waiting ∧ (f sl).probe = { sl.probe with status := .timeout })) →
      P (f sl).probe ∧ (f sl).probe.status ≠ .fatalError := by
    rintro f sl hp (h | ⟨hw, h⟩)
    · rwa [h]
    · rw [h]; exact ⟨hc.timeout _ hw hp.1, ProbeStatus.noConfusion⟩
  obtain ⟨hheld, hdel⟩ := records_next hn
  refine ⟨fun c n p hp => (Origin.closed hc h hi (hheld c n p hp)).2, fun ⟨k, sl⟩ he => ?_,
    fun e he => ?_⟩
  · rcases probes_next hs.phase_fd.2 hi hn with ht | ⟨now, -, -, ht⟩ | ⟨-, -, ht⟩ |
        ⟨now, errq, data, e, evs, -, -, ht⟩ | ⟨-, ht⟩ | ⟨c, k', sl', hc', hw, _, ht⟩ <;>
      rw [ht] at he
    · exact h.table _ he
    · obtain ⟨sl₀, he₀, rfl⟩ := ProbeTable.mem_mapSlots.1 he
      refine hslot (checkTimeout now) sl₀ (h.table _ he₀) ?_
      unfold checkTimeout
      split_ifs with h
      exacts [.inr ⟨h.1, rfl⟩, .inl rfl]
    · obtain ⟨sl₀, he₀, rfl⟩ := ProbeTable.mem_mapSlots.1 he
      refine hslot forceTimeout sl₀ (h.table _ he₀) ?_
      unfold forceTimeout
      split_ifs with h
      exacts [.inr ⟨h, rfl⟩, .inl rfl]
    · obtain ⟨sl₀, he₀, rfl⟩ := ProbeTable.mem_update.1 he
      obtain ⟨hp, hf⟩ := h.table _ he₀
      split_ifs
      · exact ⟨hc.read now errq data _ hf hp, readData_ne_fatalError now errq data _⟩
      · exact ⟨hp, hf⟩
    · exact h.table _ (mem_cleanProbes.1 he).1
    · rcases ProbeTable.mem_push.1 he with he | he
      · exact h.table _ he
      · obtain ⟨-, rfl⟩ := Prod.mk.inj he
        have hw' := hi.caller_waiting c _ _ hc'
        exact ⟨h.held c _ _ hc', by rw [hw']; exact ProbeStatus.noConfusion⟩
  · rcases hdel with hd | hd | ⟨n, q, hq, pre, hpre, text, hd⟩ <;> rw [hd] at he
    · exact h.delivered e he
    · rcases List.mem_append.1 he with he | he
      · exact h.delivered e he
      · obtain ⟨e', he', rfl⟩ := List.mem_map.1 he
        exact (h.table e' (mem_terminal.1 he').1).1
    · rcases List.mem_append.1 he with he | he
      · exact h.delivered e he
      · obtain ⟨hw, hp⟩ := Origin.closed hc h hi hq
        rw [List.mem_singleton.1 he]
        exact hc.fatal q hw hp pre hpre text

/-- A property every way of making or changing a record keeps holds of every record of
every reachable state. -/
theorem Reachable.recordsHold (hc : RecordClosed P) (hs : Reachable s) : RecordsHold P s := by
  induction hs with
  | initial cfg =>
    exact ⟨fun c n p h => by simp [Engine.initial, CallerPc.held] at h,
      fun e he => by simp [Engine.initial, ProbeTable.empty] at he,
      fun e he => by simp [Engine.initial] at he⟩
  | step a hs hn ih => exact ih.next hc hs hn

end Records


/-! ## The round-trip time -/

/-- The round-trip time a result reports, for the variants that carry one. -/
def ProbeResult.rttUs? : ProbeResult → Option Int
  | .success _ _ _ _ rtt _ _ => some rtt
  | .connectionRefused _ _ _ _ _ rtt | .hostUnreachable _ _ _ _ _ rtt
  | .netUnreachable _ _ _ _ _ rtt => some rtt
  | _ => none

/-- A reply or an ICMP error carries `TIMEVAL_TO_USEC(tv_diff)` narrowed to `jint`. -/
theorem triggerCallback_rttUs {p : ProbeContext} {r : ProbeResult} {rtt : Int}
    (h : triggerCallback p = some r) (hr : r.rttUs? = some rtt) :
    (p.status = .success ∨ p.status = .error) ∧ rtt = toInt32 (timevalToUsec p.tvDiff) := by
  unfold triggerCallback at h
  split at h <;> (try split_ifs at h) <;> cases h <;> simp_all [ProbeResult.rttUs?]

/-- `read_data` computes `tv_diff` last, from the record's own receive and send readings. -/
theorem readData_tvDiff (now : Timeval) (errq data : Option Received) (p : ProbeContext) :
    (readData now errq data p).tvDiff =
      timersub (readData now errq data p).tvReceived (readData now errq data p).tvSent :=
  rfl

/-- Every result passed to the callback that carries a round-trip time (a reply, or an ICMP
error reported as connection refused, host or network unreachable) reports the microsecond
difference between its record's receive and send readings, narrowed to `int`: `read_data`
computes `tv_diff` from exactly those fields, and nothing writes any of the three after it. -/
theorem reported_rtt {s : Engine} (hs : Reachable s) :
    ∀ e ∈ s.delivered, ∀ r, triggerCallback e.2 = some r → ∀ rtt, r.rttUs? = some rtt →
      rtt = toInt32 (timevalToUsec e.2.tvReceived - timevalToUsec e.2.tvSent) := by
  have hP := (hs.recordsHold (P := fun p => p.status = .success ∨ p.status = .error →
      p.tvDiff = timersub p.tvReceived p.tvSent)
    { make := fun _ _ h => by simp [makeProbe] at h
      sent := fun _ _ _ hw _ h => by simp [hw] at h
      fatal := fun _ _ _ _ _ _ h => by simp at h
      timeout := fun _ _ _ h => by simp at h
      read := fun now errq data p _ _ _ => readData_tvDiff now errq data p }).delivered
  intro e he r hr rtt hrtt
  obtain ⟨hst, rfl⟩ := triggerCallback_rttUs hr hrtt
  rw [hP e he hst, timevalToUsec_timersub]

theorem reported_rtt_reply :
    Reachable replyBatchState ∧
    ∀ e ∈ replyBatchState.delivered, ∀ r, triggerCallback e.2 = some r → ∀ rtt,
      r.rttUs? = some rtt →
        rtt = toInt32 (timevalToUsec e.2.tvReceived - timevalToUsec e.2.tvSent) :=
  have hs : Reachable replyBatchState := Reachable.run (Option.some_get _).symm
  ⟨hs, reported_rtt hs⟩

/-! ## Error texts -/

theorem foldl_walkCmsg_errorMsg (stamp : Option Timeval) :
    ∀ (cs : List Cmsg) (p : ProbeContext), (cs.foldl (walkCmsg stamp) p).errorMsg = p.errorMsg
  | [], _ => rfl
  | c :: cs, p => by
    rw [List.foldl_cons, foldl_walkCmsg_errorMsg stamp cs]
    unfold walkCmsg
    split_ifs <;> rfl

theorem recvPass_errorMsg (b : Bool) (p : ProbeContext) (r : Option Received) :
    (recvPass b p r).errorMsg = p.errorMsg := by
  cases r with
  | none => rfl
  | some r => cases b <;> simp [recvPass, foldl_walkCmsg_errorMsg]

/-- `read_data` never writes `error_msg`. -/
theorem readData_errorMsg (now : Timeval) (errq data : Option Received) (p : ProbeContext) :
    (readData now errq data p).errorMsg = p.errorMsg := by
  simp only [readData]
  split <;> simp only [recvPass_errorMsg]

/-- Every `FATAL_ERROR` record the callback gets names the call of `send_probe` that
failed, `socket`, `bind` or `sendto`, followed by the text of `strerror(errno)`, and Java
gets that text as the message of the `Unknown` result; every other record the callback
gets has an empty `error_msg`. -/
theorem fatal_results_name_call {s : Engine} (hs : Reachable s) :
    ∀ e ∈ s.delivered,
      (e.2.status = .fatalError → ∃ pre ∈ sendProbeErrorPrefixes, ∃ text,
        e.2.errorMsg = pre ++ text ∧ triggerCallback e.2 = some (.unknown e.2.sequence
          e.2.remoteIp (toInt32 e.2.packetData.length) e.2.overhead (pre ++ text))) ∧
      (e.2.status ≠ .fatalError → e.2.errorMsg = "") := by
  intro e he
  obtain ⟨hf, hn⟩ := (hs.recordsHold (P := fun p => (p.status = .fatalError →
      ∃ pre ∈ sendProbeErrorPrefixes, ∃ text, p.errorMsg = pre ++ text) ∧
      (p.status ≠ .fatalError → p.errorMsg = ""))
    { make := fun _ _ => ⟨fun h => by simp [makeProbe] at h, fun _ => rfl⟩
      sent := fun _ _ _ _ hp => hp
      fatal := fun _ _ _ pre hpre text => ⟨fun _ => ⟨pre, hpre, text, rfl⟩, fun h => absurd rfl h⟩
      timeout := fun _ hw hp => ⟨fun h => by simp at h, fun _ => hp.2 (by simp [hw])⟩
      read := fun now errq data p hf hp =>
        ⟨fun h => absurd h (readData_ne_fatalError now errq data p),
          fun _ => (readData_errorMsg now errq data p).trans (hp.2 hf)⟩ }).delivered e he
  refine ⟨fun h => ?_, hn⟩
  obtain ⟨pre, hpre, text, hm⟩ := hf h
  exact ⟨pre, hpre, text, hm, by simp [triggerCallback, h, hm]⟩

/-- `socket()` fails with `EMFILE` for the first probe. -/
def socketFailState : Engine :=
  ((Engine.initial demoCfg).run [.setup (some 3) (some 4) true, .storeRunning, .startReturns,
    .socket 0 echoArgs (.err 24 "Too many open files")]).get (by decide)

theorem fatal_results_name_call_emfile :
    Reachable socketFailState ∧ ∀ e ∈ socketFailState.delivered,
      (e.2.status = .fatalError → ∃ pre ∈ sendProbeErrorPrefixes, ∃ text,
        e.2.errorMsg = pre ++ text ∧ triggerCallback e.2 = some (.unknown e.2.sequence
          e.2.remoteIp (toInt32 e.2.packetData.length) e.2.overhead (pre ++ text))) ∧
      (e.2.status ≠ .fatalError → e.2.errorMsg = "") :=
  have hs : Reachable socketFailState := Reachable.run (Option.some_get _).symm
  ⟨hs, fatal_results_name_call hs⟩

/-! ## What a reply stores -/

theorem foldl_walkCmsg_replyData (stamp : Option Timeval) :
    ∀ (cs : List Cmsg) (p : ProbeContext), (cs.foldl (walkCmsg stamp) p).replyData = p.replyData
  | [], _ => rfl
  | c :: cs, p => by
    rw [List.foldl_cons, foldl_walkCmsg_replyData stamp cs]
    unfold walkCmsg; split_ifs <;> rfl

theorem walkCmsg_tvReceived (stamp : Option Timeval) (p : ProbeContext) (c : Cmsg) :
    (walkCmsg stamp p c).tvReceived =
      if c.IsRecvErr then stamp.getD p.tvReceived else p.tvReceived := by
  unfold walkCmsg; split_ifs <;> rfl

/-- The walk stamps the receive time only on an extended error. -/
theorem foldl_walkCmsg_tvReceived (stamp : Option Timeval) :
    ∀ (cs : List Cmsg) (p : ProbeContext), (cs.foldl (walkCmsg stamp) p).tvReceived =
      if ∃ c ∈ cs, c.IsRecvErr then stamp.getD p.tvReceived else p.tvReceived
  | [], _ => by simp
  | c :: cs, p => by
    rw [List.foldl_cons, foldl_walkCmsg_tvReceived stamp cs, walkCmsg_tvReceived]
    by_cases hc : c.IsRecvErr
    · cases stamp <;> simp [hc]
    · simp [hc]

/-- A walk over messages none of which is an extended error changes only the reply TTL. -/
theorem foldl_walkCmsg_quiet (stamp : Option Timeval) :
    ∀ (cs : List Cmsg) (p : ProbeContext), (∀ c ∈ cs, ¬c.IsRecvErr) →
      cs.foldl (walkCmsg stamp) p = { p with replyTtl := (cs.foldl (walkCmsg stamp) p).replyTtl }
  | [], _, _ => rfl
  | c :: cs, p, h => by
    rw [List.foldl_cons, foldl_walkCmsg_quiet stamp cs _ fun x hx => h x (List.mem_cons_of_mem _ hx)]
    unfold walkCmsg
    rw [if_neg (h c (List.mem_cons_self _ _))]
    split_ifs <;> rfl

theorem length_resizeTo (l : List UInt8) (n : Nat) : (resizeTo l n).length = n := by
  simp only [resizeTo, List.length_append, List.length_take, List.length_replicate]
  omega

/-- The error-queue pass that posts no error leaves the status and the receive time, and
writes its bytes into the buffer without resizing it. -/
theorem recvPass_errQueue_quiet {p : ProbeContext} {r : Option Received} (h : ¬PostsError r) :
    (recvPass true p r).status = p.status ∧ (recvPass true p r).tvReceived = p.tvReceived ∧
      (recvPass true p r).replyData.length = p.replyData.length := by
  refine ⟨by rw [recvPass_errQueue_status, if_neg h], ?_⟩
  cases r with
  | none => exact ⟨rfl, rfl⟩
  | some r =>
    simp only [recvPass, if_true, foldl_walkCmsg_tvReceived, foldl_walkCmsg_replyData,
      length_writeAt]
    exact ⟨if_neg h, trivial⟩

/-- The data pass that gets a datagram, into a buffer of at least 2048 bytes: the reply is
the datagram's first 2048 bytes, and the receive time its timestamp if it has one. -/
theorem recvPass_data (p : ProbeContext) (r : Received)
    (hlen : incomingBufferSize ≤ p.replyData.length) :
    (recvPass false p (some r)).replyData = r.payload.take incomingBufferSize ∧
    (recvPass false p (some r)).tvReceived = r.stamp.getD p.tvReceived := by
  simp only [recvPass, Bool.false_eq_true, if_false, foldl_walkCmsg_replyData,
    foldl_walkCmsg_tvReceived, resizeTo]
  have hle : (r.payload.take incomingBufferSize).length ≤ p.replyData.length :=
    (List.length_take_le _ _).trans hlen
  refine ⟨?_, by split_ifs <;> cases r.stamp <;> rfl⟩
  rw [length_writeAt, Nat.sub_eq_zero_of_le hle, List.replicate_zero, List.append_nil,
    ← List.drop_zero (writeAt _ 0 _), drop_take_writeAt (by omega)]

/-- When the error queue posts no extended error and a datagram arrives, `read_data`
reports `SUCCESS` with the datagram's first 2048 bytes as the reply, whatever the
error-queue receive copied into the shared buffer first, and with the datagram's kernel
timestamp as the receive time, or the read's own clock reading when `SIOCGSTAMP` fails. -/
theorem readData_reply (now : Timeval) {errq : Option Received} (r : Received)
    (p : ProbeContext) (h : ¬PostsError errq) :
    (readData now errq (some r) p).status = .success ∧
    (readData now errq (some r) p).replyData = r.payload.take incomingBufferSize ∧
    (readData now errq (some r) p).tvReceived = r.stamp.getD now := by
  simp only [readData]
  obtain ⟨hst, htv, hlen⟩ := recvPass_errQueue_quiet
    (p := { p with tvReceived := now, status := .timeout,
                   replyData := resizeTo p.replyData incomingBufferSize }) h
  generalize recvPass true _ errq = q at hst htv hlen ⊢
  rw [if_neg (by rw [hst]; exact fun h => ProbeStatus.noConfusion h)]
  obtain ⟨hrep, hrecv⟩ := recvPass_data q r (by rw [hlen, length_resizeTo])
  exact ⟨rfl, hrep, by rw [hrecv, htv]⟩

/-- When the error-queue receive gets a message whose last extended error is `c`, `read_data`
reports `ERROR` with `c`'s error fields and offender (an earlier extended error of the same
message is overwritten), the receive time is the message's timestamp or, when `SIOCGSTAMP`
fails, the read's own clock reading, and the data receive is skipped: whatever it would
return, the record is the same. -/
theorem readData_error (now : Timeval) (data : Option Received) (p : ProbeContext)
    (r : Received) {cs₁ cs₂ : List Cmsg} {c : Cmsg} (hr : r.cmsgs = cs₁ ++ c :: cs₂)
    (hc : c.IsRecvErr) (h₂ : ∀ x ∈ cs₂, ¬x.IsRecvErr) :
    (readData now (some r) data p).status = .error ∧
    (readData now (some r) data p).errNo = c.eeErrno ∧
    (readData now (some r) data p).errCode = c.eeCode ∧
    (readData now (some r) data p).errType = c.eeOrigin ∧
    (readData now (some r) data p).errInfo = c.eeInfo ∧
    (readData now (some r) data p).offender = c.offender ∧
    (readData now (some r) data p).tvReceived = r.stamp.getD now ∧
    readData now (some r) data p = readData now (some r) none p := by
  simp only [readData, recvPass, if_true, hr, List.foldl_append, List.foldl_cons]
  rw [foldl_walkCmsg_quiet _ cs₂ _ h₂]
  simp only [walkCmsg, if_pos hc, if_true, foldl_walkCmsg_tvReceived]
  refine ⟨trivial, trivial, trivial, trivial, trivial, trivial, ?_, trivial⟩
  cases r.stamp <;> split_ifs <;> rfl

/-- An extended error `ECONNREFUSED` from `192.0.2.7`. -/
def refusedMsg : Cmsg := ⟨solIp, ipRecverr, econnrefused, 3, 2, 0, "192.0.2.7", 0⟩

/-- An extended error `EHOSTUNREACH` from `192.0.2.8`. -/
def unreachableMsg : Cmsg := ⟨solIp, ipRecverr, ehostunreach, 1, 2, 0, "192.0.2.8", 0⟩

/-- An `IP_TTL` message with hop limit 61. -/
def hopsMsg : Cmsg := ⟨solIp, ipTtl, 0, 0, 0, 0, "", 61⟩

/-- Two extended errors in one message, connection refused then host unreachable, and a
hop limit after them, with no kernel timestamp; a reply is queued behind them. -/
theorem readData_error_last_wins :
    let r : Received := ⟨[], [refusedMsg, unreachableMsg, hopsMsg], none⟩
    let reply : Received := ⟨[1, 2], [], none⟩
    r.cmsgs = [refusedMsg] ++ unreachableMsg :: [hopsMsg] ∧ unreachableMsg.IsRecvErr ∧
    (∀ x ∈ [hopsMsg], ¬x.IsRecvErr) ∧
    (readData ⟨4, 0⟩ (some r) (some reply) {}).status = .error ∧
    (readData ⟨4, 0⟩ (some r) (some reply) {}).errNo = unreachableMsg.eeErrno ∧
    (readData ⟨4, 0⟩ (some r) (some reply) {}).errCode = unreachableMsg.eeCode ∧
    (readData ⟨4, 0⟩ (some r) (some reply) {}).errType = unreachableMsg.eeOrigin ∧
    (readData ⟨4, 0⟩ (some r) (some reply) {}).errInfo = unreachableMsg.eeInfo ∧
    (readData ⟨4, 0⟩ (some r) (some reply) {}).offender = unreachableMsg.offender ∧
    (readData ⟨4, 0⟩ (some r) (some reply) {}).tvReceived = r.stamp.getD ⟨4, 0⟩ ∧
    readData ⟨4, 0⟩ (some r) (some reply) {} = readData ⟨4, 0⟩ (some r) none {} :=
  have hr : [refusedMsg, unreachableMsg, hopsMsg] = [refusedMsg] ++ unreachableMsg :: [hopsMsg] :=
    rfl
  have hc : unreachableMsg.IsRecvErr := by decide
  have h₂ : ∀ x ∈ [hopsMsg], ¬x.IsRecvErr := by decide
  ⟨hr, hc, h₂, readData_error ⟨4, 0⟩ (some ⟨[1, 2], [], none⟩) {}
    ⟨[], [refusedMsg, unreachableMsg, hopsMsg], none⟩ hr hc h₂⟩

/-- An error-queue receive that got a plain datagram (no extended error), then a two-byte
reply stamped by the kernel. -/
theorem readData_reply_after_quiet_queue :
    ¬PostsError (some ⟨[9, 9, 9], [], none⟩) ∧
    (readData ⟨8, 0⟩ (some ⟨[9, 9, 9], [], none⟩) (some ⟨[1, 2], [], some ⟨7, 3⟩⟩) {}).status =
      .success ∧
    (readData ⟨8, 0⟩ (some ⟨[9, 9, 9], [], none⟩) (some ⟨[1, 2], [], some ⟨7, 3⟩⟩) {}).replyData =
      [1, 2] ∧
    (readData ⟨8, 0⟩ (some ⟨[9, 9, 9], [], none⟩) (some ⟨[1, 2], [], some ⟨7, 3⟩⟩) {}).tvReceived =
      ⟨7, 3⟩ :=
  have h : ¬PostsError (some ⟨[9, 9, 9], [], none⟩) := by decide
  ⟨h, readData_reply ⟨8, 0⟩ ⟨[1, 2], [], some ⟨7, 3⟩⟩ {} h⟩

end Icmpenguin
