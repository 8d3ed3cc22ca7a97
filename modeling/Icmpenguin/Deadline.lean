import Icmpenguin.Wakeup

/-!
# Icmpenguin — deadlines: `get_min_wait_time` against `check_timeouts`

The spec's bound is the least `max(0, timeout - elapsed)` over the `WAITING` records,
computed over the integers (`specMinWait`). `get_min_wait_time` computes the least
`max(0, int(timeout - elapsed))` (`getMinWaitTime_eq_min?`): the running minimum, its `-1`
sentinel and the clamp inside the update change nothing, the narrowing to `int` does once
the remaining time leaves the `int` range. Within that range the two bounds agree
(`getMinWaitTime_eq_specMinWait`).

`check_timeouts` expires a record when its elapsed time is strictly above its timeout,
while the bound is already 0 when the two are equal: the bound is 0 exactly when
`check_timeouts` expires a record or some record sits exactly at its deadline
(`zero_bound_iff`).
-/

namespace Icmpenguin

open Engine

/-! ## The spec's bound -/

/-- The bound of the spec: the least `max(0, timeout - elapsed)` over the `WAITING`
records, over the integers, or `-1` when no record is `WAITING`. -/
def specMinWait (t : ProbeTable) (now : Timeval) : Int :=
  (((t.entries.filter fun e => e.2.Waiting).map fun e =>
    max 0 (e.2.probe.remainingMs now)).min?).getD (-1)

/-! ## `get_min_wait_time` as a minimum -/

/-- What a `WAITING` record contributes to `get_min_wait_time`: its remaining time narrowed
to `int`, clamped at 0. -/
def narrowedWait (now : Timeval) (s : Slot) : Int := max 0 (toInt32 (s.probe.remainingMs now))

section MinWaitFold

variable {now : Timeval}

/-- From a running minimum `m ≥ 0`, a `WAITING` record takes the minimum with its clamped
time: the clamp inside the update never undercuts `m`. -/
theorem minWaitStep_of_nonneg {m : Int} {s : Slot} (hm : 0 ≤ m) (hs : s.Waiting) :
    minWaitStep now m s = min m (narrowedWait now s) := by
  have hs : s.probe.status = .waiting := hs
  simp only [minWaitStep, narrowedWait, ProbeContext.remainingMs, if_pos hs, Int.max_def,
    Int.min_def]
  split_ifs <;> omega

/-- The first `WAITING` record replaces the sentinel `-1` by its clamped time. -/
theorem minWaitStep_neg_one {s : Slot} (hs : s.Waiting) :
    minWaitStep now (-1) s = narrowedWait now s := by
  have hs : s.probe.status = .waiting := hs
  simp only [minWaitStep, narrowedWait, ProbeContext.remainingMs, if_pos hs, Int.max_def,
    true_or, if_true]
  split_ifs <;> omega

theorem foldl_minWait_of_nonneg (l : List (Int × Slot)) {m : Int} (hm : 0 ≤ m) :
    l.foldl (fun m e => minWaitStep now m e.2) m =
      ((l.filter fun e => e.2.Waiting).map fun e => narrowedWait now e.2).foldl min m := by
  induction l generalizing m with
  | nil => rfl
  | cons e l ih =>
    by_cases he : e.2.Waiting
    · have hmin : 0 ≤ min m (narrowedWait now e.2) := by
        simp only [narrowedWait, Int.min_def, Int.max_def]; split_ifs <;> omega
      rw [List.foldl_cons, minWaitStep_of_nonneg hm he, ih hmin,
        List.filter_cons_of_pos (by simpa using he), List.map_cons, List.foldl_cons]
    · rw [List.foldl_cons, minWaitStep_of_not_waiting he, ih hm,
        List.filter_cons_of_neg (by simpa using he)]

theorem foldl_minWait_neg_one (l : List (Int × Slot)) :
    l.foldl (fun m e => minWaitStep now m e.2) (-1) =
      (((l.filter fun e => e.2.Waiting).map fun e => narrowedWait now e.2).min?).getD (-1) := by
  induction l with
  | nil => rfl
  | cons e l ih =>
    by_cases he : e.2.Waiting
    · rw [List.foldl_cons, minWaitStep_neg_one he,
        foldl_minWait_of_nonneg l (by simp only [narrowedWait]; omega),
        List.filter_cons_of_pos (by simpa using he), List.map_cons, List.min?_cons']
      rfl
    · rw [List.foldl_cons, minWaitStep_of_not_waiting he, ih,
        List.filter_cons_of_neg (by simpa using he)]

end MinWaitFold

/-- `get_min_wait_time` is the least clamped, narrowed remaining time over the `WAITING`
records, or `-1` when there is none. -/
theorem getMinWaitTime_eq_min? (t : ProbeTable) (now : Timeval) :
    getMinWaitTime t now =
      (((t.entries.filter fun e => e.2.Waiting).map fun e => narrowedWait now e.2).min?).getD
        (-1) :=
  foldl_minWait_neg_one t.entries

/-- Where every `WAITING` record's remaining time fits in an `int`, `get_min_wait_time`
returns the spec's bound. -/
theorem getMinWaitTime_eq_specMinWait {t : ProbeTable} {now : Timeval}
    (h : ∀ e ∈ t.entries, e.2.Waiting → InInt32 (e.2.probe.remainingMs now)) :
    getMinWaitTime t now = specMinWait t now := by
  rw [getMinWaitTime_eq_min?, specMinWait]
  congr 2
  refine List.map_congr_left fun e he => ?_
  rw [List.mem_filter] at he
  rw [narrowedWait, toInt32_of_inInt32 (h e he.1 (of_decide_eq_true he.2))]

/-- Two echoes sent at 0, one with 1000 ms and one with 10 ms to wait, scanned at 0.5 s:
the overdue one clamps to 0 after the other has set the minimum to 500. -/
def twoEchoes : ProbeTable :=
  ⟨[(5, ⟨{ status := .waiting, timeout := 1000 }, 0⟩),
    (6, ⟨{ status := .waiting, timeout := 10 }, 1⟩)], by decide⟩

theorem getMinWaitTime_eq_specMinWait_twoEchoes :
    (∀ e ∈ twoEchoes.entries, e.2.Waiting → InInt32 (e.2.probe.remainingMs ⟨0, 500000⟩)) ∧
    getMinWaitTime twoEchoes ⟨0, 500000⟩ = specMinWait twoEchoes ⟨0, 500000⟩ :=
  ⟨by decide, getMinWaitTime_eq_specMinWait (by decide)⟩

/-- One loop iteration at a fixed clock reading: the wait returns with no event, then
`check_timeouts`, `send_callbacks`, `clean_probes`, the loop test and the next scan. -/
def spinOnce (now : Timeval) : List Action :=
  [.waitReturn [], .checkTimeouts now, .sendCallbacks, .cleanProbes, .loopTest, .scan now]

/-- The echo of `echoArgs` with the largest `int` timeout. -/
def longArgs : SendArgs := { echoArgs with timeout := 2147483647, timeout_range := by decide }

/-- That echo sent at 10 s; the first iteration drains the token of `add_socket`, and the
next scan runs after the clock has been stepped back to 9 s. -/
def clockBackWait : List Action :=
  [.setup (some 3) (some 4) true, .storeRunning, .startReturns, .socket 0 longArgs (.ok 5),
    .transmit 0 (.ok ()) ⟨10, 0⟩ (.ok ()), .addSocket 0 true, .loopTest, .scan ⟨10, 0⟩,
    .waitReturn [4], .drain, .checkTimeouts ⟨10, 0⟩, .sendCallbacks, .cleanProbes, .loopTest,
    .scan ⟨9, 0⟩]

/-- The remaining time `2^31 - 1 + 1000` wraps to a negative `int`, which clamps to 0: the
worker blocks with bound 0 and no token pending, where the spec's bound is `2^31 + 999`;
the iteration that follows expires nothing and comes back to the same wait. -/
theorem narrowed_bound_wraps :
    ((Engine.initial demoCfg).run clockBackWait).map (fun s => (s.counter,
      match s.worker with
      | .wait w t0 _ => some (w, specMinWait s.probes t0)
      | _ => none)) = some (0, some (0, 2147484647)) ∧
    ((Engine.initial demoCfg).run (clockBackWait ++ spinOnce ⟨9, 0⟩)).map
        (fun s => (s.counter, s.worker, s.probes.entries)) =
      ((Engine.initial demoCfg).run clockBackWait).map
        (fun s => (s.counter, s.worker, s.probes.entries)) := by decide

/-! ## A zero bound against `check_timeouts` -/

theorem checkTimeout_eq_self_iff {now : Timeval} {s : Slot} :
    checkTimeout now s = s ↔ (s.Waiting → s.probe.elapsedMs now ≤ s.probe.timeout) := by
  unfold checkTimeout
  split_ifs with h
  · refine iff_of_false (fun heq => ?_) fun hle => ?_
    · have := congrArg (fun s : Slot => s.probe.status) heq
      simp only [h.1] at this
      cases this
    · have := hle h.1
      omega
  · exact iff_of_true rfl fun hw => Int.not_lt.1 fun hlt => h ⟨hw, hlt⟩

theorem map_snd_eq_self_iff {l : List (Int × Slot)} {f : Slot → Slot} :
    l.map (fun e => (e.1, f e.2)) = l ↔ ∀ e ∈ l, f e.2 = e.2 := by
  induction l with
  | nil => simp
  | cons e l ih =>
    simp only [List.map_cons, List.cons.injEq, ih, List.forall_mem_cons, Prod.ext_iff, true_and]

/-- `check_timeouts` leaves the table as it is exactly when no `WAITING` record is past its
deadline. -/
theorem checkTimeouts_entries_eq_iff {t : ProbeTable} {now : Timeval} :
    (checkTimeouts t now).entries = t.entries ↔
      ∀ e ∈ t.entries, e.2.Waiting → e.2.probe.elapsedMs now ≤ e.2.probe.timeout := by
  simp only [checkTimeouts, ProbeTable.mapSlots, map_snd_eq_self_iff, checkTimeout_eq_self_iff]

/-- `get_min_wait_time` returns 0 exactly when some `WAITING` record's narrowed remaining
time is not positive. -/
theorem getMinWaitTime_eq_zero_iff {t : ProbeTable} {now : Timeval} :
    getMinWaitTime t now = 0 ↔
      ∃ e ∈ t.entries, e.2.Waiting ∧ toInt32 (e.2.probe.remainingMs now) ≤ 0 := by
  constructor
  · intro h
    rw [getMinWaitTime_eq_min?] at h
    cases hm : ((t.entries.filter fun e => e.2.Waiting).map fun e => narrowedWait now e.2).min?
      with
    | none => rw [hm] at h; cases h
    | some a =>
      have hor (a b : Int) : min a b = a ∨ min a b = b := by
        rw [Int.min_def]; split_ifs <;> simp
      obtain ⟨e, he, ha⟩ := List.mem_map.1 (List.min?_mem hor hm)
      rw [hm, Option.getD_some] at h
      rw [List.mem_filter] at he
      exact ⟨e, he.1, of_decide_eq_true he.2, by rw [narrowedWait] at ha; omega⟩
  · rintro ⟨e, he, hw, hle⟩
    have h1 : getMinWaitTime t now ≤ _ := getMinWaitTime_le he hw
    have h0 : 0 ≤ getMinWaitTime t now := (foldl_minWait_waiting t.entries (.inl rfl) he hw).1
    omega

/-- Where every `WAITING` record's remaining time fits in an `int`, `get_min_wait_time`
returns 0 exactly when `check_timeouts` at the same instant expires a record, or some
`WAITING` record's elapsed time equals its timeout. -/
theorem zero_bound_iff {t : ProbeTable} {now : Timeval}
    (h : ∀ e ∈ t.entries, e.2.Waiting → InInt32 (e.2.probe.remainingMs now)) :
    getMinWaitTime t now = 0 ↔
      (checkTimeouts t now).entries ≠ t.entries ∨
        ∃ e ∈ t.entries, e.2.Waiting ∧ e.2.probe.elapsedMs now = e.2.probe.timeout := by
  have hr {e} (he : e ∈ t.entries) (hw : e.2.Waiting) :
      toInt32 (e.2.probe.remainingMs now) = e.2.probe.timeout - e.2.probe.elapsedMs now :=
    toInt32_of_inInt32 (h e he hw)
  rw [getMinWaitTime_eq_zero_iff, Ne, checkTimeouts_entries_eq_iff]
  constructor
  · rintro ⟨e, he, hw, hle⟩
    rw [hr he hw] at hle
    by_cases heq : e.2.probe.elapsedMs now = e.2.probe.timeout
    · exact .inr ⟨e, he, hw, heq⟩
    · exact .inl fun hall => heq (by have := hall e he hw; omega)
  · rintro (hne | ⟨e, he, hw, heq⟩)
    · refine Classical.byContradiction fun hnone => hne fun e he hw => ?_
      exact Int.not_lt.1 fun hlt => hnone ⟨e, he, hw, by rw [hr he hw]; omega⟩
    · exact ⟨e, he, hw, by rw [hr he hw]; omega⟩

/-- One echo with 1000 ms to wait, at exactly 1 s. -/
def atDeadline : ProbeTable := ⟨[(5, ⟨{ status := .waiting, timeout := 1000 }, 0⟩)], by decide⟩

theorem zero_bound_iff_atDeadline :
    (∀ e ∈ atDeadline.entries, e.2.Waiting → InInt32 (e.2.probe.remainingMs ⟨1, 0⟩)) ∧
    (getMinWaitTime atDeadline ⟨1, 0⟩ = 0 ↔
      (checkTimeouts atDeadline ⟨1, 0⟩).entries ≠ atDeadline.entries ∨
        ∃ e ∈ atDeadline.entries, e.2.Waiting ∧
          e.2.probe.elapsedMs ⟨1, 0⟩ = e.2.probe.timeout) :=
  ⟨by decide, zero_bound_iff (by decide)⟩

/-- The echo of `inFlight` (1000 ms, sent at 0): the first iteration drains the token of
`add_socket`, and the next scan runs at exactly 1 s. -/
def exactDeadline : List Action :=
  inFlight ++ [.loopTest, .scan {}, .waitReturn [4], .drain, .checkTimeouts {}, .sendCallbacks,
    .cleanProbes, .loopTest, .scan ⟨1, 0⟩]

/-- At 1 s the echo's elapsed time equals its timeout: the worker blocks with bound 0 and
no token pending, and the iteration that follows expires nothing and comes back to the
same wait over the same table. -/
theorem zero_wait_expires_nothing :
    ((Engine.initial demoCfg).run exactDeadline).map (fun s => (s.counter,
      match s.worker with
      | .wait w _ _ => some w
      | _ => none)) = some (0, some 0) ∧
    ((Engine.initial demoCfg).run (exactDeadline ++ spinOnce ⟨1, 0⟩)).map
        (fun s => (s.counter, s.worker, s.probes.entries)) =
      ((Engine.initial demoCfg).run exactDeadline).map
        (fun s => (s.counter, s.worker, s.probes.entries)) := by decide

end Icmpenguin
