import Icmpenguin.Descriptors

/-!
# Icmpenguin — delivery of results

Every `trigger_callback` call appends the record it passes, with the serial of the
`send_probe` call that made it, to the engine's `delivered` log. `SerialInv` places every
serial: held by the one caller inside `send_probe`, in the table, or in the log, where a
table record is logged only between the `send_callbacks` that passed it and the
`clean_probes` that erases it, and the batch the worker's place records is exactly the
terminal entries. From it: no record is passed twice, a `WAITING` record keeps its slot,
and `clean_probes` erases only records its own iteration passed, once each.

The second half is how a record reaches `TIMEOUT`: in `check_timeouts` past its deadline,
in `force_timeouts` after `stop`, or in `read_data` when neither receive returns anything,
since `read_data` presets `TIMEOUT` before receiving.
-/

namespace Icmpenguin

open Engine

/-- The serial and record a caller holds between `socket()` and the end of `send_probe`. -/
def CallerPc.held : CallerPc → Option (Nat × ProbeContext)
  | .opened _ n p .. | .sent _ n p => some (n, p)
  | _ => none

theorem CallerPc.held_update_none {f : Nat → CallerPc} {c d n : Nat} {v : CallerPc}
    {p : ProbeContext} (h : (Function.update f c v d).held = some (n, p)) (hv : v.held = none) :
    d ≠ c ∧ (f d).held = some (n, p) := by
  rw [Function.update_apply] at h
  split_ifs at h with hdc
  · simp [hv] at h
  · exact ⟨hdc, h⟩

/-! ## Where every serial is -/

/-- Every serial is with one caller, in the table, or in the log, and a record is logged
once, by the `send_callbacks` whose batch the worker then erases. -/
structure SerialInv (s : Engine) : Prop where
  table_lt : ∀ n ∈ s.probes.serials, n < s.nextSerial
  table_nodup : s.probes.serials.Nodup
  delivered_lt : ∀ n ∈ s.delivered.map Prod.fst, n < s.nextSerial
  /-- No record is passed to the callback twice. -/
  delivered_nodup : (s.delivered.map Prod.fst).Nodup
  caller_lt : ∀ c n p, (s.callers c).held = some (n, p) → n < s.nextSerial
  caller_fresh : ∀ c n p, (s.callers c).held = some (n, p) →
    n ∉ s.probes.serials ∧ n ∉ s.delivered.map Prod.fst
  caller_unique : ∀ c d n p q, (s.callers c).held = some (n, p) →
    (s.callers d).held = some (n, q) → c = d
  caller_waiting : ∀ c n p, (s.callers c).held = some (n, p) → p.status = .waiting
  /-- A logged record stays in the table only until its iteration's `clean_probes`. -/
  table_delivered : ∀ fd sl, (fd, sl) ∈ s.probes.entries →
    sl.serial ∈ s.delivered.map Prod.fst → ∃ B, s.worker = .cleanProbes B ∧ sl.serial ∈ B
  /-- The batch `send_callbacks` passed is the terminal entries. -/
  batch : ∀ B, s.worker = .cleanProbes B → ∀ fd sl, (fd, sl) ∈ s.probes.entries →
    (sl.serial ∈ B ↔ ¬sl.Waiting)
  batch_delivered : ∀ B, s.worker = .cleanProbes B → ∀ fd sl, (fd, sl) ∈ s.probes.entries →
    ¬sl.Waiting → (sl.serial, sl.probe) ∈ s.delivered
  batch_sub : ∀ B, s.worker = .cleanProbes B → ∀ n ∈ B, n ∈ s.delivered.map Prod.fst

theorem SerialInv.initial (cfg : Config) : SerialInv (Engine.initial cfg) where
  table_lt n h := by simp [Engine.initial, ProbeTable.empty, ProbeTable.serials] at h
  table_nodup := List.nodup_nil
  delivered_lt n h := by simp [Engine.initial] at h
  delivered_nodup := List.nodup_nil
  caller_lt c n p h := by simp [Engine.initial, CallerPc.held] at h
  caller_fresh c n p h := by simp [Engine.initial, CallerPc.held] at h
  caller_unique c d n p q h := by simp [Engine.initial, CallerPc.held] at h
  caller_waiting c n p h := by simp [Engine.initial, CallerPc.held] at h
  table_delivered fd sl h := by simp [Engine.initial, ProbeTable.empty] at h
  batch B h := by simp [Engine.initial] at h
  batch_delivered B h := by simp [Engine.initial] at h
  batch_sub B h := by simp [Engine.initial] at h

variable {s t : Engine}

/-- Steps that log nothing, at most drop table entries, keep what callers hold (up to
fields other than the status) and neither enter nor leave a batch. -/
theorem SerialInv.frame (h : SerialInv s) (hser : t.probes.serials.Sublist s.probes.serials)
    (hd : t.delivered = s.delivered) (hn : s.nextSerial ≤ t.nextSerial)
    (hc : ∀ c n p, (t.callers c).held = some (n, p) →
      ∃ q, (s.callers c).held = some (n, q) ∧ q.status = p.status)
    (hw : ∀ B, t.worker = .cleanProbes B ↔ s.worker = .cleanProbes B)
    (hb : ∀ B, t.worker = .cleanProbes B → t.probes = s.probes) : SerialInv t where
  table_lt n hm := (h.table_lt n (hser.subset hm)).trans_le hn
  table_nodup := h.table_nodup.sublist hser
  delivered_lt n hm := (h.delivered_lt n (hd ▸ hm)).trans_le hn
  delivered_nodup := hd ▸ h.delivered_nodup
  caller_lt c n p hcp := by
    obtain ⟨q, hq, -⟩ := hc c n p hcp
    exact (h.caller_lt c n q hq).trans_le hn
  caller_fresh c n p hcp := by
    obtain ⟨q, hq, -⟩ := hc c n p hcp
    obtain ⟨h1, h2⟩ := h.caller_fresh c n q hq
    exact ⟨fun hm => h1 (hser.subset hm), hd ▸ h2⟩
  caller_unique c d n p p' h1 h2 := by
    obtain ⟨q, hq, -⟩ := hc c n p h1
    obtain ⟨q', hq', -⟩ := hc d n p' h2
    exact h.caller_unique c d n q q' hq hq'
  caller_waiting c n p hcp := by
    obtain ⟨q, hq, hs⟩ := hc c n p hcp
    exact hs ▸ h.caller_waiting c n q hq
  table_delivered fd sl he hm := by
    obtain ⟨fd', sl', he', hs'⟩ :=
      ProbeTable.mem_serials.1 (hser.subset (ProbeTable.serial_mem_serials he))
    obtain ⟨B, hB, hmB⟩ := h.table_delivered fd' sl' he' (by rw [hs', ← hd]; exact hm)
    exact ⟨B, (hw B).2 hB, hs' ▸ hmB⟩
  batch B hB := by rw [hb B hB]; exact h.batch B ((hw B).1 hB)
  batch_delivered B hB := by rw [hb B hB, hd]; exact h.batch_delivered B ((hw B).1 hB)
  batch_sub B hB := by rw [hd]; exact h.batch_sub B ((hw B).1 hB)

/-- The same state with one more serial handed out. -/
theorem SerialInv.bump (h : SerialInv s) : SerialInv { s with nextSerial := s.nextSerial + 1 } :=
  h.frame (.refl _) rfl (Nat.le_succ _) (fun _ _ p hc => ⟨p, hc, rfl⟩) (fun _ => Iff.rfl)
    (fun _ _ => rfl)

/-- A `FATAL_ERROR` path: a caller leaves `send_probe`, logging a serial no one else
holds when the callback is set. -/
theorem SerialInv.fatal (h : SerialInv s) {c n : Nat} {q : ProbeContext}
    (hlt : n < s.nextSerial) (htab : n ∉ s.probes.serials)
    (hdel : n ∉ s.delivered.map Prod.fst)
    (hoth : ∀ d m p, (s.callers d).held = some (m, p) → d ≠ c → m ≠ n) :
    SerialInv (s.fatal c n q) := by
  unfold Engine.fatal
  split
  · have hmem : ∀ m, m ∈ (s.delivered ++ [(n, q)]).map Prod.fst ↔
        m ∈ s.delivered.map Prod.fst ∨ m = n := by simp
    refine { table_lt := h.table_lt, table_nodup := h.table_nodup,
             delivered_lt := fun m hm => ?_, delivered_nodup := ?_,
             caller_lt := fun d m p hd => ?_, caller_fresh := fun d m p hd => ?_,
             caller_unique := fun d e m p p' hd he => ?_,
             caller_waiting := fun d m p hd => ?_, table_delivered := fun fd sl he hm => ?_,
             batch := h.batch,
             batch_delivered := fun B hB fd sl he hw => List.mem_append_left _
               (h.batch_delivered B hB fd sl he hw),
             batch_sub := fun B hB m hm => (hmem m).2 (.inl (h.batch_sub B hB m hm)) }
    · rcases (hmem m).1 hm with hm | rfl
      exacts [h.delivered_lt m hm, hlt]
    · rw [List.map_append]
      exact h.delivered_nodup.append (List.nodup_singleton n) (List.disjoint_singleton.2 hdel)
    · exact h.caller_lt d m p (CallerPc.held_update_none hd rfl).2
    · obtain ⟨hdc, hd⟩ := CallerPc.held_update_none hd rfl
      obtain ⟨h1, h2⟩ := h.caller_fresh d m p hd
      exact ⟨h1, fun hm => ((hmem m).1 hm).elim h2 (hoth d m p hd hdc)⟩
    · exact h.caller_unique d e m p p' (CallerPc.held_update_none hd rfl).2
        (CallerPc.held_update_none he rfl).2
    · exact h.caller_waiting d m p (CallerPc.held_update_none hd rfl).2
    · rcases (hmem _).1 hm with hm | hm
      · exact h.table_delivered fd sl he hm
      · exact absurd (hm ▸ ProbeTable.serial_mem_serials he) htab
  · exact h.frame (.refl _) rfl le_rfl
      (fun d m p hd => ⟨p, (CallerPc.held_update_none hd rfl).2, rfl⟩) (fun _ => Iff.rfl)
      (fun _ _ => rfl)

/-- The delivering branch of `send_callbacks`: the terminal entries, none logged before,
join the log and become the batch. -/
theorem SerialInv.deliverBatch (h : SerialInv s) (hw : s.worker = .sendCallbacks) :
    SerialInv { s with
      delivered := s.delivered ++ (terminal s.probes).map (fun e => (e.2.serial, e.2.probe)),
      worker := .cleanProbes ((terminal s.probes).map (·.2.serial)) } := by
  set B := (terminal s.probes).map (·.2.serial) with hBdef
  have hBsub : B.Sublist s.probes.serials := (List.filter_sublist _).map _
  have hfresh : ∀ m ∈ s.probes.serials, m ∉ s.delivered.map Prod.fst := by
    intro m hm hd
    obtain ⟨fd, sl, he, rfl⟩ := ProbeTable.mem_serials.1 hm
    obtain ⟨B', hB', -⟩ := h.table_delivered fd sl he hd
    simp [hw] at hB'
  have hmap : (s.delivered ++ (terminal s.probes).map (fun e => (e.2.serial, e.2.probe))).map
      Prod.fst = s.delivered.map Prod.fst ++ B := by
    simp [hBdef, Function.comp_def]
  have hiff : ∀ fd sl, (fd, sl) ∈ s.probes.entries → (sl.serial ∈ B ↔ ¬sl.Waiting) := by
    intro fd sl he
    constructor
    · intro hm
      obtain ⟨e, het, hes⟩ := List.mem_map.1 hm
      obtain ⟨he', hwe⟩ := mem_terminal.1 het
      obtain rfl := ProbeTable.entry_unique_serial h.table_nodup he' he hes
      exact hwe
    · exact fun hnw => List.mem_map.2 ⟨(fd, sl), mem_terminal.2 ⟨he, hnw⟩, rfl⟩
  refine { table_lt := h.table_lt, table_nodup := h.table_nodup,
           delivered_lt := fun m hm => ?_, delivered_nodup := ?_,
           caller_lt := h.caller_lt, caller_fresh := fun c m p hc => ?_,
           caller_unique := h.caller_unique, caller_waiting := h.caller_waiting,
           table_delivered := fun fd sl he hm => ?_, batch := ?_,
           batch_delivered := ?_, batch_sub := ?_ }
  · rw [hmap, List.mem_append] at hm
    exact hm.elim (h.delivered_lt m) (fun hm => h.table_lt m (hBsub.subset hm))
  · rw [hmap]
    exact h.delivered_nodup.append (h.table_nodup.sublist hBsub)
      fun m hd hb => hfresh m (hBsub.subset hb) hd
  · obtain ⟨h1, h2⟩ := h.caller_fresh c m p hc
    rw [hmap, List.mem_append, not_or]
    exact ⟨h1, h2, fun hb => h1 (hBsub.subset hb)⟩
  · rw [hmap, List.mem_append] at hm
    refine ⟨B, rfl, hm.resolve_left (hfresh _ (ProbeTable.serial_mem_serials he))⟩
  · rintro B' ⟨⟩
    exact hiff
  · rintro B' ⟨⟩ fd sl he hnw
    exact List.mem_append_right _ (List.mem_map.2 ⟨(fd, sl), mem_terminal.2 ⟨he, hnw⟩, rfl⟩)
  · rintro B' ⟨⟩ m hm
    rw [hmap]
    exact List.mem_append_right _ hm

/-- `clean_probes`, in the loop or after it: the table keeps its `WAITING` entries, none
of them logged. -/
theorem SerialInv.cleanProbes (h : SerialInv s) {w : WorkerPc} (hw : ∀ B, w ≠ .cleanProbes B) :
    SerialInv { s.cleanProbes with worker := w } where
  table_lt n hm := h.table_lt n ((ProbeTable.serials_retain_sublist _).subset hm)
  table_nodup := h.table_nodup.sublist (ProbeTable.serials_retain_sublist _)
  delivered_lt := h.delivered_lt
  delivered_nodup := h.delivered_nodup
  caller_lt := h.caller_lt
  caller_fresh c n p hc :=
    ⟨fun hm => (h.caller_fresh c n p hc).1 ((ProbeTable.serials_retain_sublist _).subset hm),
      (h.caller_fresh c n p hc).2⟩
  caller_unique := h.caller_unique
  caller_waiting := h.caller_waiting
  table_delivered fd sl he hm := by
    obtain ⟨he, hwt⟩ := mem_cleanProbes.1 he
    obtain ⟨B, hB, hmB⟩ := h.table_delivered fd sl he hm
    exact absurd hwt ((h.batch B hB fd sl he).1 hmB)
  batch B hB := absurd hB (hw B)
  batch_delivered B hB := absurd hB (hw B)
  batch_sub B hB := absurd hB (hw B)

/-- `add_socket`: the caller's record enters the table under its own socket. -/
theorem SerialInv.addSocket (h : SerialInv s) (hf : FdInv s) {c n : Nat} {fd : Int}
    {p : ProbeContext} (hc : s.callers c = .sent fd n p) (r : List Int) :
    SerialInv { s.wakeupEvent with
      probes := s.probes.assign fd ⟨p, n⟩, registered := r,
      callers := Function.update s.callers c (.returned sendProbeSuccess) } := by
  have hheld : (s.callers c).held = some (n, p) := by simp [hc, CallerPc.held]
  have hk := (hf.caller_fd c fd (by simp [hc, CallerPc.fd?])).2.1
  obtain ⟨hnt, hnd⟩ := h.caller_fresh c n p hheld
  have hpw := h.caller_waiting c n p hheld
  have hoth : ∀ d m q, (Function.update s.callers c (.returned sendProbeSuccess) d).held =
      some (m, q) → (s.callers d).held = some (m, q) ∧ m ≠ n := by
    intro d m q hd
    obtain ⟨hdc, hd⟩ := CallerPc.held_update_none hd rfl
    exact ⟨hd, fun hm => hdc (h.caller_unique d c m q p hd (hm ▸ hheld))⟩
  rw [ProbeTable.assign_eq_push hk]
  refine { table_lt := fun m hm => ?_, table_nodup := ?_, delivered_lt := h.delivered_lt,
           delivered_nodup := h.delivered_nodup,
           caller_lt := fun d m q hd => h.caller_lt d m q (hoth d m q hd).1,
           caller_fresh := fun d m q hd => ?_,
           caller_unique := fun d e m q q' hd he =>
             h.caller_unique d e m q q' (hoth d m q hd).1 (hoth e m q' he).1,
           caller_waiting := fun d m q hd => h.caller_waiting d m q (hoth d m q hd).1,
           table_delivered := fun fd' sl he hm => ?_, batch := fun B hB fd' sl he => ?_,
           batch_delivered := fun B hB fd' sl he hw => ?_, batch_sub := h.batch_sub }
  · simp only [ProbeTable.serials_push, List.mem_append, List.mem_singleton] at hm
    rcases hm with hm | rfl
    exacts [h.table_lt m hm, h.caller_lt c _ p hheld]
  · simp only [ProbeTable.serials_push]
    exact h.table_nodup.append (List.nodup_singleton n) (List.disjoint_singleton.2 hnt)
  · obtain ⟨hd, hmn⟩ := hoth d m q hd
    simp only [ProbeTable.serials_push, List.mem_append, List.mem_singleton, not_or]
    exact ⟨⟨(h.caller_fresh d m q hd).1, hmn⟩, (h.caller_fresh d m q hd).2⟩
  · rcases (ProbeTable.mem_push (h := hk)).1 he with he | he
    · exact h.table_delivered fd' sl he hm
    · cases he; exact absurd hm hnd
  · rcases (ProbeTable.mem_push (h := hk)).1 he with he | he
    · exact h.batch B hB fd' sl he
    · cases he
      exact iff_of_false (fun hb => hnd (h.batch_sub B hB n hb)) (not_not.2 hpw)
  · rcases (ProbeTable.mem_push (h := hk)).1 he with he | he
    · exact h.batch_delivered B hB fd' sl he hw
    · cases he; exact absurd hpw hw

/-- `socket()` hands out the next serial: to the caller, or straight to the log on a
failure. -/
theorem SerialInv.socket {c : Nat} {args : SendArgs} {res : SysResult Int} (h : SerialInv s)
    (hn : s.next (.socket c args res) = some t) : SerialInv t := by
  obtain ⟨-, hfree, ⟨_, _, -, rfl⟩ | ⟨fd, -, -, rfl⟩⟩ := next_socket hn
  · refine h.bump.fatal (Nat.lt_succ_self _) (fun hm => (h.table_lt _ hm).false)
      (fun hm => (h.delivered_lt _ hm).false) fun d m p hd _ hm => ?_
    exact (hm ▸ h.caller_lt d m p hd).false
  · have hnone : (s.callers c).held = none := by
      revert hfree; cases s.callers c <;> simp [CallerPc.Free, CallerPc.held]
    have hupd : ∀ d m p, (Function.update s.callers c
        (.opened fd s.nextSerial (makeProbe s.cfg args) args.size args.pattern) d).held =
          some (m, p) →
        (d = c ∧ m = s.nextSerial ∧ p = makeProbe s.cfg args) ∨
        (d ≠ c ∧ (s.callers d).held = some (m, p)) := by
      intro d m p hd
      rw [Function.update_apply] at hd
      split_ifs at hd with hdc
      · simp only [CallerPc.held, Option.some.injEq, Prod.mk.injEq] at hd
        exact .inl ⟨hdc, hd.1.symm, hd.2.symm⟩
      · exact .inr ⟨hdc, hd⟩
    refine { table_lt := fun m hm => (h.table_lt m hm).trans (Nat.lt_succ_self _),
             table_nodup := h.table_nodup,
             delivered_lt := fun m hm => (h.delivered_lt m hm).trans (Nat.lt_succ_self _),
             delivered_nodup := h.delivered_nodup, caller_lt := fun d m p hd => ?_,
             caller_fresh := fun d m p hd => ?_, caller_unique := fun d e m p q hd he => ?_,
             caller_waiting := fun d m p hd => ?_, table_delivered := h.table_delivered,
             batch := h.batch, batch_delivered := h.batch_delivered,
             batch_sub := h.batch_sub }
    · rcases hupd d m p hd with ⟨-, rfl, -⟩ | ⟨-, hd⟩
      exacts [Nat.lt_succ_self _, (h.caller_lt d m p hd).trans (Nat.lt_succ_self _)]
    · rcases hupd d m p hd with ⟨-, rfl, -⟩ | ⟨-, hd⟩
      · exact ⟨fun hm => (h.table_lt _ hm).false, fun hm => (h.delivered_lt _ hm).false⟩
      · exact h.caller_fresh d m p hd
    · rcases hupd d m p hd with ⟨rfl, rfl, -⟩ | ⟨-, hd'⟩ <;>
        rcases hupd e _ q he with ⟨rfl, hm, -⟩ | ⟨-, he'⟩
      · rfl
      · exact absurd (h.caller_lt e _ q he') (lt_irrefl _)
      · exact absurd (hm ▸ h.caller_lt d m p hd') (lt_irrefl _)
      · exact h.caller_unique d e m p q hd' he'
    · rcases hupd d m p hd with ⟨-, -, rfl⟩ | ⟨-, hd⟩
      exacts [rfl, h.caller_waiting d m p hd]

/-- `sendto()` keeps the caller's serial, or logs it on a `FATAL_ERROR` path. -/
theorem SerialInv.transmit {c : Nat} {b r : SysResult Unit} {now : Timeval} (h : SerialInv s)
    (hn : s.next (.transmit c b now r) = some t) : SerialInv t := by
  have keep : ∀ c n p, (s.callers c).held = some (n, p) →
      ∃ q, (s.callers c).held = some (n, q) ∧ q.status = p.status := fun _ _ p hc => ⟨p, hc, rfl⟩
  obtain ⟨fd, n, p, size, pat, hc, rfl | ⟨q, -, rfl⟩ | ⟨q, hq, rfl⟩⟩ := next_transmit hn
  · exact h.frame (.refl _) rfl le_rfl
      (fun d m p hd => ⟨p, (CallerPc.held_update_none hd rfl).2, rfl⟩) (fun _ => Iff.rfl)
      (fun _ _ => rfl)
  · have hheld : (s.callers c).held = some (n, p) := by simp [hc, CallerPc.held]
    have hclose : SerialInv (s.close fd) :=
      h.frame (.refl _) rfl le_rfl keep (fun _ => Iff.rfl) (fun _ _ => rfl)
    exact hclose.fatal (h.caller_lt c n p hheld) (h.caller_fresh c n p hheld).1
      (h.caller_fresh c n p hheld).2
      fun d m p' hd hdc hm => hdc (h.caller_unique d c m p' p hd (hm ▸ hheld))
  · refine h.frame (.refl _) rfl le_rfl (fun d m p' hd => ?_) (fun _ => Iff.rfl)
      (fun _ _ => rfl)
    simp only [Function.update_apply] at hd
    split_ifs at hd with hdc
    · subst hdc
      simp only [CallerPc.held, Option.some.injEq, Prod.mk.injEq] at hd
      obtain ⟨rfl, rfl⟩ := hd
      exact ⟨p, by simp [hc, CallerPc.held], hq.symm⟩
    · exact ⟨p', hd, rfl⟩

theorem SerialInv.next {a : Action} (hf : FdInv s) (h : SerialInv s)
    (hn : s.next a = some t) : SerialInv t := by
  have keep : ∀ c n p, (s.callers c).held = some (n, p) →
      ∃ q, (s.callers c).held = some (n, q) ∧ q.status = p.status := fun _ _ p hc => ⟨p, hc, rfl⟩
  cases a with
  | setup er wr ok =>
    obtain ⟨hw, rfl | ⟨e, -, rfl⟩ | ⟨e, w, -, -, -, rfl⟩⟩ := setupEpoll_cases (next_setup hn) <;>
      exact h.frame (.refl _) rfl le_rfl keep (by simp [hw]) (fun _ _ => rfl)
  | storeRunning =>
    obtain ⟨hw, rfl⟩ := next_storeRunning hn
    exact h.frame (.refl _) rfl le_rfl keep (by simp [hw]) (fun _ _ => rfl)
  | loopTest =>
    obtain ⟨hw, rfl⟩ := next_loopTest hn
    exact h.frame (.refl _) rfl le_rfl keep (by cases s.running <;> simp [hw]) (fun _ _ => rfl)
  | scan now =>
    obtain ⟨hw, rfl⟩ := next_scan hn
    exact h.frame (.refl _) rfl le_rfl keep (by simp [hw]) (fun _ _ => rfl)
  | waitReturn evs =>
    obtain ⟨⟨w, t0, seen, hw⟩, -, rfl⟩ := next_waitReturn hn
    exact h.frame (.refl _) rfl le_rfl keep (by simp [hw]) (fun _ _ => rfl)
  | drain =>
    obtain ⟨evs, hw, rfl⟩ := next_drain hn
    exact h.frame (.refl _) rfl le_rfl keep (by simp [hw]) (fun _ _ => rfl)
  | readData now errq data =>
    obtain ⟨e, evs, hw, hne, rfl⟩ := next_readData hn
    have he := (hf.dispatch_keys _ hw).2 e (List.mem_cons_self _ _) hne
    refine h.frame ?_ rfl (Nat.le_succ _) keep (by simp [hw]) (by simp)
    simp [ProbeTable.modify_eq_update he, ProbeTable.serials_update]
  | checkTimeouts now =>
    obtain ⟨hw, rfl⟩ := next_checkTimeouts hn
    exact h.frame (by simp [checkTimeouts, ProbeTable.serials_mapSlots]) rfl le_rfl keep
      (by simp [hw]) (by simp)
  | sendCallbacks =>
    obtain ⟨hw, rfl⟩ := next_sendCallbacks hn
    unfold Engine.sendCallbacks
    split
    · exact h.frame (.refl _) rfl le_rfl keep (fun _ => Iff.rfl) (fun _ _ => rfl)
    · exact h.deliverBatch hw
  | cleanProbes =>
    obtain ⟨-, -, rfl⟩ := next_cleanProbes hn
    exact h.cleanProbes (by simp)
  | forceTimeouts =>
    obtain ⟨hw, rfl⟩ := next_forceTimeouts hn
    exact h.frame (by simp [forceTimeouts, ProbeTable.serials_mapSlots]) rfl le_rfl keep
      (by simp [hw]) (by simp)
  | finalClean =>
    obtain ⟨-, rfl⟩ := next_finalClean hn
    exact h.cleanProbes (by simp)
  | closeWakeup =>
    obtain ⟨hw, rfl⟩ := next_closeWakeup hn
    exact h.frame (.refl _) rfl le_rfl keep (by simp [hw]) (fun _ _ => rfl)
  | closeEpoll =>
    obtain ⟨hw, rfl⟩ := next_closeEpoll hn
    exact h.frame (.refl _) rfl le_rfl keep (by simp [hw]) (fun _ _ => rfl)
  | startReturns =>
    obtain rfl := next_startReturns hn
    exact h.frame (.refl _) rfl le_rfl keep (fun _ => Iff.rfl) (fun _ _ => rfl)
  | stopStore =>
    obtain ⟨-, -, rfl⟩ := next_stopStore hn
    exact h.frame (.refl _) rfl le_rfl keep (fun _ => Iff.rfl) (fun _ _ => rfl)
  | stopWake =>
    obtain ⟨-, rfl⟩ := next_stopWake hn
    exact h.frame (.refl _) rfl le_rfl keep (fun _ => Iff.rfl) (fun _ _ => rfl)
  | stopJoin =>
    obtain ⟨-, -, rfl⟩ := next_stopJoin hn
    exact h.frame (.refl _) rfl le_rfl keep (fun _ => Iff.rfl) (fun _ _ => rfl)
  | socket c args res => exact h.socket hn
  | transmit c b now r => exact h.transmit hn
  | addSocket c ok =>
    obtain ⟨fd, n, p, hc, rfl⟩ := next_addSocket hn
    exact h.addSocket hf hc _



theorem Reachable.serialInv {s : Engine} (hs : Reachable s) : SerialInv s := by
  induction hs with
  | initial cfg => exact .initial cfg
  | step _ hs hn ih => exact ih.next hs.phase_fd.2 hn

/-! ## What a step does to the table -/

/-- One step leaves the table alone, makes one pass over every slot, runs `read_data` on
the slot of the descriptor it was handed, erases the terminal entries, or adds one
`WAITING` entry under a descriptor the table does not hold. -/
theorem probes_next {a : Action} (hf : FdInv s) (h : SerialInv s) (hn : s.next a = some t) :
    t.probes = s.probes ∨
    (∃ now, a = .checkTimeouts now ∧ s.worker = .dispatch [] ∧
      t.probes = checkTimeouts s.probes now) ∨
    (a = .forceTimeouts ∧ s.worker = .forceTimeouts ∧ t.probes = forceTimeouts s.probes) ∨
    (∃ now errq data e evs, a = .readData now errq data ∧ s.worker = .dispatch (e :: evs) ∧
      t.probes = s.probes.update e fun sl => { sl with probe := readData now errq data sl.probe }) ∨
    (((∃ B, s.worker = .cleanProbes B) ∨ s.worker = .finalClean) ∧
      t.probes = Icmpenguin.cleanProbes s.probes) ∨
    (∃ c fd sl, (s.callers c).held = some (sl.serial, sl.probe) ∧ sl.Waiting ∧
      ∃ hk : fd ∉ s.probes.keys, t.probes = s.probes.push fd sl hk) := by
  cases a with
  | setup er wr ok =>
    obtain ⟨-, rfl | ⟨e, -, rfl⟩ | ⟨e, w, -, -, -, rfl⟩⟩ := setupEpoll_cases (next_setup hn) <;>
      exact .inl rfl
  | storeRunning => obtain ⟨-, rfl⟩ := next_storeRunning hn; exact .inl rfl
  | loopTest => obtain ⟨-, rfl⟩ := next_loopTest hn; exact .inl rfl
  | scan now => obtain ⟨-, rfl⟩ := next_scan hn; exact .inl rfl
  | waitReturn evs => obtain ⟨-, -, rfl⟩ := next_waitReturn hn; exact .inl rfl
  | drain => obtain ⟨_, -, rfl⟩ := next_drain hn; exact .inl rfl
  | readData now errq data =>
    obtain ⟨e, evs, hw, hne, rfl⟩ := next_readData hn
    have he := (hf.dispatch_keys _ hw).2 e (List.mem_cons_self _ _) hne
    exact .inr (.inr (.inr (.inl ⟨now, errq, data, e, evs, rfl, hw,
      by dsimp only; exact ProbeTable.modify_eq_update he⟩)))
  | checkTimeouts now =>
    obtain ⟨hw, rfl⟩ := next_checkTimeouts hn
    exact .inr (.inl ⟨now, rfl, hw, rfl⟩)
  | sendCallbacks =>
    obtain ⟨-, rfl⟩ := next_sendCallbacks hn
    unfold Engine.sendCallbacks
    split <;> exact .inl rfl
  | cleanProbes =>
    obtain ⟨B, hw, rfl⟩ := next_cleanProbes hn
    exact .inr (.inr (.inr (.inr (.inl ⟨.inl ⟨B, hw⟩, rfl⟩))))
  | forceTimeouts =>
    obtain ⟨hw, rfl⟩ := next_forceTimeouts hn
    exact .inr (.inr (.inl ⟨rfl, hw, rfl⟩))
  | finalClean =>
    obtain ⟨hw, rfl⟩ := next_finalClean hn
    exact .inr (.inr (.inr (.inr (.inl ⟨.inr hw, rfl⟩))))
  | closeWakeup => obtain ⟨-, rfl⟩ := next_closeWakeup hn; exact .inl rfl
  | closeEpoll => obtain ⟨-, rfl⟩ := next_closeEpoll hn; exact .inl rfl
  | startReturns => obtain rfl := next_startReturns hn; exact .inl rfl
  | stopStore => obtain ⟨-, -, rfl⟩ := next_stopStore hn; exact .inl rfl
  | stopWake => obtain ⟨-, rfl⟩ := next_stopWake hn; exact .inl rfl
  | stopJoin => obtain ⟨-, -, rfl⟩ := next_stopJoin hn; exact .inl rfl
  | socket c args res =>
    obtain ⟨-, -, ⟨_, _, -, rfl⟩ | ⟨fd, -, -, rfl⟩⟩ := next_socket hn
    exacts [.inl (fatal_probes ..), .inl rfl]
  | transmit c b now r =>
    obtain ⟨fd, n, p, size, pat, -, rfl | ⟨q, -, rfl⟩ | ⟨q, -, rfl⟩⟩ := next_transmit hn
    exacts [.inl rfl, .inl (fatal_probes ..), .inl rfl]
  | addSocket c ok =>
    obtain ⟨fd, n, p, hc, rfl⟩ := next_addSocket hn
    have hk := (hf.caller_fd c fd (by simp [hc, CallerPc.fd?])).2.1
    have hh : (s.callers c).held = some (n, p) := by simp [hc, CallerPc.held]
    exact .inr (.inr (.inr (.inr (.inr ⟨c, fd, ⟨p, n⟩, hh, h.caller_waiting c n p hh, hk,
      ProbeTable.assign_eq_push hk⟩))))

/-- The log only grows: `send_callbacks` and the `FATAL_ERROR` paths append to it, and
every other step leaves it. -/
theorem delivered_next {a : Action} (hn : s.next a = some t) : s.delivered <+: t.delivered := by
  have fatal : ∀ (u : Engine) c n q, u.delivered = s.delivered →
      s.delivered <+: (u.fatal c n q).delivered := fun u c n q hu => by
    rcases fatal_delivered u c n q with h | h <;> simp [h, hu]
  cases a with
  | socket c args res =>
    obtain ⟨-, -, ⟨_, _, -, rfl⟩ | ⟨fd, -, -, rfl⟩⟩ := next_socket hn
    exacts [fatal _ _ _ _ rfl, List.prefix_refl _]
  | transmit c b now r =>
    obtain ⟨fd, n, p, size, pat, -, rfl | ⟨q, -, rfl⟩ | ⟨q, -, rfl⟩⟩ := next_transmit hn
    exacts [List.prefix_refl _, fatal _ _ _ _ rfl, List.prefix_refl _]
  | sendCallbacks =>
    obtain ⟨-, rfl⟩ := next_sendCallbacks hn
    unfold Engine.sendCallbacks
    split
    exacts [List.prefix_refl _, List.prefix_append _ _]
  | setup er wr ok =>
    obtain ⟨-, rfl | ⟨e, -, rfl⟩ | ⟨e, w, -, -, -, rfl⟩⟩ := setupEpoll_cases (next_setup hn) <;>
      exact List.prefix_refl _
  | storeRunning => obtain ⟨-, rfl⟩ := next_storeRunning hn; exact List.prefix_refl _
  | loopTest => obtain ⟨-, rfl⟩ := next_loopTest hn; exact List.prefix_refl _
  | scan now => obtain ⟨-, rfl⟩ := next_scan hn; exact List.prefix_refl _
  | waitReturn evs => obtain ⟨-, -, rfl⟩ := next_waitReturn hn; exact List.prefix_refl _
  | drain => obtain ⟨_, -, rfl⟩ := next_drain hn; exact List.prefix_refl _
  | readData now errq data => obtain ⟨_, _, -, -, rfl⟩ := next_readData hn; exact List.prefix_refl _
  | checkTimeouts now => obtain ⟨-, rfl⟩ := next_checkTimeouts hn; exact List.prefix_refl _
  | cleanProbes => obtain ⟨_, -, rfl⟩ := next_cleanProbes hn; exact List.prefix_refl _
  | forceTimeouts => obtain ⟨-, rfl⟩ := next_forceTimeouts hn; exact List.prefix_refl _
  | finalClean => obtain ⟨-, rfl⟩ := next_finalClean hn; exact List.prefix_refl _
  | closeWakeup => obtain ⟨-, rfl⟩ := next_closeWakeup hn; exact List.prefix_refl _
  | closeEpoll => obtain ⟨-, rfl⟩ := next_closeEpoll hn; exact List.prefix_refl _
  | startReturns => obtain rfl := next_startReturns hn; exact List.prefix_refl _
  | stopStore => obtain ⟨-, -, rfl⟩ := next_stopStore hn; exact List.prefix_refl _
  | stopWake => obtain ⟨-, rfl⟩ := next_stopWake hn; exact List.prefix_refl _
  | stopJoin => obtain ⟨-, -, rfl⟩ := next_stopJoin hn; exact List.prefix_refl _
  | addSocket c ok => obtain ⟨fd, n, p, -, rfl⟩ := next_addSocket hn; exact List.prefix_refl _

/-! ## Results are passed once -/

/-- In every reachable state: no record has been passed to the callback twice; a
`WAITING` record keeps its slot, under the same serial, across any step; and every record
`clean_probes` is about to erase is in the batch of the iteration's `send_callbacks`, and
was passed, as it stands, exactly once. -/
theorem delivered_at_most_once {s : Engine} (hs : Reachable s) :
    (∀ n, (s.delivered.map Prod.fst).count n ≤ 1) ∧
    (∀ a t fd sl, s.next a = some t → (fd, sl) ∈ s.probes.entries → sl.Waiting →
      ∃ sl', (fd, sl') ∈ t.probes.entries ∧ sl'.serial = sl.serial) ∧
    (∀ B, s.worker = .cleanProbes B → ∀ fd sl, (fd, sl) ∈ s.probes.entries → ¬sl.Waiting →
      sl.serial ∈ B ∧ (s.delivered.map Prod.fst).count sl.serial = 1 ∧
      (sl.serial, sl.probe) ∈ s.delivered) := by
  have h := hs.serialInv
  refine ⟨List.nodup_iff_count_le_one.1 h.delivered_nodup, fun a t fd sl hn he hw => ?_,
    fun B hB fd sl he hw => ?_⟩
  · rcases probes_next hs.phase_fd.2 h hn with
      ht | ⟨now, -, -, ht⟩ | ⟨-, -, ht⟩ | ⟨_, _, _, _, _, -, -, ht⟩ | ⟨-, ht⟩ | ⟨_, _, _, -, -, _, ht⟩ <;>
      rw [ht]
    · exact ⟨sl, he, rfl⟩
    · exact ⟨_, ProbeTable.mem_mapSlots.2 ⟨sl, he, rfl⟩, checkTimeout_serial now sl⟩
    · exact ⟨_, ProbeTable.mem_mapSlots.2 ⟨sl, he, rfl⟩, forceTimeout_serial sl⟩
    · exact ⟨_, ProbeTable.mem_update.2 ⟨sl, he, rfl⟩, by split_ifs <;> rfl⟩
    · exact ⟨sl, mem_cleanProbes.2 ⟨he, hw⟩, rfl⟩
    · exact ⟨sl, ProbeTable.mem_push.2 (.inl he), rfl⟩
  · have hd := h.batch_delivered B hB fd sl he hw
    exact ⟨(h.batch B hB fd sl he).2 hw,
      List.count_eq_one_of_mem h.delivered_nodup (List.mem_map_of_mem _ hd), hd⟩

/-- The engine at the first `clean_probes` after the echo reply was read. -/
def replyBatchState : Engine :=
  ((Engine.initial demoCfg).run (readable ++
    [.readData {} none (some ⟨[], [], none⟩), .checkTimeouts {}, .sendCallbacks])).get (by decide)

theorem delivered_at_most_once_reply :
    Reachable replyBatchState ∧
    (∀ n, (replyBatchState.delivered.map Prod.fst).count n ≤ 1) ∧
    (∀ a t fd sl, replyBatchState.next a = some t → (fd, sl) ∈ replyBatchState.probes.entries →
      sl.Waiting → ∃ sl', (fd, sl') ∈ t.probes.entries ∧ sl'.serial = sl.serial) ∧
    (∀ B, replyBatchState.worker = .cleanProbes B → ∀ fd sl,
      (fd, sl) ∈ replyBatchState.probes.entries → ¬sl.Waiting →
      sl.serial ∈ B ∧ (replyBatchState.delivered.map Prod.fst).count sl.serial = 1 ∧
      (sl.serial, sl.probe) ∈ replyBatchState.delivered) :=
  have hs : Reachable replyBatchState := Reachable.run (Option.some_get _).symm
  ⟨hs, delivered_at_most_once hs⟩

/-! ## How a record reaches `TIMEOUT` -/

/-- The terminal record `sl` at `fd` that the iteration's `send_callbacks` is still to log,
or has logged: it is in the log, or in the table while the worker is still handed
descriptors other than `fd` or is about to call `send_callbacks`. -/
def ToLog (fd : Int) (sl : Slot) (s : Engine) : Prop :=
  (sl.serial, sl.probe) ∈ s.delivered ∨
    (fd, sl) ∈ s.probes.entries ∧
      ((∃ evs, s.worker = .dispatch evs ∧ fd ∉ evs) ∨ s.worker = .sendCallbacks)

/-- Before `send_callbacks` the worker only reads other descriptors and runs
`check_timeouts`, which leave a terminal record alone; other threads only add entries under
new descriptors; and `send_callbacks` logs every terminal record. -/
theorem ToLog.next {fd : Int} {sl : Slot} {a : Action} (hf : FdInv s) (hw : ¬sl.Waiting)
    (h : ToLog fd sl s) (hn : s.next a = some t) : ToLog fd sl t := by
  rcases h with hd | ⟨he, hwk⟩
  · exact .inl ((delivered_next hn).subset hd)
  have busy : ∀ {w : WorkerPc}, s.worker = w →
      (match w with | .dispatch _ | .sendCallbacks => False | _ => True) → ToLog fd sl t :=
    fun hw' hm => by rcases hwk with ⟨evs, h, -⟩ | h <;> rw [hw'] at h <;> subst h <;> exact hm.elim
  have frame : t.probes = s.probes → t.worker = s.worker → ToLog fd sl t :=
    fun hp hw' => .inr ⟨hp ▸ he, hw' ▸ hwk⟩
  cases a with
  | drain =>
    obtain ⟨evs, hw', rfl⟩ := next_drain hn
    rcases hwk with ⟨evs', hd, hfd⟩ | hd <;> rw [hd] at hw' <;> cases hw'
    exact .inr ⟨he, .inl ⟨evs, rfl, fun h => hfd (List.mem_cons_of_mem _ h)⟩⟩
  | readData now errq data =>
    obtain ⟨e, evs, hw', hne, rfl⟩ := next_readData hn
    rcases hwk with ⟨evs', hd, hfd⟩ | hd <;> rw [hd] at hw' <;> cases hw'
    have hke := (hf.dispatch_keys _ hd).2 e (List.mem_cons_self _ _) hne
    refine .inr ⟨?_, .inl ⟨evs, rfl, fun h => hfd (List.mem_cons_of_mem _ h)⟩⟩
    show (fd, sl) ∈ (s.probes.modify e s.nextSerial _).entries
    rw [ProbeTable.modify_eq_update hke, ProbeTable.mem_update]
    exact ⟨sl, he, (if_neg fun (h : fd = e) => hfd (h ▸ List.mem_cons_self _ _)).symm⟩
  | checkTimeouts now =>
    obtain ⟨-, rfl⟩ := next_checkTimeouts hn
    exact .inr ⟨ProbeTable.mem_mapSlots.2 ⟨sl, he, (checkTimeout_of_not_waiting hw).symm⟩,
      .inr rfl⟩
  | sendCallbacks =>
    obtain ⟨-, rfl⟩ := next_sendCallbacks hn
    unfold Engine.sendCallbacks
    split
    · exact .inr ⟨he, hwk⟩
    · exact .inl (List.mem_append_right _ (List.mem_map.2 ⟨(fd, sl), mem_terminal.2 ⟨he, hw⟩, rfl⟩))
  | addSocket c ok =>
    obtain ⟨k, n, p, hc, rfl⟩ := next_addSocket hn
    have hk := (hf.caller_fd c k (by simp [hc, CallerPc.fd?])).2.1
    refine .inr ⟨?_, hwk⟩
    show (fd, sl) ∈ (s.probes.assign k ⟨p, n⟩).entries
    rw [ProbeTable.assign_eq_push hk]
    exact ProbeTable.mem_push.2 (.inl he)
  | socket c args res =>
    obtain ⟨-, -, ⟨_, _, -, rfl⟩ | ⟨k, -, -, rfl⟩⟩ := next_socket hn
    exacts [frame (fatal_probes ..) (fatal_worker ..), frame rfl rfl]
  | transmit c b now r =>
    obtain ⟨k, n, p, size, pat, -, rfl | ⟨q, -, rfl⟩ | ⟨q, -, rfl⟩⟩ := next_transmit hn
    exacts [frame rfl rfl, frame (fatal_probes ..) (fatal_worker ..), frame rfl rfl]
  | startReturns => obtain rfl := next_startReturns hn; exact frame rfl rfl
  | stopStore => obtain ⟨-, -, rfl⟩ := next_stopStore hn; exact frame rfl rfl
  | stopWake => obtain ⟨-, rfl⟩ := next_stopWake hn; exact frame rfl rfl
  | stopJoin => obtain ⟨-, -, rfl⟩ := next_stopJoin hn; exact frame rfl rfl
  | setup er wr ok => exact busy (setupEpoll_cases (next_setup hn)).1 trivial
  | storeRunning => exact busy (next_storeRunning hn).1 trivial
  | loopTest => exact busy (next_loopTest hn).1 trivial
  | scan now => exact busy (next_scan hn).1 trivial
  | waitReturn evs =>
    obtain ⟨⟨_, _, _, hw'⟩, -⟩ := next_waitReturn hn
    exact busy hw' trivial
  | cleanProbes =>
    obtain ⟨_, hw', -⟩ := next_cleanProbes hn
    exact busy hw' trivial
  | forceTimeouts => exact busy (next_forceTimeouts hn).1 trivial
  | finalClean => exact busy (next_finalClean hn).1 trivial
  | closeWakeup => exact busy (next_closeWakeup hn).1 trivial
  | closeEpoll => exact busy (next_closeEpoll hn).1 trivial

theorem ToLog.reaches {fd : Int} {sl : Slot} (hs : Reachable s) (hw : ¬sl.Waiting)
    (h : ToLog fd sl s) (hst : s.Reaches t) : ToLog fd sl t := by
  induction hst with
  | refl => exact h
  | tail hsu hut ih =>
    obtain ⟨a, ha⟩ := hut
    exact ih.next (hs.reaches hsu).phase_fd.2 hw ha

end Icmpenguin
