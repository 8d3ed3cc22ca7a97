import Icmpenguin.Basic
import Mathlib.Data.List.Nodup

/-!
# Icmpenguin — the probe table

`std::unordered_map<int, ProbeContext> probes`, keyed by socket descriptor, and the
worker's passes over it: `check_timeouts`, `force_timeouts`, the delivery list of
`send_callbacks`, `clean_probes` and `get_min_wait_time`. The map is a list of entries
with distinct keys, iterated in list order; the passes that change it act on each entry
on its own, so the order matters only for the order of deliveries, which the spec leaves
open.

Each slot also carries the serial number of the `send_probe` call that made it. It is
bookkeeping, not a C++ field: descriptors are reused, serials are not, so it is what
"the same probe" means across a reap.
-/

namespace Icmpenguin

/-- A table slot: the record and the serial of the call that created it. -/
structure Slot where
  probe : ProbeContext
  serial : Nat
  deriving DecidableEq, Repr

/-- `WAITING`: the only non-terminal status. -/
def Slot.Waiting (s : Slot) : Prop := s.probe.status = .waiting

instance (s : Slot) : Decidable s.Waiting := inferInstanceAs (Decidable (_ = _))

/-- The probe table: entries with pairwise distinct descriptors. -/
structure ProbeTable where
  entries : List (Int × Slot)
  nodup : (entries.map Prod.fst).Nodup

namespace ProbeTable

/-- The descriptors the table owns. -/
def keys (t : ProbeTable) : List Int := t.entries.map Prod.fst

/-- The serials of the probes in the table. -/
def serials (t : ProbeTable) : List Nat := t.entries.map (·.2.serial)

def empty : ProbeTable := ⟨[], List.nodup_nil⟩

/-- Apply `f` to the slot at `fd`, if any. -/
def update (t : ProbeTable) (fd : Int) (f : Slot → Slot) : ProbeTable :=
  ⟨t.entries.map (fun e => if e.1 = fd then (e.1, f e.2) else e), by
    rw [List.map_map]
    convert t.nodup using 2
    funext e
    simp only [Function.comp_apply]
    split_ifs <;> rfl⟩

/-- Add an entry under a descriptor the table does not hold. -/
def push (t : ProbeTable) (fd : Int) (s : Slot) (h : fd ∉ t.keys) : ProbeTable :=
  ⟨t.entries ++ [(fd, s)], by
    rw [List.map_append, List.nodup_append]
    exact ⟨t.nodup, List.nodup_singleton _, List.disjoint_singleton.2 h⟩⟩

/-- `probes[fd] = s`: overwrite the slot at `fd`, or insert one. -/
def assign (t : ProbeTable) (fd : Int) (s : Slot) : ProbeTable :=
  if h : fd ∈ t.keys then t.update fd (fun _ => s) else t.push fd s h

/-- `probes[fd]` followed by writes through the reference: the slot at `fd`, or a
value-initialised record (with serial `fresh`) inserted first, then `f`. -/
def modify (t : ProbeTable) (fd : Int) (fresh : Nat) (f : Slot → Slot) : ProbeTable :=
  if h : fd ∈ t.keys then t.update fd f else t.push fd (f ⟨{}, fresh⟩) h

/-- Apply `f` to every slot. -/
def mapSlots (t : ProbeTable) (f : Slot → Slot) : ProbeTable :=
  ⟨t.entries.map (fun e => (e.1, f e.2)), by
    rw [List.map_map]
    exact t.nodup⟩

/-- Keep the entries satisfying `p`. -/
def retain (t : ProbeTable) (p : Slot → Bool) : ProbeTable :=
  ⟨t.entries.filter (fun e => p e.2), t.nodup.sublist ((List.filter_sublist _).map _)⟩

end ProbeTable

/-! ## Membership through each operation -/

namespace ProbeTable

variable {t : ProbeTable}

theorem mem_keys {fd : Int} : fd ∈ t.keys ↔ ∃ sl, (fd, sl) ∈ t.entries := by
  simp [keys]

theorem mem_serials {n : Nat} : n ∈ t.serials ↔ ∃ fd sl, (fd, sl) ∈ t.entries ∧ sl.serial = n := by
  simp [serials]

theorem serial_mem_serials {fd : Int} {sl : Slot} (h : (fd, sl) ∈ t.entries) :
    sl.serial ∈ t.serials :=
  mem_serials.2 ⟨fd, sl, h, rfl⟩

/-- One slot per descriptor. -/
theorem slot_unique {fd : Int} {a b : Slot} (ha : (fd, a) ∈ t.entries)
    (hb : (fd, b) ∈ t.entries) : a = b :=
  (Prod.ext_iff.1 (List.inj_on_of_nodup_map t.nodup ha hb rfl)).2

/-- With distinct serials, one entry per serial. -/
theorem entry_unique_serial (h : t.serials.Nodup) {a b : Int × Slot} (ha : a ∈ t.entries)
    (hb : b ∈ t.entries) (he : a.2.serial = b.2.serial) : a = b :=
  List.inj_on_of_nodup_map h ha hb he

@[simp] theorem keys_update (fd : Int) (f : Slot → Slot) : (t.update fd f).keys = t.keys := by
  simp only [keys, update, List.map_map]
  congr 1
  funext e
  simp only [Function.comp_apply]
  split_ifs <;> rfl

theorem mem_update {fd k : Int} {f : Slot → Slot} {sl : Slot} :
    (k, sl) ∈ (t.update fd f).entries ↔
      ∃ sl₀, (k, sl₀) ∈ t.entries ∧ sl = if k = fd then f sl₀ else sl₀ := by
  simp only [update, List.mem_map]
  constructor
  · rintro ⟨⟨k', sl'⟩, h, he⟩
    by_cases hk : k' = fd
    · simp only [hk, if_true, Prod.mk.injEq] at he
      obtain ⟨rfl, rfl⟩ := he
      exact ⟨sl', by simpa [hk] using h, by simp [hk]⟩
    · simp only [hk, if_false, Prod.mk.injEq] at he
      obtain ⟨rfl, rfl⟩ := he
      exact ⟨sl', h, by simp [hk]⟩
  · rintro ⟨sl₀, h, rfl⟩
    exact ⟨(k, sl₀), h, by split_ifs <;> simp_all⟩

theorem serials_update {fd : Int} {f : Slot → Slot} (hf : ∀ sl, (f sl).serial = sl.serial) :
    (t.update fd f).serials = t.serials := by
  simp only [serials, update, List.map_map]
  congr 1
  funext e
  simp only [Function.comp_apply]
  split_ifs <;> simp [hf]

@[simp] theorem keys_push {fd : Int} {sl : Slot} {h : fd ∉ t.keys} :
    (t.push fd sl h).keys = t.keys ++ [fd] := by
  simp [keys, push]

@[simp] theorem serials_push {fd : Int} {sl : Slot} {h : fd ∉ t.keys} :
    (t.push fd sl h).serials = t.serials ++ [sl.serial] := by
  simp [serials, push]

@[simp] theorem mem_push {fd : Int} {sl : Slot} {h : fd ∉ t.keys} {e : Int × Slot} :
    e ∈ (t.push fd sl h).entries ↔ e ∈ t.entries ∨ e = (fd, sl) := by
  simp [push]

theorem assign_eq_push {fd : Int} {sl : Slot} (h : fd ∉ t.keys) :
    t.assign fd sl = t.push fd sl h := dif_neg h

theorem modify_eq_update {fd : Int} {n : Nat} {f : Slot → Slot} (h : fd ∈ t.keys) :
    t.modify fd n f = t.update fd f := dif_pos h

@[simp] theorem keys_mapSlots (f : Slot → Slot) : (t.mapSlots f).keys = t.keys := by
  simp [keys, mapSlots, Function.comp_def]

theorem mem_mapSlots {f : Slot → Slot} {k : Int} {sl : Slot} :
    (k, sl) ∈ (t.mapSlots f).entries ↔ ∃ sl₀, (k, sl₀) ∈ t.entries ∧ sl = f sl₀ := by
  simp only [mapSlots, List.mem_map, Prod.mk.injEq]
  constructor
  · rintro ⟨⟨k', sl'⟩, h, rfl, rfl⟩; exact ⟨sl', h, rfl⟩
  · rintro ⟨sl₀, h, rfl⟩; exact ⟨(k, sl₀), h, rfl, rfl⟩

theorem serials_mapSlots {f : Slot → Slot} (hf : ∀ sl, (f sl).serial = sl.serial) :
    (t.mapSlots f).serials = t.serials := by
  simp [serials, mapSlots, Function.comp_def, hf]

@[simp] theorem mem_retain {p : Slot → Bool} {e : Int × Slot} :
    e ∈ (t.retain p).entries ↔ e ∈ t.entries ∧ p e.2 = true := by
  simp [retain]

theorem serials_retain_sublist (p : Slot → Bool) : (t.retain p).serials.Sublist t.serials :=
  (List.filter_sublist _).map _

end ProbeTable

/-! ## The worker's passes -/

/-- The body of `check_timeouts` for one record: a `WAITING` record whose elapsed whole
milliseconds exceed its timeout becomes `TIMEOUT`. -/
def checkTimeout (now : Timeval) (s : Slot) : Slot :=
  if s.probe.status = .waiting ∧ s.probe.timeout < s.probe.elapsedMs now then
    { s with probe := { s.probe with status := .timeout } }
  else s

/-- `ProbeManager::check_timeouts` at clock reading `now`. -/
def checkTimeouts (t : ProbeTable) (now : Timeval) : ProbeTable :=
  t.mapSlots (checkTimeout now)

/-- The body of `force_timeouts` for one record. -/
def forceTimeout (s : Slot) : Slot :=
  if s.probe.status = .waiting then { s with probe := { s.probe with status := .timeout } }
  else s

/-- `ProbeManager::force_timeouts` -/
def forceTimeouts (t : ProbeTable) : ProbeTable := t.mapSlots forceTimeout

/-- The entries `send_callbacks` passes to the callback and `clean_probes` erases: those
whose status is not `WAITING`, in iteration order. -/
def terminal (t : ProbeTable) : List (Int × Slot) := t.entries.filter (fun e => ¬e.2.Waiting)

/-- The table `clean_probes` leaves: the `WAITING` entries. -/
def cleanProbes (t : ProbeTable) : ProbeTable := t.retain (fun s => s.Waiting)

/-- One iteration of the loop of `get_min_wait_time`: for a `WAITING` record, its
remaining time narrowed to `int` replaces the running minimum when the minimum is still
`-1` or larger, and is then clamped at 0. -/
def minWaitStep (now : Timeval) (m : Int) (s : Slot) : Int :=
  if s.probe.status = .waiting then
    let timeout := toInt32 (s.probe.timeout - s.probe.elapsedMs now)
    if m = -1 ∨ timeout < m then (if timeout < 0 then 0 else timeout) else m
  else m

/-- `ProbeManager::get_min_wait_time` at clock reading `now`. -/
def getMinWaitTime (t : ProbeTable) (now : Timeval) : Int :=
  t.entries.foldl (fun m e => minWaitStep now m e.2) (-1)

@[simp] theorem checkTimeout_serial (now : Timeval) (s : Slot) :
    (checkTimeout now s).serial = s.serial := by
  unfold checkTimeout; split_ifs <;> rfl

@[simp] theorem forceTimeout_serial (s : Slot) : (forceTimeout s).serial = s.serial := by
  unfold forceTimeout; split_ifs <;> rfl

theorem forceTimeout_not_waiting (s : Slot) : ¬(forceTimeout s).Waiting := by
  unfold forceTimeout Slot.Waiting; split_ifs with h <;> simp [h]

theorem checkTimeout_of_not_waiting {now : Timeval} {sl : Slot} (h : ¬sl.Waiting) :
    checkTimeout now sl = sl :=
  if_neg fun hc => h hc.1

theorem forceTimeout_of_not_waiting {sl : Slot} (h : ¬sl.Waiting) : forceTimeout sl = sl :=
  if_neg h

theorem mem_terminal {t : ProbeTable} {e : Int × Slot} :
    e ∈ terminal t ↔ e ∈ t.entries ∧ ¬e.2.Waiting := by
  simp [terminal]

theorem mem_cleanProbes {t : ProbeTable} {e : Int × Slot} :
    e ∈ (cleanProbes t).entries ↔ e ∈ t.entries ∧ e.2.Waiting := by
  simp [cleanProbes]

/-- A descriptor whose entry is `WAITING` is not among those `clean_probes` closes. -/
theorem not_mem_terminal_keys {t : ProbeTable} {fd : Int} {sl : Slot}
    (h : (fd, sl) ∈ t.entries) (hw : sl.Waiting) : fd ∉ (terminal t).map Prod.fst := by
  simp only [List.mem_map, mem_terminal, not_exists, not_and]
  rintro ⟨k, sl'⟩ ⟨hk, hw'⟩ rfl
  exact hw' (t.slot_unique hk h ▸ hw)

/-- `ProbeManager::get_queue_size` -/
def getQueueSize (t : ProbeTable) : Nat := t.entries.length

end Icmpenguin
