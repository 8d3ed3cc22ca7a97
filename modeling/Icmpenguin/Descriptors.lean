import Icmpenguin.Engine

/-!
# Icmpenguin — phases and descriptor ownership

Two invariants of every reachable state. `PhaseInv` ties the worker's place in `handler`
to the descriptors it holds and to `stop`: the epoll instance and the eventfd are open
exactly while the worker is between `setup_epoll` and its closes, and the worker is past
its loop only after `stop` stored `running = false`, which nothing stores over again. `FdInv` says who owns each open
descriptor: every key of `probes` is an open socket distinct from `epoll_fd` and
`wakeup_fd`, every descriptor in the interest list is a key or the eventfd, and a socket
a caller holds between `socket()` and `add_socket` belongs to no one else.
-/

namespace Icmpenguin

open Engine

/-- The descriptor a caller holds between `socket()` and the end of `send_probe`. -/
def CallerPc.fd? : CallerPc → Option Int
  | .opened fd .. | .sent fd .. => some fd
  | _ => none

theorem CallerPc.fd?_update {f : Nat → CallerPc} {c d : Nat} {v : CallerPc} :
    (Function.update f c v d).fd? = if d = c then v.fd? else (f d).fd? := by
  by_cases h : d = c
  · subst h; simp
  · simp [Function.update_noteq h, h]

/-- A caller that gives up its descriptor leaves every other caller's as it was. -/
theorem CallerPc.fd?_update_none {f : Nat → CallerPc} {c d : Nat} {v : CallerPc} {fd : Int}
    (h : (Function.update f c v d).fd? = some fd) (hv : v.fd? = none) :
    d ≠ c ∧ (f d).fd? = some fd := by
  rw [CallerPc.fd?_update] at h
  split_ifs at h with hd
  · simp [hv] at h
  · exact ⟨hd, h⟩

namespace WorkerPc

/-- The worker holds its epoll instance and eventfd: from a successful `setup_epoll`
until it closes `wakeup_fd`. -/
def Live : WorkerPc → Prop
  | .storeRunning | .loopTest | .scan | .wait .. | .dispatch _ | .checkTimeouts
  | .sendCallbacks | .cleanProbes _ | .forceTimeouts | .finalClean | .closeWakeup => True
  | _ => False

/-- Inside `while (running.load())`. -/
def InLoop : WorkerPc → Prop
  | .loopTest | .scan | .wait .. | .dispatch _ | .checkTimeouts | .sendCallbacks
  | .cleanProbes _ => True
  | _ => False

/-- Past the loop: the final sweep and the closes. -/
def Exiting : WorkerPc → Prop
  | .forceTimeouts | .finalClean | .closeWakeup | .closeEpoll | .done => True
  | _ => False

theorem InLoop.live {w : WorkerPc} (h : w.InLoop) : w.Live := by
  cases w <;> trivial

end WorkerPc

/-! ## Phases -/

/-- What the worker's place in `handler` says about its descriptors and about `stop`. -/
structure PhaseInv (s : Engine) : Prop where
  setup_closed : s.worker = .setup → s.epollOpen = false
  live_open : s.worker.Live → s.epollOpen ∧ s.eventOpen
  event_live : s.eventOpen → s.worker.Live
  closeEpoll_open : s.worker = .closeEpoll → s.epollOpen
  loop_stopped : s.worker.InLoop → s.running = false → s.stopper ≠ .idle
  exit_stopped : s.worker.Exiting → s.stopper ≠ .idle ∧ s.running = false
  joined_done : s.stopper = .joined → s.worker = .done ∨ s.worker = .failed

theorem PhaseInv.initial (cfg : Config) : PhaseInv (Engine.initial cfg) where
  setup_closed _ := rfl
  live_open h := by simp [Engine.initial, WorkerPc.Live] at h
  event_live h := by simp [Engine.initial] at h
  closeEpoll_open h := by simp [Engine.initial] at h
  loop_stopped h := by simp [Engine.initial, WorkerPc.InLoop] at h
  exit_stopped h := by simp [Engine.initial, WorkerPc.Exiting] at h
  joined_done h := by simp [Engine.initial] at h

/-- Steps that leave the phase fields alone keep the invariant. -/
theorem PhaseInv.frame {s t : Engine} (h : PhaseInv s) (hw : t.worker = s.worker)
    (he : t.epollOpen = s.epollOpen) (hv : t.eventOpen = s.eventOpen)
    (hr : t.running = s.running) (hs : t.stopper = s.stopper) : PhaseInv t where
  setup_closed := by rw [hw, he]; exact h.setup_closed
  live_open := by rw [hw, he, hv]; exact h.live_open
  event_live := by rw [hw, hv]; exact h.event_live
  closeEpoll_open := by rw [hw, he]; exact h.closeEpoll_open
  loop_stopped := by rw [hw, hr, hs]; exact h.loop_stopped
  exit_stopped := by rw [hw, hs, hr]; exact h.exit_stopped
  joined_done := by rw [hs, hw]; exact h.joined_done

/-- A step of the worker from one live, in-loop place to another. -/
theorem PhaseInv.loop_step {s t : Engine} (h : PhaseInv s) (hl : s.worker.InLoop)
    (hl' : t.worker.InLoop) (he : t.epollOpen = s.epollOpen) (hv : t.eventOpen = s.eventOpen)
    (hr : t.running = s.running) (hs : t.stopper = s.stopper) : PhaseInv t where
  setup_closed hw := by simp [hw, WorkerPc.InLoop] at hl'
  live_open _ := by rw [he, hv]; exact h.live_open hl.live
  event_live _ := hl'.live
  closeEpoll_open hw := by simp [hw, WorkerPc.InLoop] at hl'
  loop_stopped _ := by rw [hr, hs]; exact h.loop_stopped hl
  exit_stopped hx := by cases ht : t.worker <;> simp_all [WorkerPc.InLoop, WorkerPc.Exiting]
  joined_done hj := by rcases h.joined_done (hs ▸ hj) with hw | hw <;> simp [hw, WorkerPc.InLoop] at hl

theorem PhaseInv.eventOpen_false {s : Engine} (h : PhaseInv s) (hw : ¬s.worker.Live) :
    s.eventOpen = false := by
  cases hv : s.eventOpen
  · rfl
  · exact absurd (h.event_live hv) hw

theorem PhaseInv.next {s t : Engine} {a : Action} (h : PhaseInv s) (hn : s.next a = some t) :
    PhaseInv t := by
  cases a with
  | setup er wr ok =>
    obtain ⟨hw, ht⟩ := setupEpoll_cases (next_setup hn)
    have hv : s.eventOpen = false := by
      cases hv : s.eventOpen
      · rfl
      · simpa [hw, WorkerPc.Live] using h.event_live hv
    have he := h.setup_closed hw
    have := h.joined_done
    obtain rfl | ⟨e, -, rfl⟩ | ⟨e, w, -, -, -, rfl⟩ := ht <;>
      constructor <;> simp_all [WorkerPc.Live, WorkerPc.InLoop, WorkerPc.Exiting]
  | storeRunning =>
    obtain ⟨hw, rfl⟩ := next_storeRunning hn
    have := h.joined_done
    constructor <;> simp_all [WorkerPc.Live, WorkerPc.InLoop, WorkerPc.Exiting]
    exact (h.live_open (by rw [hw]; trivial))
  | loopTest =>
    obtain ⟨hw, rfl⟩ := next_loopTest hn
    have hl : s.worker.InLoop := by simp [hw, WorkerPc.InLoop]
    have ho := h.live_open hl.live
    cases hr : s.running
    · have := h.loop_stopped hl hr
      have := h.joined_done
      constructor <;> simp_all [WorkerPc.Live, WorkerPc.InLoop, WorkerPc.Exiting]
    · exact h.loop_step hl (by simp [hr, WorkerPc.InLoop]) rfl rfl (by simp [hr]) rfl
  | scan now =>
    obtain ⟨hw, rfl⟩ := next_scan hn
    exact h.loop_step (by rw [hw]; trivial) trivial rfl rfl rfl rfl
  | waitReturn evs =>
    obtain ⟨⟨w, t0, seen, hw⟩, -, rfl⟩ := next_waitReturn hn
    exact h.loop_step (by rw [hw]; trivial) trivial rfl rfl rfl rfl
  | drain =>
    obtain ⟨evs, hw, rfl⟩ := next_drain hn
    exact h.loop_step (by rw [hw]; trivial) trivial rfl rfl rfl rfl
  | readData now errq data =>
    obtain ⟨e, evs, hw, -, rfl⟩ := next_readData hn
    exact h.loop_step (by rw [hw]; trivial) trivial rfl rfl rfl rfl
  | checkTimeouts now =>
    obtain ⟨hw, rfl⟩ := next_checkTimeouts hn
    exact h.loop_step (by rw [hw]; trivial) trivial rfl rfl rfl rfl
  | sendCallbacks =>
    obtain ⟨hw, rfl⟩ := next_sendCallbacks hn
    unfold Engine.sendCallbacks
    split
    · exact h.frame rfl rfl rfl rfl rfl
    · exact h.loop_step (by rw [hw]; trivial) trivial rfl rfl rfl rfl
  | cleanProbes =>
    obtain ⟨B, hw, rfl⟩ := next_cleanProbes hn
    exact h.loop_step (by rw [hw]; trivial) trivial rfl rfl rfl rfl
  | forceTimeouts =>
    obtain ⟨hw, rfl⟩ := next_forceTimeouts hn
    have := h.live_open (by rw [hw]; trivial)
    have := h.exit_stopped (by rw [hw]; trivial)
    have := h.joined_done
    constructor <;> simp_all [WorkerPc.Live, WorkerPc.InLoop, WorkerPc.Exiting]
  | finalClean =>
    obtain ⟨hw, rfl⟩ := next_finalClean hn
    refine ⟨(nomatch ·), fun _ => h.live_open (by rw [hw]; trivial), fun _ => trivial,
      (nomatch ·), fun hl => False.elim hl,
      fun _ => h.exit_stopped (by rw [hw]; trivial), fun hj => ?_⟩
    rcases h.joined_done hj with h' | h' <;> simp [hw] at h'
  | closeWakeup =>
    obtain ⟨hw, rfl⟩ := next_closeWakeup hn
    have := h.live_open (by rw [hw]; trivial)
    have := h.exit_stopped (by rw [hw]; trivial)
    have := h.joined_done
    constructor <;> simp_all [Engine.close, WorkerPc.Live, WorkerPc.InLoop, WorkerPc.Exiting]
  | closeEpoll =>
    obtain ⟨hw, rfl⟩ := next_closeEpoll hn
    have hv : s.eventOpen = false := by
      cases hv : s.eventOpen
      · rfl
      · simpa [hw, WorkerPc.Live] using h.event_live hv
    have := h.exit_stopped (by rw [hw]; trivial)
    have := h.joined_done
    constructor <;> simp_all [Engine.close, WorkerPc.Live, WorkerPc.InLoop, WorkerPc.Exiting]
  | startReturns =>
    obtain rfl := next_startReturns hn
    exact h.frame rfl rfl rfl rfl rfl
  | stopStore =>
    obtain ⟨-, -, rfl⟩ := next_stopStore hn
    exact { h with loop_stopped := fun _ _ => by simp, exit_stopped := fun _ => by simp,
                   joined_done := fun hj => by simp at hj }
  | stopWake =>
    obtain ⟨-, rfl⟩ := next_stopWake hn
    exact { h with loop_stopped := fun _ _ => by simp,
                   exit_stopped := fun hx => ⟨by simp, (h.exit_stopped hx).2⟩,
                   joined_done := fun hj => by simp at hj }
  | stopJoin =>
    obtain ⟨-, hd, rfl⟩ := next_stopJoin hn
    exact { h with loop_stopped := fun _ _ => by simp,
                   exit_stopped := fun hx => ⟨by simp, (h.exit_stopped hx).2⟩,
                   joined_done := fun _ => hd }
  | socket c args res =>
    obtain ⟨-, -, ⟨_, _, -, rfl⟩ | ⟨fd, -, -, rfl⟩⟩ := next_socket hn
    · exact h.frame (by simp) (by simp) (by simp) (by simp) (by simp)
    · exact h.frame rfl rfl rfl rfl rfl
  | transmit c b now r =>
    obtain ⟨fd, n, p, size, pat, -, rfl | ⟨q, -, rfl⟩ | ⟨q, -, rfl⟩⟩ := next_transmit hn
    · exact h.frame rfl rfl rfl rfl rfl
    · exact h.frame (by simp [Engine.close]) (by simp [Engine.close]) (by simp [Engine.close])
        (by simp [Engine.close]) (by simp [Engine.close])
    · exact h.frame rfl rfl rfl rfl rfl
  | addSocket c ok =>
    obtain ⟨fd, n, p, -, rfl⟩ := next_addSocket hn
    exact h.frame rfl rfl rfl rfl rfl

/-! ## Descriptor ownership -/

/-- Who owns each open descriptor. -/
structure FdInv (s : Engine) : Prop where
  keys_open : ∀ fd ∈ s.probes.keys, fd ∈ s.openFds
  epoll_open : s.epollOpen → s.epollFd ∈ s.openFds ∧ s.epollFd ∉ s.probes.keys
  event_open : s.eventOpen → s.wakeupFd ∈ s.openFds ∧ s.wakeupFd ∉ s.probes.keys ∧
    (s.epollOpen → s.wakeupFd ≠ s.epollFd)
  registered_keys : ∀ fd ∈ s.registered, fd ∈ s.probes.keys ∨ (s.eventOpen ∧ fd = s.wakeupFd)
  caller_fd : ∀ c fd, (s.callers c).fd? = some fd → fd ∈ s.openFds ∧ fd ∉ s.probes.keys ∧
    (s.epollOpen → fd ≠ s.epollFd) ∧ (s.eventOpen → fd ≠ s.wakeupFd)
  caller_unique : ∀ c d fd, (s.callers c).fd? = some fd → (s.callers d).fd? = some fd → c = d
  dispatch_keys : ∀ evs, s.worker = .dispatch evs →
    evs.Nodup ∧ ∀ e ∈ evs, e ≠ s.wakeupFd → e ∈ s.probes.keys

theorem FdInv.initial (cfg : Config) : FdInv (Engine.initial cfg) where
  keys_open fd h := by simp [Engine.initial, ProbeTable.empty, ProbeTable.keys] at h
  epoll_open h := by simp [Engine.initial] at h
  event_open h := by simp [Engine.initial] at h
  registered_keys fd h := by simp [Engine.initial] at h
  caller_fd c fd h := by simp [Engine.initial, CallerPc.fd?] at h
  caller_unique c d fd h := by simp [Engine.initial, CallerPc.fd?] at h
  dispatch_keys evs h := by simp [Engine.initial] at h

variable {s t : Engine}

/-- Steps that move none of the owned descriptors, where callers may only drop theirs. -/
theorem FdInv.frame (h : FdInv s) (hk : t.probes.keys = s.probes.keys)
    (ho : t.openFds = s.openFds) (hr : t.registered = s.registered)
    (he : t.epollFd = s.epollFd) (hw : t.wakeupFd = s.wakeupFd)
    (heo : t.epollOpen = s.epollOpen) (hv : t.eventOpen = s.eventOpen)
    (hc : ∀ c fd, (t.callers c).fd? = some fd → (s.callers c).fd? = some fd)
    (hd : ∀ evs, t.worker = .dispatch evs →
      evs.Nodup ∧ ∀ e ∈ evs, e ≠ s.wakeupFd → e ∈ s.probes.keys) : FdInv t where
  keys_open := by rw [hk, ho]; exact h.keys_open
  epoll_open := by rw [heo, he, ho, hk]; exact h.epoll_open
  event_open := by rw [hv, hw, ho, hk, heo, he]; exact h.event_open
  registered_keys := by rw [hr, hk, hv, hw]; exact h.registered_keys
  caller_fd c fd hcf := by rw [ho, hk, heo, he, hv, hw]; exact h.caller_fd c fd (hc c fd hcf)
  caller_unique c d fd h1 h2 := h.caller_unique c d fd (hc c fd h1) (hc d fd h2)
  dispatch_keys evs hde := by rw [hw, hk]; exact hd evs hde

/-- A `FATAL_ERROR` path leaves its caller holding no descriptor. -/
theorem fd?_fatal {c t n : Nat} {p : ProbeContext} {fd : Int}
    (h : ((s.fatal t n p).callers c).fd? = some fd) : c ≠ t ∧ (s.callers c).fd? = some fd := by
  obtain ⟨v, hv, hcal⟩ := fatal_callers s t n p
  rw [hcal] at h
  exact CallerPc.fd?_update_none h (by rcases hv with rfl | rfl <;> rfl)

/-- A `FATAL_ERROR` path after `close(fd)` of the caller's own socket. -/
theorem FdInv.close_fatal (h : FdInv s) {c n : Nat} {fd : Int} {q : ProbeContext}
    (hcf : (s.callers c).fd? = some fd) : FdInv ((s.close fd).fatal c n q) := by
  obtain ⟨v, hv, hcal⟩ := fatal_callers (s.close fd) c n q
  obtain ⟨-, hk, hep, hev⟩ := h.caller_fd c fd hcf
  have hvfd : v.fd? = none := by rcases hv with rfl | rfl <;> rfl
  constructor
  · intro k hk'
    simp only [fatal_probes, fatal_openFds, Engine.close, List.mem_filter] at hk' ⊢
    exact ⟨h.keys_open k hk', decide_eq_true (by rintro rfl; exact hk hk')⟩
  · intro ho
    simp only [fatal_epollOpen, fatal_epollFd, fatal_openFds, fatal_probes, Engine.close] at ho ⊢
    exact ⟨List.mem_filter.2 ⟨(h.epoll_open ho).1, by simpa using (hep ho).symm⟩,
      (h.epoll_open ho).2⟩
  · intro ho
    simp only [fatal_eventOpen, fatal_wakeupFd, fatal_openFds, fatal_probes, fatal_epollOpen,
      fatal_epollFd, Engine.close] at ho ⊢
    obtain ⟨h1, h2, h3⟩ := h.event_open ho
    exact ⟨List.mem_filter.2 ⟨h1, by simpa using (hev ho).symm⟩, h2, h3⟩
  · intro k hk'
    simp only [fatal_registered, fatal_probes, fatal_eventOpen, fatal_wakeupFd, Engine.close,
      List.mem_filter] at hk' ⊢
    exact h.registered_keys k hk'.1
  · intro d k hd
    rw [hcal] at hd
    obtain ⟨hdc, hd⟩ := CallerPc.fd?_update_none hd hvfd
    obtain ⟨h1, h2, h3, h4⟩ := h.caller_fd d k hd
    have hne : k ≠ fd := fun e => hdc (h.caller_unique d c k hd (e ▸ hcf))
    simp only [fatal_openFds, fatal_probes, fatal_epollOpen, fatal_epollFd, fatal_eventOpen,
      fatal_wakeupFd, Engine.close, List.mem_filter]
    exact ⟨⟨h1, by simpa using hne⟩, h2, h3, h4⟩
  · intro d e k hd he
    rw [hcal] at hd he
    exact h.caller_unique d e k (CallerPc.fd?_update_none hd hvfd).2
      (CallerPc.fd?_update_none he hvfd).2
  · intro evs hde
    simp only [fatal_worker, fatal_wakeupFd, fatal_probes] at hde ⊢
    exact h.dispatch_keys evs hde

/-- `clean_probes` keeps ownership: it closes exactly descriptors whose entries it erases. -/
theorem FdInv.cleanProbes (h : FdInv s) {w : WorkerPc} (hw : ∀ evs, w ≠ .dispatch evs) :
    FdInv { s.cleanProbes with worker := w } := by
  have hgone : ∀ k ∈ (terminal s.probes).map Prod.fst, k ∈ s.probes.keys := by
    intro k hk
    obtain ⟨⟨k', sl⟩, he, rfl⟩ := List.mem_map.1 hk
    exact ProbeTable.mem_keys.2 ⟨sl, (mem_terminal.1 he).1⟩
  have hkeys : ∀ k ∈ (Icmpenguin.cleanProbes s.probes).keys,
      k ∈ s.probes.keys ∧ k ∉ (terminal s.probes).map Prod.fst := by
    intro k hk
    obtain ⟨sl, hsl⟩ := ProbeTable.mem_keys.1 hk
    obtain ⟨hsl, hwt⟩ := mem_cleanProbes.1 hsl
    exact ⟨ProbeTable.mem_keys.2 ⟨sl, hsl⟩, not_mem_terminal_keys hsl hwt⟩
  constructor
  · intro k hk
    obtain ⟨hk, hng⟩ := hkeys k hk
    exact List.mem_filter.2 ⟨h.keys_open k hk, decide_eq_true hng⟩
  · intro ho
    obtain ⟨h1, h2⟩ := h.epoll_open ho
    exact ⟨List.mem_filter.2 ⟨h1, decide_eq_true fun hg => h2 (hgone _ hg)⟩,
      fun hk => h2 (hkeys _ hk).1⟩
  · intro ho
    obtain ⟨h1, h2, h3⟩ := h.event_open ho
    exact ⟨List.mem_filter.2 ⟨h1, decide_eq_true fun hg => h2 (hgone _ hg)⟩,
      fun hk => h2 (hkeys _ hk).1, h3⟩
  · intro k hk
    obtain ⟨hk, hng⟩ := List.mem_filter.1 hk
    refine (h.registered_keys k hk).imp (fun hk' => ?_) id
    obtain ⟨sl, hsl⟩ := ProbeTable.mem_keys.1 hk'
    refine ProbeTable.mem_keys.2 ⟨sl, mem_cleanProbes.2 ⟨hsl, ?_⟩⟩
    by_contra hwt
    exact of_decide_eq_true hng (List.mem_map.2 ⟨(k, sl), mem_terminal.2 ⟨hsl, hwt⟩, rfl⟩)
  · intro c fd hc
    obtain ⟨h1, h2, h3, h4⟩ := h.caller_fd c fd hc
    exact ⟨List.mem_filter.2 ⟨h1, decide_eq_true fun hg => h2 (hgone _ hg)⟩,
      fun hk => h2 (hkeys _ hk).1, h3, h4⟩
  · exact h.caller_unique
  · intro evs he
    exact absurd he (hw evs)

/-- `setup_epoll`: the new epoll instance and eventfd are fresh, and only the eventfd is
registered. -/
theorem FdInv.setup {er wr : Option Int} {ok : Bool} (hp : PhaseInv s) (h : FdInv s)
    (hn : s.next (.setup er wr ok) = some t) : FdInv t := by
  obtain ⟨hw, ht⟩ := setupEpoll_cases (next_setup hn)
  have hv := hp.eventOpen_false (by simp [hw, WorkerPc.Live])
  have he := hp.setup_closed hw
  have hreg : ∀ fd ∈ s.registered, fd ∈ s.probes.keys := fun fd hfd => by
    simpa [hv] using h.registered_keys fd hfd
  have hout : ∀ {k}, k ∉ s.openFds → k ∉ s.probes.keys := fun hk hk' => hk (h.keys_open _ hk')
  obtain rfl | ⟨e, ⟨-, heo⟩, rfl⟩ | ⟨e, w, ⟨-, heo⟩, -, hwo, rfl⟩ := ht
  · exact { keys_open := h.keys_open, epoll_open := by simp [he],
            event_open := by simp [hv], registered_keys := h.registered_keys,
            caller_fd := fun c fd hc => by simpa [he] using h.caller_fd c fd hc,
            caller_unique := h.caller_unique, dispatch_keys := by simp }
  · refine { keys_open := fun k hk => List.mem_cons_of_mem _ (h.keys_open k hk),
             epoll_open := fun _ => ⟨List.mem_cons_self _ _, hout heo⟩,
             event_open := by simp [hv],
             registered_keys := fun fd hfd => .inl (hreg fd hfd),
             caller_fd := fun c fd hc => ?_, caller_unique := h.caller_unique,
             dispatch_keys := by simp }
    obtain ⟨h1, h2, -, -⟩ := h.caller_fd c fd hc
    exact ⟨List.mem_cons_of_mem _ h1, h2,
      fun _ hfe => heo (by rw [show fd = e from hfe] at h1; exact h1), by simp [hv]⟩
  · simp only [List.mem_cons, not_or] at hwo
    refine { keys_open := fun k hk => ?_, epoll_open := fun _ => ?_,
             event_open := fun _ => ?_, registered_keys := fun fd hfd => ?_,
             caller_fd := fun c fd hc => ?_, caller_unique := h.caller_unique,
             dispatch_keys := by simp }
    · exact List.mem_cons_of_mem _ (List.mem_cons_of_mem _ (h.keys_open k hk))
    · exact ⟨List.mem_cons_of_mem _ (List.mem_cons_self _ _), hout heo⟩
    · exact ⟨List.mem_cons_self _ _, hout hwo.2, fun _ => hwo.1⟩
    · split_ifs at hfd
      · rcases List.mem_cons.1 hfd with rfl | hfd
        · exact .inr ⟨rfl, rfl⟩
        · exact .inl (hreg fd hfd)
      · exact .inl (hreg fd hfd)
    · obtain ⟨h1, h2, -, -⟩ := h.caller_fd c fd hc
      exact ⟨List.mem_cons_of_mem _ (List.mem_cons_of_mem _ h1), h2,
        fun _ hfe => heo (by rw [show fd = e from hfe] at h1; exact h1),
        fun _ hfw => hwo.2 (by rw [show fd = w from hfw] at h1; exact h1)⟩

/-- `close(wakeup_fd)` drops the eventfd, which no entry or caller holds. -/
theorem FdInv.closeWakeup (hp : PhaseInv s) (h : FdInv s)
    (hn : s.next .closeWakeup = some t) : FdInv t := by
  obtain ⟨hw, rfl⟩ := next_closeWakeup hn
  obtain ⟨heo, hvo⟩ := hp.live_open (by rw [hw]; trivial)
  obtain ⟨-, hwk, hwe⟩ := h.event_open hvo
  refine { keys_open := fun k hk => ?_, epoll_open := fun _ => ?_, event_open := by simp,
           registered_keys := fun k hk => ?_, caller_fd := fun c fd hc => ?_,
           caller_unique := h.caller_unique, dispatch_keys := by simp }
  · exact List.mem_filter.2 ⟨h.keys_open k hk, decide_eq_true fun e => hwk (e ▸ hk)⟩
  · obtain ⟨h1, h2⟩ := h.epoll_open heo
    exact ⟨List.mem_filter.2 ⟨h1, decide_eq_true (hwe heo).symm⟩, h2⟩
  · obtain ⟨hk, hne⟩ := List.mem_filter.1 hk
    rcases h.registered_keys k hk with hk | ⟨-, rfl⟩
    · exact .inl hk
    · exact absurd rfl (of_decide_eq_true hne)
  · obtain ⟨h1, h2, h3, h4⟩ := h.caller_fd c fd hc
    exact ⟨List.mem_filter.2 ⟨h1, decide_eq_true (h4 hvo)⟩, h2, h3, by simp⟩

/-- `close(epoll_fd)` drops every registration with it. -/
theorem FdInv.closeEpoll (hp : PhaseInv s) (h : FdInv s)
    (hn : s.next .closeEpoll = some t) : FdInv t := by
  obtain ⟨hw, rfl⟩ := next_closeEpoll hn
  have heo := hp.closeEpoll_open hw
  have hv := hp.eventOpen_false (by simp [hw, WorkerPc.Live])
  obtain ⟨-, hek⟩ := h.epoll_open heo
  refine { keys_open := fun k hk => ?_, epoll_open := by simp,
           event_open := by simp [Engine.close, hv],
           registered_keys := by simp, caller_fd := fun c fd hc => ?_,
           caller_unique := h.caller_unique, dispatch_keys := by simp }
  · exact List.mem_filter.2 ⟨h.keys_open k hk, decide_eq_true fun e => hek (e ▸ hk)⟩
  · obtain ⟨h1, h2, h3, -⟩ := h.caller_fd c fd hc
    exact ⟨List.mem_filter.2 ⟨h1, decide_eq_true (h3 heo)⟩, h2, by simp, by simp [Engine.close, hv]⟩

/-- `socket()`: a fresh descriptor, held by its caller alone. -/
theorem FdInv.socket {c : Nat} {args : SendArgs} {res : SysResult Int} (h : FdInv s)
    (hn : s.next (.socket c args res) = some t) : FdInv t := by
  obtain ⟨-, -, ⟨_, _, -, rfl⟩ | ⟨fd, -, ⟨-, hfo⟩, rfl⟩⟩ := next_socket hn
  · exact h.frame (by simp) (by simp) (by simp) (by simp) (by simp) (by simp) (by simp)
      (fun d k hd => (fd?_fatal hd).2) (by simpa using h.dispatch_keys)
  · refine { keys_open := fun k hk => List.mem_cons_of_mem _ (h.keys_open k hk),
             epoll_open := fun he => ?_, event_open := fun hv => ?_,
             registered_keys := h.registered_keys, caller_fd := fun d k hd => ?_,
             caller_unique := fun d e k hd he => ?_, dispatch_keys := h.dispatch_keys }
    · obtain ⟨h1, h2⟩ := h.epoll_open he
      exact ⟨List.mem_cons_of_mem _ h1, h2⟩
    · obtain ⟨h1, h2, h3⟩ := h.event_open hv
      exact ⟨List.mem_cons_of_mem _ h1, h2, h3⟩
    · simp only [CallerPc.fd?_update] at hd
      split_ifs at hd with hdc
      · simp only [CallerPc.fd?, Option.some.injEq] at hd
        subst hd
        exact ⟨List.mem_cons_self _ _, fun hk => hfo (h.keys_open _ hk),
          fun he hfe => hfo (hfe ▸ (h.epoll_open he).1),
          fun hv hfw => hfo (hfw ▸ (h.event_open hv).1)⟩
      · obtain ⟨h1, h2, h3, h4⟩ := h.caller_fd d k hd
        exact ⟨List.mem_cons_of_mem _ h1, h2, h3, h4⟩
    · simp only [CallerPc.fd?_update] at hd he
      split_ifs at hd he with hdc hec hec
      · exact hdc.trans hec.symm
      · simp only [CallerPc.fd?, Option.some.injEq] at hd
        exact absurd (hd ▸ (h.caller_fd e k he).1) hfo
      · simp only [CallerPc.fd?, Option.some.injEq] at he
        exact absurd (he ▸ (h.caller_fd d k hd).1) hfo
      · exact h.caller_unique d e k hd he

/-- `add_socket`: the caller hands its socket to the table. -/
theorem FdInv.addSocket {c : Nat} {ok : Bool} (h : FdInv s)
    (hn : s.next (.addSocket c ok) = some t) : FdInv t := by
  obtain ⟨fd, n, p, hc, rfl⟩ := next_addSocket hn
  have hcf : (s.callers c).fd? = some fd := by simp [hc, CallerPc.fd?]
  obtain ⟨h1, h2, h3, h4⟩ := h.caller_fd c fd hcf
  rw [ProbeTable.assign_eq_push h2]
  refine { keys_open := fun k hk => ?_, epoll_open := fun he => ?_,
           event_open := fun hv => ?_, registered_keys := fun k hk => ?_,
           caller_fd := fun d k hd => ?_, caller_unique := fun d e k hd he => ?_,
           dispatch_keys := fun evs hw => ?_ }
  · simp only [ProbeTable.keys_push, List.mem_append, List.mem_singleton] at hk
    rcases hk with hk | rfl
    · exact h.keys_open k hk
    · exact h1
  · obtain ⟨he1, he2⟩ := h.epoll_open he
    simp only [ProbeTable.keys_push, List.mem_append, List.mem_singleton, not_or]
    exact ⟨he1, he2, fun e => h3 he e.symm⟩
  · obtain ⟨hv1, hv2, hv3⟩ := h.event_open hv
    simp only [ProbeTable.keys_push, List.mem_append, List.mem_singleton, not_or]
    exact ⟨hv1, ⟨hv2, fun e => h4 hv e.symm⟩, hv3⟩
  · simp only [ProbeTable.keys_push, List.mem_append, List.mem_singleton]
    split_ifs at hk
    · rcases List.mem_cons.1 hk with rfl | hk
      · exact .inl (.inr rfl)
      · exact (h.registered_keys k hk).imp_left .inl
    · exact (h.registered_keys k hk).imp_left .inl
  · obtain ⟨hdc, hd⟩ := CallerPc.fd?_update_none hd rfl
    obtain ⟨k1, k2, k3, k4⟩ := h.caller_fd d k hd
    have hne : k ≠ fd := fun e => hdc (h.caller_unique d c k hd (e ▸ hcf))
    simp only [ProbeTable.keys_push, List.mem_append, List.mem_singleton, not_or]
    exact ⟨k1, ⟨k2, hne⟩, k3, k4⟩
  · exact h.caller_unique d e k (CallerPc.fd?_update_none hd rfl).2
      (CallerPc.fd?_update_none he rfl).2
  · obtain ⟨hnd, hk⟩ := h.dispatch_keys evs hw
    simp only [ProbeTable.keys_push, List.mem_append]
    exact ⟨hnd, fun e he hne => .inl (hk e he hne)⟩

theorem FdInv.next {a : Action} (hp : PhaseInv s) (h : FdInv s) (hn : s.next a = some t) :
    FdInv t := by
  have same : ∀ evs, s.worker = .dispatch evs →
      evs.Nodup ∧ ∀ e ∈ evs, e ≠ s.wakeupFd → e ∈ s.probes.keys := h.dispatch_keys
  cases a with
  | setup er wr ok => exact FdInv.setup hp h hn
  | storeRunning =>
    obtain ⟨-, rfl⟩ := next_storeRunning hn
    exact h.frame rfl rfl rfl rfl rfl rfl rfl (fun _ _ => id) (by simp)
  | loopTest =>
    obtain ⟨-, rfl⟩ := next_loopTest hn
    exact h.frame rfl rfl rfl rfl rfl rfl rfl (fun _ _ => id) (by split_ifs <;> simp)
  | scan now =>
    obtain ⟨-, rfl⟩ := next_scan hn
    exact h.frame rfl rfl rfl rfl rfl rfl rfl (fun _ _ => id) (by simp)
  | waitReturn evs =>
    obtain ⟨-, ⟨hnd, -, hreg, -⟩, rfl⟩ := next_waitReturn hn
    refine h.frame rfl rfl rfl rfl rfl rfl rfl (fun _ _ => id) ?_
    rintro evs' ⟨⟩
    refine ⟨hnd, fun e he hne => ?_⟩
    rcases h.registered_keys e (hreg e he) with hk | ⟨-, rfl⟩
    · exact hk
    · exact absurd rfl hne
  | drain =>
    obtain ⟨evs, hw, rfl⟩ := next_drain hn
    refine h.frame rfl rfl rfl rfl rfl rfl rfl (fun _ _ => id) ?_
    rintro evs' ⟨⟩
    obtain ⟨hnd, hk⟩ := h.dispatch_keys _ hw
    exact ⟨(List.nodup_cons.1 hnd).2, fun e he => hk e (List.mem_cons_of_mem _ he)⟩
  | readData now errq data =>
    obtain ⟨e, evs, hw, hne, rfl⟩ := next_readData hn
    obtain ⟨hnd, hk⟩ := h.dispatch_keys _ hw
    have he : e ∈ s.probes.keys := hk e (List.mem_cons_self _ _) hne
    refine h.frame (by simp [ProbeTable.modify_eq_update he]) rfl rfl rfl rfl rfl rfl
      (fun _ _ => id) ?_
    rintro evs' ⟨⟩
    exact ⟨(List.nodup_cons.1 hnd).2, fun e he => hk e (List.mem_cons_of_mem _ he)⟩
  | checkTimeouts now =>
    obtain ⟨-, rfl⟩ := next_checkTimeouts hn
    exact h.frame (by simp [checkTimeouts]) rfl rfl rfl rfl rfl rfl (fun _ _ => id) (by simp)
  | sendCallbacks =>
    obtain ⟨-, rfl⟩ := next_sendCallbacks hn
    unfold Engine.sendCallbacks
    split
    · exact h.frame rfl rfl rfl rfl rfl rfl rfl (fun _ _ => id) same
    · exact h.frame rfl rfl rfl rfl rfl rfl rfl (fun _ _ => id) (by simp)
  | cleanProbes =>
    obtain ⟨-, -, rfl⟩ := next_cleanProbes hn
    exact h.cleanProbes (by simp)
  | forceTimeouts =>
    obtain ⟨-, rfl⟩ := next_forceTimeouts hn
    exact h.frame (by simp [forceTimeouts]) rfl rfl rfl rfl rfl rfl (fun _ _ => id) (by simp)
  | finalClean =>
    obtain ⟨-, rfl⟩ := next_finalClean hn
    exact h.cleanProbes (by simp)
  | closeWakeup => exact FdInv.closeWakeup hp h hn
  | closeEpoll => exact FdInv.closeEpoll hp h hn
  | startReturns =>
    obtain rfl := next_startReturns hn
    exact h.frame rfl rfl rfl rfl rfl rfl rfl (fun _ _ => id) same
  | stopStore =>
    obtain ⟨-, -, rfl⟩ := next_stopStore hn
    exact h.frame rfl rfl rfl rfl rfl rfl rfl (fun _ _ => id) same
  | stopWake =>
    obtain ⟨-, rfl⟩ := next_stopWake hn
    exact h.frame rfl rfl rfl rfl rfl rfl rfl (fun _ _ => id) same
  | stopJoin =>
    obtain ⟨-, -, rfl⟩ := next_stopJoin hn
    exact h.frame rfl rfl rfl rfl rfl rfl rfl (fun _ _ => id) same
  | socket c args res => exact h.socket hn
  | transmit c b now r =>
    obtain ⟨fd, n, p, size, pat, hc, rfl | ⟨q, -, rfl⟩ | ⟨q, -, rfl⟩⟩ := next_transmit hn
    · exact h.frame rfl rfl rfl rfl rfl rfl rfl
        (fun _ _ hd => (CallerPc.fd?_update_none hd rfl).2) same
    · exact h.close_fatal (by simp [hc, CallerPc.fd?])
    · refine h.frame rfl rfl rfl rfl rfl rfl rfl (fun d k hd => ?_) same
      simp only [CallerPc.fd?_update] at hd
      split_ifs at hd with hdc
      · subst hdc; simpa [hc, CallerPc.fd?] using hd
      · exact hd
  | addSocket c ok => exact h.addSocket hn

/-! ## Every reachable state -/

theorem Reachable.phase_fd {s : Engine} (hs : Reachable s) : PhaseInv s ∧ FdInv s := by
  induction hs with
  | initial cfg => exact ⟨.initial cfg, .initial cfg⟩
  | step _ _ hn ih => exact ⟨ih.1.next hn, ih.2.next ih.1 hn⟩

/-- While the worker holds its epoll instance, the table owns exactly the sockets it
watches: the interest list holds keys and the eventfd, every key is an open socket apart
from both, the descriptor `read_data` is handed is a key (so `probes[fd]` finds its
record and inserts nothing), and `clean_probes` closes only sockets no caller holds. -/
theorem owned_descriptors {s : Engine} (hs : Reachable s) (hw : s.worker.Live) :
    (∀ fd ∈ s.registered, fd ≠ s.wakeupFd → fd ∈ s.probes.keys) ∧
    (∀ fd ∈ s.probes.keys, fd ∈ s.openFds ∧ fd ≠ s.epollFd ∧ fd ≠ s.wakeupFd) ∧
    (∀ e evs, s.worker = .dispatch (e :: evs) → e ≠ s.wakeupFd →
      e ∈ s.probes.keys ∧ ∀ n f, s.probes.modify e n f = s.probes.update e f) ∧
    (∀ fd ∈ (terminal s.probes).map Prod.fst,
      fd ≠ s.epollFd ∧ fd ≠ s.wakeupFd ∧ ∀ c, (s.callers c).fd? ≠ some fd) := by
  obtain ⟨hp, h⟩ := hs.phase_fd
  obtain ⟨heo, hvo⟩ := hp.live_open hw
  have hkey : ∀ fd ∈ s.probes.keys, fd ∈ s.openFds ∧ fd ≠ s.epollFd ∧ fd ≠ s.wakeupFd :=
    fun fd hk => ⟨h.keys_open fd hk, fun e => (h.epoll_open heo).2 (e ▸ hk),
      fun e => (h.event_open hvo).2.1 (e ▸ hk)⟩
  refine ⟨fun fd hr hne => ?_, hkey, fun e evs hd hne => ?_, fun fd hg => ?_⟩
  · exact (h.registered_keys fd hr).resolve_right fun ⟨_, e⟩ => hne e
  · have he := (h.dispatch_keys _ hd).2 e (List.mem_cons_self _ _) hne
    exact ⟨he, fun _ _ => ProbeTable.modify_eq_update he⟩
  · obtain ⟨⟨k, sl⟩, hm, rfl⟩ := List.mem_map.1 hg
    have hk : k ∈ s.probes.keys := ProbeTable.mem_keys.2 ⟨sl, (mem_terminal.1 hm).1⟩
    exact ⟨(hkey k hk).2.1, (hkey k hk).2.2, fun c hc => (h.caller_fd c k hc).2.1 hk⟩

/-- The worker handed socket 5 of the echo in flight. -/
def readable : List Action := inFlight ++ [.loopTest, .scan {}, .waitReturn [5]]

/-- The engine when the worker is handed socket 5: the echo's record is in the table under
5, which is registered beside the eventfd 4. -/
def readableState : Engine := ((Engine.initial demoCfg).run readable).get (by decide)

theorem owned_descriptors_readable :
    Reachable readableState ∧ readableState.worker.Live ∧
    ((∀ fd ∈ readableState.registered, fd ≠ readableState.wakeupFd →
        fd ∈ readableState.probes.keys) ∧
    (∀ fd ∈ readableState.probes.keys, fd ∈ readableState.openFds ∧
        fd ≠ readableState.epollFd ∧ fd ≠ readableState.wakeupFd) ∧
    (∀ e evs, readableState.worker = .dispatch (e :: evs) → e ≠ readableState.wakeupFd →
      e ∈ readableState.probes.keys ∧
        ∀ n f, readableState.probes.modify e n f = readableState.probes.update e f) ∧
    (∀ fd ∈ (terminal readableState.probes).map Prod.fst,
      fd ≠ readableState.epollFd ∧ fd ≠ readableState.wakeupFd ∧
        ∀ c, (readableState.callers c).fd? ≠ some fd)) :=
  have hs : Reachable readableState := Reachable.run (Option.some_get _).symm
  have hw : readableState.worker.Live := by
    rw [show readableState.worker = .dispatch [5] by decide]; trivial
  ⟨hs, hw, owned_descriptors hs hw⟩

end Icmpenguin
