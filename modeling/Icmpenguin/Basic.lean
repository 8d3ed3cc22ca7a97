import Mathlib.Algebra.Group.Int
import Mathlib.Data.List.Basic

/-!
# Icmpenguin — the types of `ProbeManager.h`

The probe record `ProbeContext` with its status and type enums, `struct timeval` with
the `timersub` and `TIMEVAL_TO_MS` arithmetic the worker uses for deadlines, the
constants of the header, and the `int` narrowing the compiler applies when a `long`
is stored into an `int`.

`long` arithmetic (`time_t`, `suseconds_t`) is unbounded `Int` here: it overflows only
for clock readings past the year 292 million. `int` results are narrowed by `toInt32`
where the source stores into an `int`.
-/

namespace Icmpenguin

/-! ## Constants of `ProbeManager.h` and the system headers -/

/-- `SEND_PROBE_ERROR` -/
def sendProbeError : Int := -1

/-- `SEND_PROBE_SUCCESS` -/
def sendProbeSuccess : Int := 0

/-- `ICMP_HEADER_SIZE` -/
def icmpHeaderSize : Int := 8

/-- `INCOMING_BUFFER_SIZE` -/
def incomingBufferSize : Nat := 2048

/-- `IPV4_OVERHEAD` -/
def ipv4Overhead : Int := 20

/-- `IPV6_OVERHEAD` -/
def ipv6Overhead : Int := 40

/-- `UDP_OVERHEAD` -/
def udpOverhead : Int := 8

/-- `AF_INET` -/
def afInet : Int := 2

/-- `AF_INET6` -/
def afInet6 : Int := 10

/-- `EMSGSIZE` -/
def emsgsize : Nat := 90

/-- `ECONNREFUSED` -/
def econnrefused : Nat := 111

/-- `EHOSTUNREACH` -/
def ehostunreach : Nat := 113

/-- `ENETUNREACH` -/
def enetunreach : Nat := 101

/-! ## `int` narrowing -/

/-- Storing a wider integer into an `int`: the value modulo `2^32`, read back signed
(C++20 conversion rule; the modular choice of every compiler before it). -/
def toInt32 (x : Int) : Int := (x + 2 ^ 31) % 2 ^ 32 - 2 ^ 31

/-- Values of type `int`. -/
def InInt32 (x : Int) : Prop := -2 ^ 31 ≤ x ∧ x < 2 ^ 31

instance (x : Int) : Decidable (InInt32 x) := inferInstanceAs (Decidable (_ ∧ _))

theorem toInt32_of_inInt32 {x : Int} (h : InInt32 x) : toInt32 x = x := by
  unfold toInt32 InInt32 at *
  rw [Int.emod_eq_of_lt (by omega) (by omega)]
  omega

/-! ## Enums and records -/

/-- `enum class ProbeType` with its `int` representation: `ICMP = 1, UDP = 2`. The
binding casts any `jint` to it, so every `int` is a value of the type. -/
structure ProbeType where
  val : Int
  deriving DecidableEq, Repr

/-- `ProbeType::ICMP` -/
def ProbeType.icmp : ProbeType := ⟨1⟩

/-- `ProbeType::UDP` -/
def ProbeType.udp : ProbeType := ⟨2⟩

/-- `enum class ProbeStatus`. Only the worker and `send_probe` assign it, always one of
the five named values. -/
inductive ProbeStatus where
  | waiting
  | success
  | timeout
  | error
  | fatalError
  deriving DecidableEq, Repr

/-- `struct timeval` -/
structure Timeval where
  tvSec : Int := 0
  tvUsec : Int := 0
  deriving DecidableEq, Repr

/-- The `timersub` macro of `<sys/time.h>`: subtract field-wise, borrow one second when
the microseconds go negative. -/
def timersub (a b : Timeval) : Timeval :=
  if a.tvUsec - b.tvUsec < 0 then
    { tvSec := a.tvSec - b.tvSec - 1, tvUsec := a.tvUsec - b.tvUsec + 1000000 }
  else
    { tvSec := a.tvSec - b.tvSec, tvUsec := a.tvUsec - b.tvUsec }

/-- `TIMEVAL_TO_MS(x)`: `(x.tv_sec*1000)+(x.tv_usec/1000)` in `long`, with C's
truncating division. -/
def timevalToMs (x : Timeval) : Int := x.tvSec * 1000 + x.tvUsec.tdiv 1000

/-- `TIMEVAL_TO_USEC(x)`: `(x.tv_sec*1000000)+(x.tv_usec)`. -/
def timevalToUsec (x : Timeval) : Int := x.tvSec * 1000000 + x.tvUsec

/-- `struct ProbeContext`. Every field the source declares; the defaults are what
value-initialisation gives (`probes[fd]` on a missing key, and the fields the
designated initialiser of `send_probe` leaves out). -/
structure ProbeContext where
  id : Int := 0
  remoteIp : String := ""
  offender : String := ""
  packetData : List UInt8 := []
  replyData : List UInt8 := []
  ttl : Int := 0
  replyTtl : Int := 0
  timeout : Int := 0
  overhead : Int := 0
  probeType : ProbeType := ⟨0⟩
  tvSent : Timeval := {}
  tvReceived : Timeval := {}
  tvDiff : Timeval := {}
  sequence : Int := 0
  errorMsg : String := ""
  errNo : Nat := 0
  errCode : Int := 0
  errType : Int := 0
  errInfo : Nat := 0
  status : ProbeStatus := .waiting
  deriving DecidableEq, Repr

/-- Whole milliseconds since `tvSent` at `now`, as `check_timeouts` and
`get_min_wait_time` compute it. -/
def ProbeContext.elapsedMs (p : ProbeContext) (now : Timeval) : Int :=
  timevalToMs (timersub now p.tvSent)

/-- Remaining milliseconds before the deadline, over the integers. -/
def ProbeContext.remainingMs (p : ProbeContext) (now : Timeval) : Int :=
  p.timeout - p.elapsedMs now

end Icmpenguin
