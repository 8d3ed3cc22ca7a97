import Icmpenguin.Basic

/-!
# Icmpenguin — the result variants

`trigger_callback` turns a finished record into one `ProbeResult` constructor call and
hands it, with the record's `id`, to the Java callback; a status outside the terminal ones
builds nothing. The JNI calls around it (attaching the thread, local references) are the
JNI layer's.
-/

namespace Icmpenguin

/-- The `ProbeResult` constructors of the binding, with the arguments `trigger_callback`
passes. `jint` arguments given wider C values are narrowed. -/
inductive ProbeResult where
  | success (sequence : Int) (remoteIp : String) (sentSize overhead rttUs replyTtl : Int)
      (reply : List UInt8)
  | timeout (sequence : Int) (remoteIp : String) (sentSize overhead : Int)
  | connectionRefused (sequence : Int) (remoteIp : String) (sentSize overhead : Int)
      (offender : String) (rttUs : Int)
  | hostUnreachable (sequence : Int) (remoteIp : String) (sentSize overhead : Int)
      (offender : String) (rttUs : Int)
  | netUnreachable (sequence : Int) (remoteIp : String) (sentSize overhead : Int)
      (offender : String) (rttUs : Int)
  | netError (sequence : Int) (remoteIp : String) (sentSize overhead : Int)
      (offender : String) (errNo errCode errType errInfo : Int)
  | unknown (sequence : Int) (remoteIp : String) (sentSize overhead : Int)
      (errorMsg : String)
  deriving DecidableEq, Repr

/-- The result `trigger_callback` builds for a record, `none` for `WAITING` ("Unknown
probe status"). The `ERROR` case switches on `err_no`. -/
def triggerCallback (p : ProbeContext) : Option ProbeResult :=
  let sent := toInt32 p.packetData.length
  let rtt := toInt32 (timevalToUsec p.tvDiff)
  match p.status with
  | .fatalError => some (.unknown p.sequence p.remoteIp sent p.overhead p.errorMsg)
  | .success =>
    some (.success p.sequence p.remoteIp sent p.overhead rtt p.replyTtl p.replyData)
  | .timeout => some (.timeout p.sequence p.remoteIp sent p.overhead)
  | .error =>
    some <|
      if p.errNo = econnrefused then
        .connectionRefused p.sequence p.remoteIp sent p.overhead p.offender rtt
      else if p.errNo = ehostunreach then
        .hostUnreachable p.sequence p.remoteIp sent p.overhead p.offender rtt
      else if p.errNo = enetunreach then
        .netUnreachable p.sequence p.remoteIp sent p.overhead p.offender rtt
      else
        .netError p.sequence p.remoteIp sent p.overhead p.offender (toInt32 p.errNo)
          p.errCode p.errType (toInt32 p.errInfo)
  | .waiting => none

/-- The sequence number a result reports. -/
def ProbeResult.sequence : ProbeResult → Int
  | .success q .. | .timeout q .. | .connectionRefused q .. | .hostUnreachable q ..
  | .netUnreachable q .. | .netError q .. | .unknown q .. => q

/-- A result is built exactly for the terminal statuses. -/
theorem triggerCallback_isSome (p : ProbeContext) :
    (triggerCallback p).isSome ↔ p.status ≠ .waiting := by
  unfold triggerCallback
  split <;> simp_all

end Icmpenguin
