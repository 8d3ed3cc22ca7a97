import Icmpenguin.Packet

/-!
# Icmpenguin — the receiver

The body of `ProbeManager::read_data` on the record of a readable descriptor: preset
`TIMEOUT`, drain the error queue, and only if that posted no error, receive data. What
each `recvmsg` returns comes from the kernel and the network, so it is an argument: `none`
when the call fails (nothing queued, `EAGAIN`), else what it copied and the control
messages attached.
-/

namespace Icmpenguin

/-- `SOL_IP` -/
def solIp : Int := 0

/-- `SOL_IPV6` -/
def solIpv6 : Int := 41

/-- `IP_TTL` -/
def ipTtl : Int := 2

/-- `IP_RECVERR` -/
def ipRecverr : Int := 11

/-- `IPV6_RECVERR` -/
def ipv6Recverr : Int := 25

/-- `IPV6_HOPLIMIT` -/
def ipv6Hoplimit : Int := 52

/-- A control message: its level and type, and what its data reads as — the fields of a
`sock_extended_err` with the offender `inet_ntop` renders in the engine's family, or one
`int`. The receiver decides from level and type which reading it uses. -/
structure Cmsg where
  level : Int
  type : Int
  eeErrno : Nat
  eeCode : Int
  eeOrigin : Int
  eeInfo : Nat
  offender : String
  intData : Int
  deriving DecidableEq, Repr

/-- What a successful `recvmsg` gives: the bytes it copied into the receive buffer,
the control messages, and what `ioctl(SIOCGSTAMP)` reports right after (`none` when the
ioctl fails and leaves `tv_received` untouched). -/
structure Received where
  payload : List UInt8
  cmsgs : List Cmsg
  stamp : Option Timeval
  deriving DecidableEq, Repr

/-- An `IP_RECVERR` or `IPV6_RECVERR` message. -/
def Cmsg.IsRecvErr (c : Cmsg) : Prop :=
  (c.level = solIp ∧ c.type = ipRecverr) ∨ (c.level = solIpv6 ∧ c.type = ipv6Recverr)

/-- An `IP_TTL` or `IPV6_HOPLIMIT` message. -/
def Cmsg.IsHopLimit (c : Cmsg) : Prop :=
  (c.level = solIp ∧ c.type = ipTtl) ∨ (c.level = solIpv6 ∧ c.type = ipv6Hoplimit)

instance (c : Cmsg) : Decidable c.IsRecvErr := inferInstanceAs (Decidable (_ ∨ _))

instance (c : Cmsg) : Decidable c.IsHopLimit := inferInstanceAs (Decidable (_ ∨ _))

/-- `probe.reply_data.resize(n)`: keep the prefix, pad with zeros. -/
def resizeTo (l : List UInt8) (n : Nat) : List UInt8 :=
  l.take n ++ List.replicate (n - l.length) 0

/-- One iteration of the `CMSG_FIRSTHDR`/`CMSG_NXTHDR` walk. -/
def walkCmsg (stamp : Option Timeval) (p : ProbeContext) (c : Cmsg) : ProbeContext :=
  if c.IsRecvErr then
    { p with offender := c.offender, errNo := c.eeErrno, errCode := c.eeCode,
             errType := c.eeOrigin, errInfo := c.eeInfo, status := .error,
             tvReceived := stamp.getD p.tvReceived }
  else if c.IsHopLimit then { p with replyTtl := c.intData }
  else p

/-- One pass of the two-pass loop, with `flag` the error-queue flag: when `recvmsg`
succeeds, the copied bytes land in the buffer, the control messages are walked, and the
data pass (`flag == 0`) marks the reply. -/
def recvPass (errQueue : Bool) (p : ProbeContext) : Option Received → ProbeContext
  | none => p
  | some r =>
    let data := r.payload.take incomingBufferSize
    let p := r.cmsgs.foldl (walkCmsg r.stamp) { p with replyData := writeAt p.replyData 0 data }
    if errQueue then p
    else { p with status := .success, tvReceived := r.stamp.getD p.tvReceived,
                   replyData := resizeTo p.replyData data.length }

/-- `ProbeManager::read_data` applied to the record, with the clock reading of its
`gettimeofday` and what the error-queue and data receives return. -/
def readData (now : Timeval) (errq data : Option Received) (p : ProbeContext) :
    ProbeContext :=
  let p := { p with tvReceived := now, status := .timeout,
                    replyData := resizeTo p.replyData incomingBufferSize }
  let p := recvPass true p errq
  let p := if p.status = .error then p else recvPass false p data
  { p with tvDiff := timersub p.tvReceived p.tvSent }

/-! ## The status `read_data` leaves -/

/-- Whether an error-queue receive posted an extended error. -/
def PostsError : Option Received → Prop
  | none => False
  | some r => ∃ c ∈ r.cmsgs, c.IsRecvErr

instance : DecidablePred PostsError
  | none => inferInstanceAs (Decidable False)
  | some r => inferInstanceAs (Decidable (∃ c ∈ r.cmsgs, c.IsRecvErr))

theorem foldl_walkCmsg_status (stamp : Option Timeval) :
    ∀ (cs : List Cmsg) (p : ProbeContext),
      (cs.foldl (walkCmsg stamp) p).status =
        if ∃ c ∈ cs, c.IsRecvErr then .error else p.status
  | [], p => by simp
  | c :: cs, p => by
    rw [List.foldl_cons, foldl_walkCmsg_status stamp cs]
    by_cases hc : c.IsRecvErr <;> simp [walkCmsg, hc, List.mem_cons]
    split_ifs <;> simp_all

@[simp] theorem recvPass_none (b : Bool) (p : ProbeContext) : recvPass b p none = p := rfl

theorem recvPass_errQueue_status (p : ProbeContext) (r : Option Received) :
    (recvPass true p r).status = if PostsError r then .error else p.status := by
  cases r <;> simp [recvPass, PostsError, foldl_walkCmsg_status]

theorem recvPass_data_status (p : ProbeContext) (r : Received) :
    (recvPass false p (some r)).status = .success := rfl

/-- The status `read_data` leaves: `ERROR` when the error queue posted an extended error,
else `SUCCESS` when the data receive got a datagram, else the preset `TIMEOUT`. -/
theorem readData_status (now : Timeval) (errq data : Option Received) (p : ProbeContext) :
    (readData now errq data p).status =
      if PostsError errq then .error else if data.isSome then .success else .timeout := by
  simp only [readData]
  rw [apply_ite (fun q : ProbeContext => q.status)]
  simp only [recvPass_errQueue_status]
  by_cases he : PostsError errq
  · simp [he]
  · cases data <;> simp [he, recvPass_errQueue_status, recvPass_data_status]

end Icmpenguin
