import Icmpenguin.Report

/-!
# Icmpenguin — a probe's socket

`send_probe` opens a datagram socket whose protocol follows the probe type: ICMP or ICMPv6
for an ICMP probe, UDP for any other value the binding passes.

`ProbeManager::init_socket` makes a series of `setsockopt` calls on the socket `send_probe`
opened and only logs their failures, so what it does is the list of calls: level, option
and value, an `int` or a `struct timeval`. The options follow the destination's family.

The receive timeout converts the probe's milliseconds with `MS_TO_SEC` and `MS_TO_USEC`.
For every timeout it sets, that gives the one reading in range (microseconds in
`[0, 10^6)`, as `SO_RCVTIMEO` requires) that holds exactly the timeout.
-/

namespace Icmpenguin

/-- `IPPROTO_ICMP` -/
def ipprotoIcmp : Int := 1

/-- `IPPROTO_ICMPV6` -/
def ipprotoIcmpv6 : Int := 58

/-- `IPPROTO_UDP` -/
def ipprotoUdp : Int := 17

/-- `SOL_SOCKET` -/
def solSocket : Int := 1

/-- `IPPROTO_IP` -/
def ipprotoIp : Int := 0

/-- `IPPROTO_IPV6` -/
def ipprotoIpv6 : Int := 41

/-- `IPV6_UNICAST_HOPS` -/
def ipv6UnicastHops : Int := 16

/-- `SO_RCVTIMEO` -/
def soRcvtimeo : Int := 20

/-- `SO_SNDTIMEO` -/
def soSndtimeo : Int := 21

/-- `IP_RECVTTL` -/
def ipRecvttl : Int := 12

/-- `IPV6_RECVHOPLIMIT` -/
def ipv6Recvhoplimit : Int := 51

/-- `IP_MTU_DISCOVER` -/
def ipMtuDiscover : Int := 10

/-- `IPV6_MTU_DISCOVER` -/
def ipv6MtuDiscover : Int := 23

/-- `IP_PMTUDISC_PROBE` -/
def ipPmtudiscProbe : Int := 3

/-- `IPV6_PMTUDISC_PROBE` -/
def ipv6PmtudiscProbe : Int := 3

/-- `IP_TOS` -/
def ipTos : Int := 1

/-- `IPV6_TCLASS` -/
def ipv6Tclass : Int := 67

/-- `IPTOS_LOWDELAY` -/
def iptosLowdelay : Int := 0x10

/-- `DEFAULT_SEND_TIMEOUT`, in milliseconds. -/
def defaultSendTimeout : Int := 1000

/-- `MS_TO_SEC(x)`: `(x/1000)`, C's truncating division. -/
def msToSec (x : Int) : Int := x.tdiv 1000

/-- `MS_TO_USEC(x)`: `((x%1000)*1000)`, with C's remainder. -/
def msToUsec (x : Int) : Int := x.tmod 1000 * 1000

/-- The value a `setsockopt` call passes: an `int`, or a `struct timeval`. -/
inductive OptValue where
  | int (v : Int)
  | timeval (tv : Timeval)
  deriving DecidableEq, Repr

/-- One `setsockopt(sock, level, optname, &value, sizeof(value))`. -/
structure SockOpt where
  level : Int
  name : Int
  value : OptValue
  deriving DecidableEq, Repr

/-- `ProbeManager::init_socket`: the `setsockopt` calls it makes, in order, for a
destination of address family `family` (`remote_addr.ss_family`). -/
def initSocket (family : Int) (p : ProbeContext) (detectMtu : Bool) : List SockOpt :=
  let v4 := decide (family = afInet)
  (if 0 < p.ttl then
    [if v4 then ⟨ipprotoIp, ipTtl, .int p.ttl⟩
     else ⟨ipprotoIpv6, ipv6UnicastHops, .int p.ttl⟩]
  else []) ++
  (if 0 < p.timeout then
    [⟨solSocket, soRcvtimeo, .timeval ⟨msToSec p.timeout, msToUsec p.timeout⟩⟩]
  else []) ++
  [⟨solSocket, soSndtimeo,
     .timeval ⟨msToSec defaultSendTimeout, msToUsec defaultSendTimeout⟩⟩,
   if v4 then ⟨solIp, ipRecverr, .int 1⟩ else ⟨solIpv6, ipv6Recverr, .int 1⟩,
   if v4 then ⟨solIp, ipRecvttl, .int 1⟩ else ⟨solIpv6, ipv6Recvhoplimit, .int 1⟩] ++
  (if detectMtu then
    [if v4 then ⟨solIp, ipMtuDiscover, .int ipPmtudiscProbe⟩
     else ⟨solIpv6, ipv6MtuDiscover, .int ipv6PmtudiscProbe⟩]
  else []) ++
  [if v4 then ⟨ipprotoIp, ipTos, .int iptosLowdelay⟩
   else ⟨ipprotoIpv6, ipv6Tclass, .int iptosLowdelay⟩]

/-- The protocol `send_probe` passes to `socket()`: ICMP for an ICMP probe, ICMPv6 when
the destination is not IPv4, and UDP for every other probe type. -/
def probeProtocol (family : Int) (t : ProbeType) : Int :=
  if t = .icmp then (if family = afInet then ipprotoIcmp else ipprotoIcmpv6) else ipprotoUdp

/-! ## The receive timeout -/

/-- The only `SO_RCVTIMEO` call is the receive timeout's, made for a positive timeout. -/
theorem mem_initSocket_rcvtimeo (family : Int) (p : ProbeContext) (detectMtu : Bool)
    (v : OptValue) :
    (⟨solSocket, soRcvtimeo, v⟩ : SockOpt) ∈ initSocket family p detectMtu ↔
      0 < p.timeout ∧ v = .timeval ⟨msToSec p.timeout, msToUsec p.timeout⟩ := by
  unfold initSocket
  by_cases hf : family = afInet <;> split_ifs <;>
    simp_all [solSocket, soRcvtimeo, soSndtimeo, ipprotoIp, ipprotoIpv6, solIp, solIpv6, eq_comm]

/-- `MS_TO_SEC` and `MS_TO_USEC` of a count that is not negative: a reading in range with
exactly that many milliseconds. -/
theorem msToTimeval_normal {x : Int} (hx : 0 ≤ x) :
    Timeval.Normal ⟨msToSec x, msToUsec x⟩ ∧
      timevalToUsec ⟨msToSec x, msToUsec x⟩ = 1000 * x := by
  have h1000 : (0 : Int) ≤ 1000 := by decide
  simp only [Timeval.Normal, timevalToUsec, msToSec, msToUsec, Int.tdiv_eq_ediv hx h1000,
    Int.tmod_eq_emod hx h1000]
  omega

/-- A reading in range is determined by its microseconds. -/
theorem Timeval.Normal.eq_of_usec {a b : Timeval} (ha : a.Normal) (hb : b.Normal)
    (h : timevalToUsec a = timevalToUsec b) : a = b := by
  obtain ⟨as, au⟩ := a
  obtain ⟨bs, bu⟩ := b
  simp only [Timeval.Normal, timevalToUsec] at ha hb h
  have hs : as = bs := by omega
  subst hs
  congr
  omega

/-- For every destination family and every probe, `init_socket` sets a receive timeout
exactly when the probe's timeout is positive, and then to the one `struct timeval` in
range (microseconds in `[0, 10^6)`, as `SO_RCVTIMEO` requires) that holds exactly the
timeout: `MS_TO_SEC` and `MS_TO_USEC` lose nothing. -/
theorem initSocket_rcvtimeo (family : Int) (p : ProbeContext) (detectMtu : Bool)
    (tv : Timeval) :
    (⟨solSocket, soRcvtimeo, .timeval tv⟩ : SockOpt) ∈ initSocket family p detectMtu ↔
      0 < p.timeout ∧ tv.Normal ∧ timevalToUsec tv = 1000 * p.timeout := by
  rw [mem_initSocket_rcvtimeo, OptValue.timeval.injEq]
  refine and_congr_right fun hp => ?_
  obtain ⟨hn, hu⟩ := msToTimeval_normal hp.le
  refine ⟨fun h => h ▸ ⟨hn, hu⟩, fun ⟨htv, h⟩ => htv.eq_of_usec hn (h.trans hu.symm)⟩

end Icmpenguin
