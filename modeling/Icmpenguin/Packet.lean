import Icmpenguin.Basic

/-!
# Icmpenguin — addressing and the packet builder

What the constructor fixes for the life of an engine (`Config`), the record
`send_probe` starts from, and `ProbeManager::init_packet_data`: resize the fresh
`packet_data` to the packet size, write the echo header for ICMP probes, and fill the
payload with the caller's pattern. `resize` can throw and the fill loop's `int` index
can overflow, so the builder returns `Except CppFault`.
-/

namespace Icmpenguin

/-! ## The constructor -/

/-- What `ProbeManager::ProbeManager` fixes for the life of the engine. `family` is
`remote_addr.ss_family`; `sourceIp` empty means no `bind`; `callbackSet` says whether
`trigger_callback` was assigned. -/
structure Config where
  family : Int
  remoteIp : String
  sourceIp : String
  ident : Int
  callbackSet : Bool
  deriving DecidableEq, Repr

/-- `ProbeManager::ProbeManager`, with libc's `inet_pton` as `pton family text` (does it
parse). A destination that parses in neither family returns early: the zeroed
`remote_addr` keeps the `AF_INET6` family `try_init_addr` wrote, and `trigger_callback`
and `ident` are never assigned (`ident` is then whatever the caller passes here). A
source that parses in neither family falls back to no bind. -/
def construct (pton : Int → String → Bool) (remoteIp sourceIp : String) (ident : Int) :
    Config :=
  if pton afInet remoteIp ∨ pton afInet6 remoteIp then
    { family := if pton afInet remoteIp then afInet else afInet6
      remoteIp
      sourceIp := if pton afInet sourceIp ∨ pton afInet6 sourceIp then sourceIp else ""
      ident
      callbackSet := true }
  else
    { family := afInet6, remoteIp, sourceIp := "", ident, callbackSet := false }

/-! ## The record `send_probe` builds -/

/-- The arguments of `send_probe` after the binding's casts. The `int`s the engine
computes with carry their range; `pattern_len` is a Java array length. -/
structure SendArgs where
  id : Int
  probeType : ProbeType
  port : Int
  sequence : Int
  ttl : Int
  timeout : Int
  size : Int
  detectMtu : Bool
  pattern : List UInt8
  timeout_range : InInt32 timeout
  size_range : InInt32 size
  pattern_range : pattern.length < 2 ^ 31

/-- The designated initialiser at the top of `send_probe`. The sequence is stored as
`sequence % 0xffff`, C++'s truncating remainder by 65535. -/
def makeProbe (cfg : Config) (a : SendArgs) : ProbeContext :=
  { id := a.id
    remoteIp := cfg.remoteIp
    ttl := a.ttl
    timeout := a.timeout
    overhead := (if a.probeType = .udp then udpOverhead else 0) +
      (if cfg.family = afInet then ipv4Overhead else ipv6Overhead)
    probeType := a.probeType
    sequence := a.sequence.tmod 0xffff }

/-- What leaves a C++ expression instead of a value: `std::length_error` from
`vector::resize`, or undefined behaviour from signed `int` overflow. -/
inductive CppFault where
  | lengthError
  | intOverflow
  deriving DecidableEq, Repr

/-- `std::vector<uint8_t>::max_size()` in libc++ on a 64-bit target: `PTRDIFF_MAX`. -/
def vectorMaxSize : Int := 2 ^ 63 - 1

/-- `INT_MAX` -/
def intMax : Int := 2 ^ 31 - 1

/-- `packet_data.resize(packet_size)` on the empty vector of a fresh probe: the `int`
converts to `size_t`, and past `max_size()` libc++ throws `length_error`. -/
def resizeEmpty (n : Int) : Except CppFault (List UInt8) :=
  if vectorMaxSize < n % 2 ^ 64 then .error .lengthError
  else .ok (List.replicate (n % 2 ^ 64).toNat 0)

/-- `memcpy(buf + i, src, src_len)` inside the buffer: every call site stays in bounds,
and past the end nothing is written. -/
def writeAt (buf : List UInt8) (i : Nat) (src : List UInt8) : List UInt8 :=
  buf.take i ++ src.take (buf.length - i) ++ buf.drop (i + src.length)

/-- `htons` of an `int`: the `uint16_t` it converts to, most significant byte first. -/
def htons (v : Int) : List UInt8 :=
  [UInt8.ofNat ((v % 65536).toNat / 256), UInt8.ofNat ((v % 65536).toNat % 256)]

/-- `ICMP_ECHO` for IPv4, `ICMPV6_ECHO_REQUEST` otherwise. -/
def echoType (family : Int) : UInt8 := if family = afInet then 8 else 128

/-- The header writes of `init_packet_data`: type at 0, code at 1, identifier at 4–5,
sequence at 6–7 (`struct icmphdr` and `struct icmp6hdr` agree on this layout). The
checksum at 2–3 stays zero for the kernel to fill. -/
def writeEchoHeader (family ident sequence : Int) (buf : List UInt8) : List UInt8 :=
  writeAt (writeAt (writeAt (writeAt buf 0 [echoType family]) 1 [0]) 4 (htons ident)) 6
    (htons sequence)

/-- The fill loop `for (int i = data_offset; i < packet_size; i += pattern_len)`, copying
`min(packet_size - i, pattern_len)` bytes of the pattern to offset `i`. The index grows
by at least one, so `(packet_size - data_offset).toNat` iterations of fuel suffice;
`i += pattern_len` past `INT_MAX` is signed overflow. -/
def fillLoop (pattern : List UInt8) (packetSize : Int) :
    Nat → Int → List UInt8 → Except CppFault (List UInt8)
  | 0, _, buf => .ok buf
  | fuel + 1, i, buf =>
    if i < packetSize then
      let buf := writeAt buf i.toNat (pattern.take (min (packetSize - i) pattern.length).toNat)
      if intMax < i + pattern.length then .error .intOverflow
      else fillLoop pattern packetSize fuel (i + pattern.length) buf
    else .ok buf

/-- `ProbeManager::init_packet_data` for the engine's address family and identifier. -/
def initPacketData (family ident : Int) (probe : ProbeContext) (size : Int)
    (pattern : List UInt8) : Except CppFault (List UInt8) := do
  let dataOffset : Int := if probe.probeType = .icmp then icmpHeaderSize else 0
  let packetSize : Int :=
    if probe.probeType = .icmp ∧ size < icmpHeaderSize then icmpHeaderSize else size
  let buf ← resizeEmpty packetSize
  let buf := if probe.probeType = .icmp then writeEchoHeader family ident probe.sequence buf
    else buf
  if 0 < pattern.length then
    fillLoop pattern packetSize (packetSize - dataOffset).toNat dataOffset buf
  else
    pure buf

/-! ## Buffer lemmas -/

@[simp] theorem length_writeAt (buf : List UInt8) (i : Nat) (src : List UInt8) :
    (writeAt buf i src).length = buf.length := by
  simp only [writeAt, List.length_append, List.length_take, List.length_drop]
  omega

theorem drop_take_writeAt {buf : List UInt8} {i : Nat} {src : List UInt8}
    (h : i + src.length ≤ buf.length) : ((writeAt buf i src).drop i).take src.length = src := by
  rw [writeAt, List.take_of_length_le (by omega : src.length ≤ buf.length - i),
    List.append_assoc, List.drop_left' (by simp; omega), List.take_left' rfl]

end Icmpenguin
