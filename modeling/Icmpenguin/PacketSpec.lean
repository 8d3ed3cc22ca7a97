import Icmpenguin.Packet

/-!
# Icmpenguin — the packet `init_packet_data` builds

The spec describes the packet byte by byte: the echo header below the payload offset for
ICMP, then the pattern repeated from the offset to the end, truncated in its last copy,
or zeros when the pattern is empty. `referencePacket` says that in its own words.

`init_packet_data` builds exactly that packet, unless its `int` loop index overflows:
the loop adds `pattern_len` to an index below the packet size after every copy, which
passes `INT_MAX` when the packet size and the pattern length are both large. The proof
reads the buffer pointwise: `getElem?_writeAt` for one `memcpy`, `getElem?_fillLoop` for
the whole loop, and `writeEchoHeader_replicate` for the header writes.
-/

namespace Icmpenguin

/-! ## One `memcpy` -/

/-- The byte at `k` after copying `src` to offset `i`: the source byte where the copy
lands inside the buffer, the old byte everywhere else. -/
theorem getElem?_writeAt (buf : List UInt8) (i : Nat) (src : List UInt8) (k : Nat) :
    (writeAt buf i src)[k]? =
      if i ≤ k ∧ k < i + src.length ∧ k < buf.length then src[k - i]? else buf[k]? := by
  by_cases hk : k < buf.length
  swap
  · rw [if_neg (by omega), List.getElem?_eq_none (by rw [length_writeAt]; omega),
      List.getElem?_eq_none (by omega)]
  unfold writeAt
  simp only [List.getElem?_append, List.getElem?_take, List.getElem?_drop, List.length_append,
    List.length_take, Nat.min_def]
  split_ifs <;> first | rfl | omega | (congr 1; omega)

/-! ## The fill loop -/

/-- The fill overflows its `int` index when some copy starts below the packet end, at
`offset + m * len`, and the index after it passes `INT_MAX`. -/
def FillOverflows (offset packetSize : Int) (len : Nat) : Prop :=
  ∃ m : Nat, offset + ((m * len : Nat) : Int) < packetSize ∧
    intMax < offset + ((m * len : Nat) : Int) + len

/-- An overflowing copy starts below the packet end, so its number `m` is below the
packet's byte count and a bounded search decides `FillOverflows`. -/
theorem fillOverflows_iff_bounded {offset packetSize : Int} {len : Nat} :
    FillOverflows offset packetSize len ↔
      ∃ m < (packetSize - offset).toNat, offset + ((m * len : Nat) : Int) < packetSize ∧
        intMax < offset + ((m * len : Nat) : Int) + len := by
  refine ⟨fun ⟨m, hlt, hover⟩ => ?_, fun ⟨m, _, h⟩ => ⟨m, h⟩⟩
  rcases Nat.eq_zero_or_pos len with rfl | hlen
  · exact ⟨0, by simp only [Nat.mul_zero] at hlt hover ⊢; omega⟩
  · have := Nat.le_mul_of_pos_right m hlen
    exact ⟨m, by omega, hlt, hover⟩

instance (offset packetSize : Int) (len : Nat) : Decidable (FillOverflows offset packetSize len) :=
  decidable_of_iff _ fillOverflows_iff_bounded.symm

/-- An empty pattern is never copied, so it cannot overflow the index. -/
theorem not_fillOverflows_zero {offset packetSize : Int} (h : offset ≤ intMax) :
    ¬FillOverflows offset packetSize 0 := fun ⟨m, _, hover⟩ => by
  simp only [Nat.mul_zero] at hover; omega

/-- Past its first copy, the loop overflows from `i` exactly when it overflows from
`i + len`. -/
theorem fillOverflows_next {offset packetSize : Int} {len : Nat}
    (hfit : offset + len ≤ intMax) :
    FillOverflows (offset + len) packetSize len ↔ FillOverflows offset packetSize len := by
  constructor
  · rintro ⟨m, hlt, hover⟩
    exact ⟨m + 1, by rw [Nat.succ_mul]; omega, by rw [Nat.succ_mul]; omega⟩
  · rintro ⟨_ | m, hlt, hover⟩
    · simp only [Nat.zero_mul] at hover; omega
    · exact ⟨m, by rw [Nat.succ_mul] at hlt; omega, by rw [Nat.succ_mul] at hover; omega⟩

section FillLoop

variable {pattern : List UInt8} {packetSize : Int}

theorem fillLoop_done {fuel : Nat} {i : Int} {buf : List UInt8} (hi : packetSize ≤ i) :
    fillLoop pattern packetSize fuel i buf = .ok buf := by
  cases fuel <;> simp only [fillLoop, if_neg (Int.not_lt.2 hi)]

theorem fillLoop_step {fuel : Nat} {i : Int} {buf : List UInt8} (hi : i < packetSize)
    (hfit : i + pattern.length ≤ intMax) :
    fillLoop pattern packetSize (fuel + 1) i buf =
      fillLoop pattern packetSize fuel (i + pattern.length)
        (writeAt buf i.toNat (pattern.take (min (packetSize - i) pattern.length).toNat)) := by
  simp only [fillLoop, if_pos hi, if_neg (Int.not_lt.2 hfit)]

theorem fillLoop_overflow {fuel : Nat} {i : Int} {buf : List UInt8} (hi : i < packetSize)
    (hover : intMax < i + pattern.length) :
    fillLoop pattern packetSize (fuel + 1) i buf = .error .intOverflow := by
  simp only [fillLoop, if_pos hi, if_pos hover]

/-- The loop's only error is the index overflow. -/
theorem fillLoop_error : ∀ {fuel : Nat} {i : Int} {buf : List UInt8} {e : CppFault},
    fillLoop pattern packetSize fuel i buf = .error e → e = .intOverflow
  | 0, _, _, _, h => by cases h
  | fuel + 1, i, buf, e, h => by
    simp only [fillLoop] at h
    split_ifs at h
    · cases h; rfl
    · exact fillLoop_error h

/-- With fuel for every copy, the loop overflows exactly when `FillOverflows` says so. -/
theorem fillLoop_overflow_iff (hL : 0 < pattern.length) {fuel : Nat} {i : Int} {buf : List UInt8} (hfuel : packetSize - i ≤ fuel) :
    fillLoop pattern packetSize fuel i buf = .error .intOverflow ↔
      FillOverflows i packetSize pattern.length := by
  induction fuel generalizing i buf with
  | zero =>
    rw [fillLoop_done (by omega)]
    exact iff_of_false (fun h => by cases h) fun ⟨m, hlt, _⟩ => by omega
  | succ fuel ih =>
    by_cases hi : i < packetSize
    · by_cases hover : intMax < i + pattern.length
      · exact iff_of_true (fillLoop_overflow hi hover) ⟨0, by omega, by omega⟩
      · rw [fillLoop_step hi (by omega), ih (by omega), fillOverflows_next (by omega)]
    · rw [fillLoop_done (by omega)]
      exact iff_of_false (fun h => by cases h) fun ⟨m, hlt, _⟩ => by omega

/-- With fuel for every copy, a loop that returns leaves the pattern repeated from its
start index `i` to the end of the buffer, and every byte below `i` as it was. -/
theorem getElem?_fillLoop (hL : 0 < pattern.length) {fuel i : Nat} {buf out : List UInt8}
    (hlen : buf.length = packetSize.toNat) (hfuel : packetSize - i ≤ fuel)
    (h : fillLoop pattern packetSize fuel i buf = .ok out) (k : Nat) :
    out[k]? = if i ≤ k ∧ k < buf.length then pattern[(k - i) % pattern.length]? else buf[k]? := by
  induction fuel generalizing i buf with
  | zero =>
    rw [fillLoop_done (by omega)] at h
    cases h
    rw [if_neg (by omega)]
  | succ fuel ih =>
    by_cases hi : (i : Int) < packetSize
    swap
    · rw [fillLoop_done (by omega)] at h
      cases h
      rw [if_neg (by omega)]
    have hfit : (i : Int) + pattern.length ≤ intMax := by
      refine Int.not_lt.1 fun hover => ?_
      rw [fillLoop_overflow hi hover] at h
      cases h
    rw [fillLoop_step hi hfit, show (i : Int) + pattern.length = ((i + pattern.length : Nat) : Int)
      by omega] at h
    rw [ih ((length_writeAt ..).trans hlen) (by omega) h, length_writeAt, getElem?_writeAt,
      List.getElem?_take, List.length_take, Int.toNat_natCast]
    generalize hc : (min (packetSize - i) pattern.length).toNat = c
    replace hc : c = min (buf.length - i) pattern.length := by omega
    subst hc
    by_cases hk : i + pattern.length ≤ k
    · have hmod : (k - i) % pattern.length = (k - (i + pattern.length)) % pattern.length := by
        rw [show k - i = k - (i + pattern.length) + pattern.length by omega, Nat.add_mod_right]
      simp only [hmod]
      split_ifs <;> first | rfl | omega
    · rw [Nat.mod_eq_of_lt (show k - i < pattern.length by omega)]
      split_ifs <;> first | rfl | omega

/-- With fuel for every copy and no overflowing copy, the loop returns a buffer. -/
theorem fillLoop_ok (hL : 0 < pattern.length) {fuel : Nat} {i : Int} (buf : List UInt8)
    (hfuel : packetSize - i ≤ fuel) (hfit : ¬FillOverflows i packetSize pattern.length) :
    ∃ out, fillLoop pattern packetSize fuel i buf = .ok out := by
  cases hr : fillLoop pattern packetSize fuel i buf with
  | error e =>
    cases fillLoop_error hr
    exact absurd ((fillLoop_overflow_iff hL hfuel).1 hr) hfit
  | ok out => exact ⟨out, rfl⟩

end FillLoop

/-! ## The reference packet -/

/-- The packet length of the spec: `max(S, 8)` for ICMP, `S` for UDP. -/
def packetLength (t : ProbeType) (size : Int) : Int := if t = .icmp then max size 8 else size

/-- Where the payload starts: after the 8-byte echo header for ICMP, at 0 for UDP. -/
def payloadOffset (t : ProbeType) : Nat := if t = .icmp then 8 else 0

/-- The echo header of the spec: type 8 for IPv4 and 128 for IPv6, code 0, a zero
checksum, then the identifier and the sequence, each as its low 16 bits, high byte
first. -/
def referenceHeader (family ident sequence : Int) : List UInt8 :=
  [if family = afInet then 8 else 128, 0, 0, 0,
    UInt8.ofNat ((ident % 65536).toNat / 256), UInt8.ofNat ((ident % 65536).toNat % 256),
    UInt8.ofNat ((sequence % 65536).toNat / 256), UInt8.ofNat ((sequence % 65536).toNat % 256)]

/-- The reference packet: the header below the payload offset, then `P[(k - offset) mod L]`
at every byte `k` up to the packet length, or 0 when the pattern is empty. -/
def referencePacket (family ident : Int) (t : ProbeType) (sequence size : Int)
    (pattern : List UInt8) : List UInt8 :=
  (List.range (packetLength t size).toNat).map fun k =>
    if k < payloadOffset t then (referenceHeader family ident sequence).getD k 0
    else if pattern = [] then 0
    else pattern.getD ((k - payloadOffset t) % pattern.length) 0

theorem getElem?_referencePacket {family ident : Int} {t : ProbeType} {sequence size : Int}
    {pattern : List UInt8} (k : Nat) :
    (referencePacket family ident t sequence size pattern)[k]? =
      if k < (packetLength t size).toNat then
        some (if k < payloadOffset t then (referenceHeader family ident sequence).getD k 0
          else if pattern = [] then 0
          else pattern.getD ((k - payloadOffset t) % pattern.length) 0)
      else none := by
  unfold referencePacket
  by_cases hk : k < (packetLength t size).toNat
  · rw [if_pos hk, List.getElem?_map, List.getElem?_range hk]; rfl
  · rw [if_neg hk, List.getElem?_eq_none (by simp only [List.length_map, List.length_range]; omega)]

/-! ## The model builds the reference packet -/

theorem resizeEmpty_of_nonneg {n : Int} (h0 : 0 ≤ n) (h1 : n < 2 ^ 63) :
    resizeEmpty n = .ok (List.replicate n.toNat 0) := by
  rw [resizeEmpty, Int.emod_eq_of_lt h0 (by omega), if_neg (by simp only [vectorMaxSize]; omega)]

/-- A copy that ends inside a prefix of the buffer leaves the rest untouched. -/
theorem writeAt_append_left {pre rest : List UInt8} {i : Nat} {src : List UInt8}
    (h : i + src.length ≤ pre.length) :
    writeAt (pre ++ rest) i src = writeAt pre i src ++ rest := by
  simp only [writeAt, List.length_append, List.take_append_of_le_length (by omega : i ≤ pre.length),
    List.drop_append_of_le_length h, List.append_assoc,
    List.take_of_length_le (by omega : src.length ≤ pre.length + rest.length - i),
    List.take_of_length_le (by omega : src.length ≤ pre.length - i)]

/-- The header writes touch bytes 0–7 only. -/
theorem writeEchoHeader_append {family ident sequence : Int} {pre rest : List UInt8}
    (h : 8 ≤ pre.length) :
    writeEchoHeader family ident sequence (pre ++ rest) =
      writeEchoHeader family ident sequence pre ++ rest := by
  unfold writeEchoHeader
  rw [writeAt_append_left ?_, writeAt_append_left ?_,
    writeAt_append_left ?_, writeAt_append_left ?_] <;>
    simp only [length_writeAt, htons, List.length_cons, List.length_nil] <;> omega

/-- The header writes over eight zero bytes leave the reference header. -/
theorem writeEchoHeader_zeros (family ident sequence : Int) :
    writeEchoHeader family ident sequence (List.replicate 8 0) =
      referenceHeader family ident sequence := rfl

/-- The header writes over a zeroed buffer leave the reference header, then zeros. -/
theorem writeEchoHeader_replicate {family ident sequence : Int} {n : Nat} (h : 8 ≤ n) :
    writeEchoHeader family ident sequence (List.replicate n 0) =
      referenceHeader family ident sequence ++ List.replicate (n - 8) 0 := by
  rw [show n = 8 + (n - 8) by omega, List.replicate_add, Nat.add_sub_cancel_left,
    writeEchoHeader_append (List.length_replicate 8 0).symm.le, writeEchoHeader_zeros]

/-- A byte inside a list reads the same through `getElem?` and `getD`. -/
theorem getElem?_eq_some_getD {l : List UInt8} {k : Nat} (h : k < l.length) (d : UInt8) :
    l[k]? = some (l.getD k d) := by
  rw [List.getD_eq_getElem?_getD, List.getElem?_eq_getElem h]
  rfl

/-- The packet size `init_packet_data` computes is the spec's packet length, for an ICMP
probe or a UDP probe whose size is not negative; it is at least 8 for ICMP and fits the
allocator. -/
theorem packetSize_eq_packetLength {t : ProbeType} {size : Int}
    (htype : t = .icmp ∨ t = .udp ∧ 0 ≤ size) (hsize : InInt32 size) :
    (if t = .icmp ∧ size < icmpHeaderSize then icmpHeaderSize else size) =
        packetLength t size ∧
      0 ≤ packetLength t size ∧ packetLength t size < 2 ^ 63 ∧
      (t = .icmp → 8 ≤ packetLength t size) := by
  have hudp : ProbeType.udp ≠ ProbeType.icmp := by decide
  unfold packetLength icmpHeaderSize InInt32 at *
  rcases htype with rfl | ⟨rfl, _⟩
  · simp only [true_and, if_true]; omega
  · simp only [hudp, false_and, if_false, false_implies, and_true, true_and]; omega

theorem dataOffset_eq_payloadOffset (t : ProbeType) :
    (if t = .icmp then icmpHeaderSize else 0) = ((payloadOffset t : Nat) : Int) := by
  unfold payloadOffset icmpHeaderSize; split_ifs <;> rfl

/-- The buffer before the fill: the reference header below the payload offset, zeros after
it. -/
theorem getElem?_headerBuffer (family ident sequence : Int) {t : ProbeType} {n : Nat}
    (h8 : t = .icmp → 8 ≤ n) (k : Nat) :
    (if t = .icmp then writeEchoHeader family ident sequence (List.replicate n 0)
      else List.replicate n 0)[k]? =
      if k < n then
        some (if k < payloadOffset t then (referenceHeader family ident sequence).getD k 0
          else 0)
      else none := by
  by_cases hicmp : t = .icmp
  · have h8 := h8 hicmp
    have hlen : (referenceHeader family ident sequence).length = 8 := rfl
    rw [if_pos hicmp, writeEchoHeader_replicate h8, List.getElem?_append, hlen,
      List.getElem?_replicate]
    simp only [payloadOffset, if_pos hicmp]
    by_cases hk : k < 8
    · rw [if_pos hk, if_pos (by omega), if_pos hk, getElem?_eq_some_getD (by omega)]
    · rw [if_neg hk, if_neg hk]; split_ifs <;> first | rfl | omega
  · simp only [if_neg hicmp, List.getElem?_replicate, payloadOffset, Nat.not_lt_zero]; rfl

/-- What `init_packet_data` leaves for an ICMP probe, or a UDP probe whose size is not
negative: the reference packet, unless the fill loop's index overflows, which happens
exactly when `FillOverflows` holds. -/
theorem initPacketData_eq_reference {family ident size : Int} {probe : ProbeContext}
    {pattern : List UInt8}
    (htype : probe.probeType = .icmp ∨ probe.probeType = .udp ∧ 0 ≤ size)
    (hsize : InInt32 size) :
    initPacketData family ident probe size pattern =
      if FillOverflows (payloadOffset probe.probeType) (packetLength probe.probeType size)
          pattern.length
      then .error .intOverflow
      else .ok (referencePacket family ident probe.probeType probe.sequence size pattern) := by
  obtain ⟨hsz, h0, h63, h8⟩ := packetSize_eq_packetLength htype hsize
  simp only [initPacketData, hsz, dataOffset_eq_payloadOffset, resizeEmpty_of_nonneg h0 h63,
    bind, Except.bind, pure, Except.pure]
  generalize hb : (if probe.probeType = .icmp then writeEchoHeader family ident probe.sequence
      (List.replicate (packetLength probe.probeType size).toNat 0)
    else List.replicate (packetLength probe.probeType size).toNat 0) = buf
  have hbuf := hb ▸ getElem?_headerBuffer family ident probe.sequence fun h => by
    have := h8 h; omega
  have hlen : buf.length = (packetLength probe.probeType size).toNat := by
    subst hb; split_ifs <;> simp only [writeEchoHeader, length_writeAt, List.length_replicate]
  rcases Nat.eq_zero_or_pos pattern.length with hL | hL
  · -- an empty pattern: no fill
    have hoff : ((payloadOffset probe.probeType : Nat) : Int) ≤ intMax := by
      unfold payloadOffset intMax; split_ifs <;> decide
    rw [if_neg (by omega), hL, if_neg (not_fillOverflows_zero hoff)]
    refine congrArg Except.ok (List.ext_getElem? fun k => ?_)
    rw [hbuf, getElem?_referencePacket, if_pos (List.length_eq_zero.1 hL)]
  · have hfuel : packetLength probe.probeType size - (payloadOffset probe.probeType : Nat) ≤
        ((packetLength probe.probeType size - (payloadOffset probe.probeType : Nat)).toNat :
          Nat) := by omega
    rw [if_pos hL]
    split_ifs with hover
    · exact (fillLoop_overflow_iff hL hfuel).2 hover
    obtain ⟨out, hout⟩ := fillLoop_ok hL buf hfuel hover
    rw [hout]
    refine congrArg Except.ok (List.ext_getElem? fun k => ?_)
    rw [getElem?_fillLoop hL hlen hfuel hout, hbuf, getElem?_referencePacket, hlen,
      getElem?_eq_some_getD (Nat.mod_lt _ hL), if_neg (List.ne_nil_of_length_pos hL)]
    split_ifs <;> first | rfl | omega

/-- A pattern longer than the two payload bytes of a 10-byte echo request. -/
theorem initPacketData_short_payload :
    let probe : ProbeContext := { probeType := .icmp, sequence := 1 }
    (probe.probeType = .icmp ∨ probe.probeType = .udp ∧ (0 : Int) ≤ 10) ∧ InInt32 10 ∧
    initPacketData afInet 7 probe 10 [1, 2, 3] =
      if FillOverflows (payloadOffset probe.probeType) (packetLength probe.probeType 10)
          ([1, 2, 3] : List UInt8).length
      then .error .intOverflow
      else .ok (referencePacket afInet 7 probe.probeType probe.sequence 10 [1, 2, 3]) :=
  ⟨Or.inl rfl, by decide, initPacketData_eq_reference (Or.inl rfl) (by decide)⟩

example :
    initPacketData afInet 7 { probeType := .icmp, sequence := 1 } 10 [1, 2, 3] =
      .ok [8, 0, 0, 0, 0, 7, 0, 1, 1, 2] := rfl

/-- An ICMP probe of size `INT_MAX` with a pattern of `2^30` bytes: the first copy lands at
offset 8, the index becomes `2^30 + 8`, still below the packet size, and the second
`i += pattern_len` passes `INT_MAX`. -/
theorem initPacketData_overflow_half {family ident : Int} {probe : ProbeContext}
    {pattern : List UInt8} (hicmp : probe.probeType = .icmp) (hL : pattern.length = 2 ^ 30) :
    initPacketData family ident probe 2147483647 pattern = .error .intOverflow := by
  simp only [initPacketData, hicmp, if_true, true_and, icmpHeaderSize, hL, Int.reduceLT, if_false,
    resizeEmpty_of_nonneg (by decide : (0 : Int) ≤ 2147483647) (by decide), bind, Except.bind,
    if_pos (by decide : 0 < 2 ^ 30)]
  rw [show (2147483647 - 8 : Int).toNat = 2147483637 + 1 + 1 from rfl,
    fillLoop_step (by decide) (by rw [hL]; decide), fillLoop_overflow (by rw [hL]; decide)
      (by rw [hL]; decide)]

theorem fill_index_overflows :
    initPacketData afInet 7 { probeType := .icmp } 2147483647 (List.replicate (2 ^ 30) 97) =
      .error .intOverflow :=
  initPacketData_overflow_half rfl (List.length_replicate ..)

end Icmpenguin
