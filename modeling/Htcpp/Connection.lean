import Htcpp.StringView

/-!
# The `Connection` contract both sessions rely on

`tcp.hpp` and `ioqueue.hpp`, which implement connections, are not among the
sources; the sessions see them only through their completions. A recv fills
the front of the buffer it was given and reports how many bytes it wrote, at
most the length asked for; a send reports how many bytes went out, at most the
length given; an error comes as an `errno` value.
-/

namespace Htcpp

open Htcpp.StringView

/-- An `errno` value carried by a `std::error_code`. -/
abbrev Errno := Nat

/-- The buffer after a completed recv has written `data` at `offset`. -/
def writeAt (buf : Bytes) (offset : Nat) (data : Bytes) : Bytes :=
  buf.take offset ++ data ++ buf.drop (offset + data.length)

/-- A recv into the last `recvLen` bytes of a buffer, after which the buffer
is cut back to the end of what was delivered, leaves the bytes before the
offset followed by exactly the delivered bytes. -/
theorem resize_writeAt {buf data : Bytes} {offset recvLen : Nat}
    (hlen : buf.length = offset + recvLen) :
    resize (writeAt buf offset data) (buf.length - recvLen + data.length) = buf.take offset ++ data := by
  have hoff : (buf.take offset ++ data).length = offset + data.length := by simp; omega
  rw [resize_of_le (by simp only [writeAt, List.length_append, List.length_drop] at hoff ⊢; omega),
    writeAt, hlen, Nat.add_sub_cancel, List.take_left' hoff]

/-- A completion respects the contract of `Connection`: a recv delivers at
most the bytes asked for, a send reports at most the bytes given. -/
def fitsRecv (len : Nat) : Except Errno Bytes → Bool
  | .ok data => data.length ≤ len
  | .error _ => true

/-- See `fitsRecv`. -/
def fitsSend (len : Nat) : Except Errno Nat → Bool
  | .ok n => n ≤ len
  | .error _ => true

end Htcpp
