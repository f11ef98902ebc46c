import Icee.Core.Basic
import Icee.Lib.Search

set_option relaxedAutoImplicit false
set_option autoImplicit false

/-!
# Buffers and receiving

The parts of `src/core/buffer.cc` and `src/core/connection.cc` that bring bytes from the network
into the read buffer of a connection and take frames out of it.

## Main definitions

* `Icee.Buffer.append`, `Icee.Buffer.findAndPopTill` — the read buffer.
* `Icee.RecvResult` — what one call of `recv` gives back.
* `Icee.Connection.recv` — the loop of `Connection::Recv`.
* `Icee.Drains` — the readiness events after which the connection goes on, with their bytes.

## Main results

* `Icee.Drains.recv` — such an event appends its bytes to the read buffer.

## Design

A readiness event is the list of results of the successive `recv` calls. A list that has come to
its end stands for a socket with nothing more to read, as if `EAGAIN` came next.
-/

namespace Icee

namespace Buffer

/-- What each overload of `Buffer::Append` does with the bytes that it is given. -/
def append (buf newData : Bytes) : Bytes := buf ++ newData

/-- `Buffer::FindAndPopTill`: what is popped, if the target occurs, and the buffer afterwards. -/
def findAndPopTill (buf target : Bytes) : Option Bytes × Bytes :=
  match Search.leftmost target buf with
  | none => (none, buf)
  | some pos => (some (buf.take (pos + target.length)), buf.drop (pos + target.length))

/-- Popping cuts the buffer behind the first occurrence of the target. -/
lemma findAndPopTill_eq (buf target : Bytes) : findAndPopTill buf target =
    match Search.cut target buf with
    | none => (none, buf)
    | some (frame, rest) => (some frame, rest) := by
  unfold findAndPopTill Search.cut
  cases Search.leftmost target buf with
  | none => rfl
  | some pos => rfl

/-- What is popped has been cut off. -/
lemma cut_of_findAndPopTill {buf target frame rest : Bytes}
    (h : findAndPopTill buf target = (some frame, rest)) :
    Search.cut target buf = some (frame, rest) := by
  rw [findAndPopTill_eq] at h
  cases hcut : Search.cut target buf with
  | none => rw [hcut] at h; cases h
  | some p =>
    rw [hcut] at h
    cases h
    rfl

end Buffer

/-- `TEMP_BUF_SIZE`. -/
def tempBufSize : ℕ := 2048

/-- The values of `errno` that the code tells apart. -/
inductive Errno
  | eintr
  | eagain
  | ewouldblock
  | other
  deriving DecidableEq, Repr

/-- What one call of `recv` gives back: some bytes, as many as fit in the temporary buffer, the
end of the stream, or an error. -/
inductive RecvResult
  | data (chunk : Bytes) (size : 0 < chunk.length ∧ chunk.length ≤ tempBufSize)
  | eof
  | error (errno : Errno)
  deriving DecidableEq

namespace Connection

/-- The loop of `Connection::Recv`: the read buffer, the number of bytes read, and whether the
client has left. -/
def recv : List RecvResult → Bytes → ℕ → Bytes × ℕ × Bool
  | [], readBuffer, recvBytes => (readBuffer, recvBytes, false)
  | .data chunk _ :: results, readBuffer, recvBytes =>
    recv results (Buffer.append readBuffer chunk) (recvBytes + chunk.length)
  | .eof :: _, readBuffer, recvBytes => (readBuffer, recvBytes, true)
  | .error .eintr :: results, readBuffer, recvBytes => recv results readBuffer recvBytes
  | .error .eagain :: _, readBuffer, recvBytes => (readBuffer, recvBytes, false)
  | .error .ewouldblock :: _, readBuffer, recvBytes => (readBuffer, recvBytes, false)
  | .error .other :: _, readBuffer, recvBytes => (readBuffer, recvBytes, true)

end Connection

/-- The event hands over the given bytes and ends because there is nothing more to read: neither
the end of the stream nor a fatal error is met. -/
inductive Drains : List RecvResult → Bytes → Prop
  | eagain : Drains [.error .eagain] []
  | ewouldblock : Drains [.error .ewouldblock] []
  | eintr {results : List RecvResult} {m : Bytes} :
    Drains results m → Drains (.error .eintr :: results) m
  | data {results : List RecvResult} {m chunk : Bytes}
    (size : 0 < chunk.length ∧ chunk.length ≤ tempBufSize) :
    Drains results m → Drains (.data chunk size :: results) (chunk ++ m)

/-- **Draining** appends the bytes of the event to the read buffer and reports no exit. -/
lemma Drains.recv {event : List RecvResult} {m : Bytes} (h : Drains event m) :
    ∀ (readBuffer : Bytes) (recvBytes : ℕ),
      Connection.recv event readBuffer recvBytes =
        (readBuffer ++ m, recvBytes + m.length, false) := by
  induction h with
  | eagain => intro readBuffer recvBytes; simp [Connection.recv]
  | ewouldblock => intro readBuffer recvBytes; simp [Connection.recv]
  | eintr _ ih => intro readBuffer recvBytes; exact ih readBuffer recvBytes
  | data size _ ih =>
    intro readBuffer recvBytes
    simp only [Connection.recv, Buffer.append, ih, List.length_append, List.append_assoc,
      Nat.add_assoc]

end Icee
