import Mathlib.Data.List.Basic

/-!
# The TCP receive buffer of a proxy connection

`ScreenMgr::EventOnTcpRead` (Monitor/Monitor/ScreenMgr.cpp:587-649) appends
one `recv` to `AvsProxy::tcp_storage_` and then cuts frames off its front:
the first two bytes are read as a big-endian length, `TcpParamScene` is
called on every frame that is complete, and what is left is moved to the
front of the buffer.

`tcp_storage_` is a list of exactly `MAX_STORAGE_SIZE` bytes (`Storage`
carries the size), so bytes beyond `tcp_storage_offset_` keep whatever an
earlier frame, or the allocator, left there. Lengths and the offset are
`pj_uint16_t`; `u16` marks where the code narrows. The `do … while (1)` loop
takes a fuel argument; `none` says that the fuel ran out.
-/
namespace MonitorAgent.L1.TcpStorage

/-- mirrors Monitor/Monitor/command.h:4 -/
def MAX_STORAGE_SIZE : Nat := 1024

/-- Narrowing to `pj_uint16_t`. -/
def u16 (n : Nat) : Nat := n % 65536

/-- `tcp_storage_`. mirrors Monitor/Monitor/AvsProxy.h:58 -/
structure Storage where
  bytes : List UInt8
  size : bytes.length = MAX_STORAGE_SIZE

namespace Storage

def fill (b : UInt8) : Storage := ⟨List.replicate MAX_STORAGE_SIZE b, by simp⟩

def byte (t : Storage) (i : Nat) : UInt8 := t.bytes.getD i 0

/-- `ntohs(*(pj_uint16_t *)tcp_storage_)`. -/
def packetLen (t : Storage) : Nat := (t.byte 0).toNat * 256 + (t.byte 1).toNat

/-- `recv` into the buffer at `off`: no byte past the end is written. -/
def recv (t : Storage) (off : Nat) (data : List UInt8) : Storage where
  bytes := t.bytes.take off ++
    (data.take (MAX_STORAGE_SIZE - off) ++ t.bytes.drop (off + data.length))
  size := by
    have := t.size
    simp only [List.length_append, List.length_take, List.length_drop, this]; omega

/-- `memcpy(tcp_storage_, tcp_storage_ + src, n)`, moving bytes as `memmove`. -/
def moveToFront (t : Storage) (src n : Nat) : Storage where
  bytes := (t.bytes.drop src).take n ++ t.bytes.drop (min n (MAX_STORAGE_SIZE - src))
  size := by
    have := t.size
    simp only [List.length_append, List.length_take, List.length_drop, this]; omega

end Storage

/-- The part of an `AvsProxy` that `EventOnTcpRead` works on. `frames` logs
the calls `TcpParamScene(tcp_storage_, total_len)`, `closed` that the
connection-closed branch was taken. -/
structure Conn where
  storage : Storage
  offset : Nat
  frames : List (List UInt8)
  closed : Bool

/-- The bytes received and not yet cut off. -/
def Conn.buffered (s : Conn) : List UInt8 := s.storage.bytes.take s.offset

/-- One pass of the `do … while (1)` body; `true` is `break`.
mirrors Monitor/Monitor/ScreenMgr.cpp:604-634 -/
def frameStep (s : Conn) : Conn × Bool :=
  let totalLen := u16 (s.storage.packetLen + 2)
  if totalLen > MAX_STORAGE_SIZE then ({ s with offset := 0 }, true)
  else if totalLen > s.offset then (s, true)
  else
    let rest := s.offset - totalLen
    let s' := { s with offset := rest, frames := s.frames ++ [s.storage.bytes.take totalLen] }
    if rest > 0 then ({ s' with storage := s.storage.moveToFront totalLen rest }, false)
    else (s', true)

def frameLoop : Nat → Conn → Option Conn
  | 0, _ => none
  | n + 1, s =>
    match frameStep s with
    | (s', true) => some s'
    | (s', false) => frameLoop n s'

/-- One read event; `avail` is what the socket holds, of which `recv` takes
at most what was asked for.
mirrors Monitor/Monitor/ScreenMgr.cpp:587-649 -/
def eventOnTcpRead (s : Conn) (avail : List UInt8) : Option Conn :=
  let data := avail.take (MAX_STORAGE_SIZE - s.offset)
  if data.length > 0 then
    frameLoop (MAX_STORAGE_SIZE + 1)
      { s with storage := s.storage.recv s.offset data, offset := u16 (s.offset + u16 data.length) }
  else some { s with closed := true }

/-- The read events for a list of `recv` results. -/
def events (s : Conn) : List (List UInt8) → Option Conn
  | [] => some s
  | c :: cs => (eventOnTcpRead s c).bind fun s' => events s' cs

/-! ## The buffer's bytes -/

namespace Storage

theorem take_recv (t : Storage) (off : Nat) (data : List UInt8)
    (h : off + data.length ≤ MAX_STORAGE_SIZE) :
    (t.recv off data).bytes.take (off + data.length) = t.bytes.take off ++ data := by
  have hs := t.size
  have hd : data.take (MAX_STORAGE_SIZE - off) = data := List.take_of_length_le (by omega)
  have hl : (t.bytes.take off ++ data).length = off + data.length := by
    simp only [List.length_append, List.length_take]; omega
  simp only [recv, hd, ← List.append_assoc]
  exact List.take_left' hl

theorem byte_recv_of_le (t : Storage) (off i : Nat) (data : List UInt8)
    (h : off + data.length ≤ MAX_STORAGE_SIZE) (hi : off + data.length ≤ i) :
    (t.recv off data).byte i = t.byte i := by
  have hs := t.size
  have hd : data.take (MAX_STORAGE_SIZE - off) = data := List.take_of_length_le (by omega)
  have hl : (t.bytes.take off ++ data).length = off + data.length := by
    simp only [List.length_append, List.length_take]; omega
  simp only [byte, recv, hd, ← List.append_assoc, List.getD_eq_getElem?_getD]
  rw [List.getElem?_append_right (by omega), List.getElem?_drop, hl,
    show off + data.length + (i - (off + data.length)) = i by omega]

theorem take_moveToFront (t : Storage) (src n : Nat) (h : src + n ≤ MAX_STORAGE_SIZE) :
    (t.moveToFront src n).bytes.take n = (t.bytes.drop src).take n := by
  have hs := t.size
  exact List.take_left' (by simp only [List.length_take, List.length_drop]; omega)

theorem byte_moveToFront_of_le (t : Storage) (src n i : Nat) (h : src + n ≤ MAX_STORAGE_SIZE)
    (hi : n ≤ i) : (t.moveToFront src n).byte i = t.byte i := by
  have hs := t.size
  have hl : ((t.bytes.drop src).take n).length = n := by
    simp only [List.length_take, List.length_drop]; omega
  simp only [byte, moveToFront, List.getD_eq_getElem?_getD]
  rw [List.getElem?_append_right (by omega), List.getElem?_drop, hl,
    show min n (MAX_STORAGE_SIZE - src) + (i - n) = i by omega]

/-- A byte below the offset is a byte of what is buffered. -/
theorem byte_of_take (t : Storage) (n i : Nat) (hi : i < n) :
    t.byte i = (t.bytes.take n).getD i 0 := by
  simp only [byte, List.getD_eq_getElem?_getD, List.getElem?_take, if_pos hi]

end Storage

theorem buffered_length (s : Conn) (h : s.offset ≤ MAX_STORAGE_SIZE) :
    s.buffered.length = s.offset := by
  simp only [Conn.buffered, List.length_take, s.storage.size]; omega

end MonitorAgent.L1.TcpStorage
