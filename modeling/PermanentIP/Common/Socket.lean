import Mathlib.Algebra.Group.Nat.Defs
import PermanentIP.Common.Types

/-!
# Datagram sockets

What the programs use of UDP: a receive queue in arrival order, `recvfrom`
with and without `MSG_PEEK` on a non-blocking socket, and `sendto`. A socket
may also hold a pending error (the network's answer to an earlier send), which
the next receive reports and clears.

`recvfrom` takes the length of the address buffer in and hands it back out,
and the programs do not always set it first; so the copy of the source address
is modelled byte by byte, `copyAddr`, rather than assumed to be whole.
-/

namespace PermanentIP

/-- A datagram in a receive queue: where it came from and what it carries. -/
structure Packet where
  src : SockAddr
  payload : Bytes
deriving DecidableEq, Repr

/-- A datagram handed to the network, and the descriptor it went out on. -/
structure Sent where
  sock : Int
  dst : SockAddr
  payload : Bytes
deriving DecidableEq, Repr

/-- The values of `errno` a receive can leave, as far as anything tells them
apart. `EAGAIN` and `EWOULDBLOCK` are one value on Linux. -/
inductive Errno where
  | again
  | inval
  | other (code : Nat)
deriving DecidableEq, Repr

structure Socket where
  queue : List Packet
  soError : Option Errno
deriving DecidableEq, Repr

/-- What a receive returned, and the memory and the socket it left behind.
`data` is what it stored at the front of the caller's buffer. -/
structure Received where
  bytesRead : Int
  data : Bytes
  errno : Errno
  addr : SockAddr
  addrLen : Int32
  socket : Socket

/-- `sizeof(struct sockaddr_in)` -/
def sizeofSockAddr : Int32 := 16

/-- `new` over the lowest `k` bytes of `old`, little-endian. -/
def graft (k old new : Nat) : Nat :=
  new % 256 ^ k + old / 256 ^ k * 256 ^ k

/-- The first `len` bytes of `new` over those of `old`: family, port, address,
in the order `sockaddr_in` lays them out. -/
def copyAddr (len : Nat) (old new : SockAddr) : SockAddr where
  sinFamily :=
    UInt16.ofNat (graft (min len 2) old.sinFamily.toNat new.sinFamily.toNat)
  sinPort :=
    UInt16.ofNat (graft (min (len - 2) 2) old.sinPort.toNat new.sinPort.toNat)
  sinAddr :=
    UInt32.ofNat (graft (min (len - 4) 4) old.sinAddr.toNat new.sinAddr.toNat)

theorem copyAddr_of_le {len : Nat} (h : 8 ≤ len) (old new : SockAddr) :
    copyAddr len old new = new := by
  have h2 : min len 2 = 2 := by omega
  have h4 : min (len - 2) 2 = 2 := by omega
  have h8 : min (len - 4) 4 = 4 := by omega
  have hf : graft 2 old.sinFamily.toNat new.sinFamily.toNat =
      new.sinFamily.toNat := by
    have ho := old.sinFamily.toNat_lt
    have hn := new.sinFamily.toNat_lt
    unfold graft
    omega
  have hp : graft 2 old.sinPort.toNat new.sinPort.toNat =
      new.sinPort.toNat := by
    have ho := old.sinPort.toNat_lt
    have hn := new.sinPort.toNat_lt
    unfold graft
    omega
  have ha : graft 4 old.sinAddr.toNat new.sinAddr.toNat =
      new.sinAddr.toNat := by
    have ho := old.sinAddr.toNat_lt
    have hn := new.sinAddr.toNat_lt
    unfold graft
    omega
  simp only [copyAddr, h2, h4, h8, hf, hp, ha, UInt16.ofNat_toNat,
    UInt32.ofNat_toNat]

def Received.failed (e : Errno) (addr : SockAddr) (addrLen : Int32)
    (s : Socket) : Received :=
  { bytesRead := -1, data := [], errno := e, addr := addr,
    addrLen := addrLen, socket := s }

/-- `recvfrom(s, buffer, size, peek ? MSG_PEEK : 0, &addr, &addrLen)` on a
non-blocking socket. A datagram longer than the buffer loses its tail; a
negative address length is refused after the datagram was taken. -/
def recvfrom (s : Socket) (peek : Bool) (size : Nat) (addr : SockAddr)
    (addrLen : Int32) : Received :=
  match s.soError with
  | some e => .failed e addr addrLen { s with soError := none }
  | none =>
      match s.queue with
      | [] => .failed .again addr addrLen s
      | p :: rest =>
          let s' := if peek then s else { s with queue := rest }
          if addrLen.toInt < 0 then .failed .inval addr addrLen s'
          else
            { bytesRead := (p.payload.take size).length
              data := p.payload.take size
              errno := .again
              addr := copyAddr addrLen.toInt.toNat addr p.src
              addrLen := sizeofSockAddr
              socket := s' }

theorem le_sizeofSockAddr : 8 ≤ sizeofSockAddr.toInt := by decide

/-- A length that is not negative lets as much of the source address over. -/
theorem recvfrom_of_nonneg (p : Packet) (rest : List Packet) (peek : Bool)
    (size : Nat) (addr : SockAddr) {addrLen : Int32} (h : 0 ≤ addrLen.toInt) :
    recvfrom ⟨p :: rest, none⟩ peek size addr addrLen =
      { bytesRead := (p.payload.take size).length
        data := p.payload.take size
        errno := .again
        addr := copyAddr addrLen.toInt.toNat addr p.src
        addrLen := sizeofSockAddr
        socket := ⟨if peek then p :: rest else rest, none⟩ } := by
  have hlen : ¬ addrLen.toInt < 0 := by omega
  cases peek <;>
    simp only [recvfrom, if_neg hlen, if_true, if_false, Bool.false_eq_true]

/-- With room for the whole source address a receive brings it over whole. -/
theorem recvfrom_cons (p : Packet) (rest : List Packet) (peek : Bool)
    (size : Nat) (addr : SockAddr) {addrLen : Int32} (h : 8 ≤ addrLen.toInt) :
    recvfrom ⟨p :: rest, none⟩ peek size addr addrLen =
      { bytesRead := (p.payload.take size).length
        data := p.payload.take size
        errno := .again
        addr := p.src
        addrLen := sizeofSockAddr
        socket := ⟨if peek then p :: rest else rest, none⟩ } := by
  rw [recvfrom_of_nonneg p rest peek size addr (by omega),
    copyAddr_of_le (by omega)]

theorem recvfrom_peek_socket {s : Socket} (h : s.soError = none) (size : Nat)
    (addr : SockAddr) (addrLen : Int32) :
    (recvfrom s true size addr addrLen).socket = s := by
  obtain ⟨queue, soError⟩ := s
  subst h
  cases queue with
  | nil => rfl
  | cons p rest =>
      simp only [recvfrom, if_true]
      split <;> rfl

theorem queue_recvfrom_peek (s : Socket) (size : Nat) (addr : SockAddr)
    (addrLen : Int32) :
    (recvfrom s true size addr addrLen).socket.queue = s.queue := by
  obtain ⟨queue, soError⟩ := s
  cases soError with
  | some e => rfl
  | none => rw [recvfrom_peek_socket rfl]

/-- `sendto`; on a descriptor that `socket` failed to open it sends nothing,
and no caller looks at its result. -/
def sendto (sock : Int) (payload : Bytes) (dst : SockAddr) : List Sent :=
  if sock < 0 then [] else [⟨sock, dst, payload⟩]

theorem dst_of_mem_sendto {sock : Int} {payload : Bytes} {dst : SockAddr}
    {d : Sent} (h : d ∈ sendto sock payload dst) : d.dst = dst := by
  rw [sendto] at h
  split at h
  · cases h
  · rw [List.mem_singleton] at h
    rw [h]

/-! ## The 4096-byte buffers every receive goes through -/

def bufferSize : Nat := 4096

/-- A receive into such a buffer counts no byte only if there is none. -/
theorem length_take_pos {data : Bytes} :
    (0 : Int) < ((data.take bufferSize).length : Int) ↔ data ≠ [] := by
  rw [List.length_take, bufferSize]
  cases data with
  | nil => simp
  | cons c cs => simp

/-- The buffer after `memset(buffer, 0, sizeof(buffer))`. -/
def zeroed : Bytes := List.replicate bufferSize 0

def store (data buffer : Bytes) : Bytes := data ++ buffer.drop data.length

/-- The string a receive into a zeroed buffer leaves there. -/
def Packet.text (p : Packet) : Bytes := cstr (p.payload.take bufferSize)

theorem cstr_append_zeros (data : Bytes) (k : Nat) :
    cstr (data ++ List.replicate k 0) = cstr data := by
  induction data with
  | nil =>
      cases k with
      | zero => rfl
      | succ k => simp [cstr, List.replicate_succ]
  | cons c data ih =>
      simp only [cstr, List.cons_append, List.takeWhile_cons] at ih ⊢
      split
      · rw [ih]
      · rfl

theorem cstr_store_zeroed (data : Bytes) : cstr (store data zeroed) = cstr data := by
  rw [store, zeroed, List.drop_replicate]
  exact cstr_append_zeros data _

/-- Receiving the same datagram twice, a peek and then the take, leaves the
buffer as the peek did. -/
theorem store_store (data buffer : Bytes) :
    store data (store data buffer) = store data buffer := by
  simp [store]

theorem text_of_lt {src : SockAddr} {data : Bytes} (hn : NulFree data)
    (hlen : data.length ≤ bufferSize) : Packet.text ⟨src, data⟩ = data := by
  rw [Packet.text, List.take_of_length_le hlen, cstr_eq_self hn]

theorem text_of_terminated {src : SockAddr} {s : Bytes} (hn : NulFree s)
    (hlen : s.length < bufferSize) : Packet.text ⟨src, s ++ [0]⟩ = s := by
  rw [Packet.text, List.take_of_length_le (by simp; omega),
    cstr_append_nul hn []]

end PermanentIP
