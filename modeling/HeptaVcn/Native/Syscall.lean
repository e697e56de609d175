import HeptaVcn.Machine.Program
import HeptaVcn.Native.Libevent

/-!
# System calls of the native code

The operations the C++ code of both ends performs, as an interface for programs,
and the helpers both ends share: 32-bit integers on a byte stream, `read_int`,
`write_int` and the `ERR_EXIT` macro.
-/

namespace HeptaVcn

open Machine

/-- A C `int`. -/
abbrev CInt := BitVec 32

/-- The four bytes of an `int` in memory, least significant first. -/
def intBytes (v : CInt) : List UInt8 :=
  [v.toNat, v.toNat / 256, v.toNat / 65536, v.toNat / 16777216].map UInt8.ofNat

/-- The `int` stored in the given bytes. -/
def intOfBytes (bytes : List UInt8) : CInt :=
  BitVec.ofNat 32 (bytes.foldr (fun b n => b.toNat + 256 * n) 0)

/-- An `int` has four bytes. -/
@[simp] theorem length_intBytes (v : CInt) : (intBytes v).length = 4 := rfl

/-- Reading back the four bytes of an `int` gives the `int`. -/
@[simp] theorem intOfBytes_intBytes (v : CInt) : intOfBytes (intBytes v) = v := by
  apply BitVec.eq_of_toNat_eq
  have h := v.isLt
  simp only [intOfBytes, intBytes, List.map_cons, List.map_nil, List.foldr_cons, List.foldr_nil,
    UInt8.toNat_ofNat', BitVec.toNat_ofNat]
  omega

/-- Four bytes are the bytes of the `int` they store. -/
theorem intBytes_intOfBytes {bytes : List UInt8} (h : bytes.length = 4) :
    intBytes (intOfBytes bytes) = bytes := by
  match bytes, h with
  | [a, b, c, d], _ =>
    have ha := a.toNat_lt
    have hb := b.toNat_lt
    have hc := c.toNat_lt
    have hd := d.toNat_lt
    simp only [intOfBytes, intBytes, List.map_cons, List.map_nil, List.foldr_cons, List.foldr_nil,
      BitVec.toNat_ofNat, List.cons.injEq, and_true, ← UInt8.toNat_inj, UInt8.toNat_ofNat']
    omega

/-- A `struct sockaddr_in` of family `AF_INET`, in host byte order. -/
structure SockAddrIn where
  sinAddr : BitVec 32
  sinPort : BitVec 16
  deriving DecidableEq, Repr

/-- `htons` keeps the low sixteen bits of its argument. -/
def htons (port : CInt) : BitVec 16 := port.setWidth 16

inductive SocketType where
  | stream
  | dgram
  deriving DecidableEq, Repr

/-- The calls the native code makes. A descriptor is an integer, and a call that
fails replies `-1`, as in C; `read` and `recvfrom` then reply `none`. -/
inductive Syscall where
  | open (path : String)
  | ioctl (fd : ℤ) (name : String)
  | socket (type : SocketType)
  | connect (fd : ℤ) (addr : SockAddrIn)
  | bind (fd : ℤ) (addr : SockAddrIn)
  | listen (fd : ℤ) (backlog : ℕ)
  | accept (fd : ℤ)
  | read (fd : ℤ) (len : ℕ)
  | write (fd : ℤ) (bytes : List UInt8)
  | recvfrom (fd : ℤ) (len : ℕ)
  | shutdown (fd : ℤ)
  | close (fd : ℤ)
  | rand
  /-- `system("netstat -an | grep :port > /dev/null")` -/
  | netstat (port : CInt)
  | fork
  | exit (status : ℤ)
  /-- `while (1)` goes round once more than the model unrolls it. -/
  | spin
  | log (message : String)
  /-- Assignment to and use of the global `tcp_control_sock_fd`. -/
  | setControlSock (fd : ℤ)
  | getControlSock
  | eventBaseDispatch (loop : EventLoop)
  deriving DecidableEq, Repr

/-- The reply to each call. -/
abbrev Syscall.Reply : Syscall → Type
  | .read .. => Option (List UInt8)
  | .recvfrom .. => Option (List UInt8 × SockAddrIn)
  | .rand => ℕ
  | .exit _ | .spin => Empty
  | .log _ | .setControlSock _ => Unit
  | _ => ℤ

/-- The interface of the operating system and of libevent. -/
abbrev Sys : Interface := ⟨Syscall, Syscall.Reply⟩

instance : DecidableEq Sys.Op := inferInstanceAs (DecidableEq Syscall)

/-- Perform one call. -/
def sys (op : Syscall) : Program Sys op.Reply := Program.perform (E := Sys) op

/-- `perror(m)` followed by `exit(status)`. -/
def perrorExit {α : Type} (m : String) (status : ℤ) : Program Sys α := do
  sys (.log m)
  let impossible ← sys (.exit status)
  nomatch impossible

/-- `ERR_EXIT(m)`: print the error and `exit(EXIT_FAILURE)`. -/
def errExit {α : Type} (m : String) : Program Sys α := perrorExit m 1

/-- `read_int`: one `read`, and anything but four bytes is fatal. -/
def readInt (fd : ℤ) : Program Sys CInt := do
  let val ← sys (.read fd 4)
  match val with
  | some bytes => if bytes.length ≠ 4 then errExit "unable to read_int" else pure (intOfBytes bytes)
  | none => errExit "unable to read_int"

/-- `write_int`: one `write`, and anything but four bytes written is fatal. -/
def writeInt (fd : ℤ) (val : CInt) : Program Sys Unit := do
  let written ← sys (.write fd (intBytes val))
  if written ≠ 4 then errExit "unable to write int"

end HeptaVcn
