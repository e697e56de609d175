import Mathlib.Data.List.DropRight
import Mathlib.Data.Vector.Basic
import HeptaVcn.Machine.Failing

/-!
# What the SOCKS5 client uses of Go

Texts are byte lists. The library functions on texts follow their documentation, and
the network is an interface: every call may fail, and its replies are the environment's
choice. `net.ParseIP` and `net.IP.String` are parameters.
-/

namespace HeptaVcn.Socks5

open Machine

/-- A Go `string` or `[]byte`. -/
abbrev Bytes := List UInt8

/-- The bytes of an ASCII text. -/
def ascii (s : String) : Bytes := s.toList.map fun c => UInt8.ofNat c.toNat

/-- How a function ends without a value: an error of the client, under its text, an error of
the library, or a panic, which nothing here recovers from. -/
inductive GoError where
  /-- `ErrVersion` and the one of the same text, `Invalid Version` -/
  | version
  /-- `ErrBadReply`, `Bad Reply` -/
  | badReply
  /-- `ErrBadRequest`, `Bad Request` -/
  | badRequest
  /-- `Unsupport method` -/
  | method
  /-- `Host unreachable` -/
  | unreachable
  /-- `unsupport network` -/
  | network
  /-- The error of `net.SplitHostPort`. -/
  | address
  /-- `io.EOF` -/
  | eof
  /-- `io.ErrUnexpectedEOF` -/
  | unexpectedEOF
  /-- `not write full` -/
  | notWriteFull
  /-- An error of the operating system. -/
  | os (errno : ℕ)
  /-- An index or a slice is out of range, or an interface value is nil. -/
  | panic
  deriving DecidableEq, Repr

/-- A non-nil `net.IP` in its sixteen-byte form. -/
structure IP where
  bytes : Bytes
  length_eq : bytes.length = 16
  deriving DecidableEq

/-- What an IPv4 address starts with in its sixteen-byte form. -/
def v4InV6Prefix : Bytes := [0, 0, 0, 0, 0, 0, 0, 0, 0, 0, 0xff, 0xff]

/-- The functions of `net` that are not modelled. -/
structure NetLib where
  parseIP : Bytes → Option IP
  ipString : Bytes → Bytes

/-- `IP.To4` -/
def IP.to4 (ip : IP) : Option Bytes :=
  if ip.bytes.take 12 = v4InV6Prefix then some (ip.bytes.drop 12) else none

/-- `net.SplitHostPort` -/
def splitHostPort (hostport : Bytes) : Option (Bytes × Bytes) :=
  let colon : UInt8 := 58
  let opening : UInt8 := 91
  let closing : UInt8 := 93
  let port := hostport.rtakeWhile (· ≠ colon)
  let before := (hostport.rdropWhile (· ≠ colon)).dropLast
  if colon ∉ hostport then none
  else match hostport with
    | 91 :: rest =>
      let host := rest.takeWhile (· ≠ closing)
      -- the first `]` must stand right before the last `:`
      if before = opening :: host ++ [closing] ∧ opening ∉ rest ∧ closing ∉ port then
        some (host, port)
      else none
    | _ =>
      if colon ∈ before ∨ opening ∈ hostport ∨ closing ∈ hostport then none
      else some (before, port)

/-- The loop of `strconv.ParseUint` from the value read so far. It stops at a byte that is no
digit, without a value, or as soon as the value needs more than 64 bits, with the largest. -/
def parseUintFrom (n : ℕ) : Bytes → Option ℕ
  | [] => some n
  | b :: rest =>
    if 48 ≤ b ∧ b ≤ 57 then
      if 18446744073709551615 < 10 * n + (b.toNat - 48) then some 18446744073709551615
      else parseUintFrom (10 * n + (b.toNat - 48)) rest
    else none

/-- `strconv.ParseUint` in base ten: an empty text is no number. -/
def parseUint (digits : Bytes) : Option ℕ :=
  if digits = [] then none else parseUintFrom 0 digits

/-- `strconv.Atoi` on 64 bits: the number and whether there was no error. A text that is
not a number gives zero, and a number out of range the nearest one. -/
def atoi (s : Bytes) : ℤ × Bool :=
  let n : Option ℤ := match s with
    | 45 :: digits => (parseUint digits).map fun n => -(n : ℤ)
    | 43 :: digits => (parseUint digits).map fun n => (n : ℤ)
    | digits => (parseUint digits).map fun n => (n : ℤ)
  match n with
  | none => (0, false)
  | some n =>
    if n < -9223372036854775808 then (-9223372036854775808, false)
    else if 9223372036854775807 < n then (9223372036854775807, false)
    else (n, true)

/-- `binary.BigEndian.PutUint16` of `uint16(i)` -/
def putUint16 (i : ℤ) : Bytes :=
  let n := (i % 65536).toNat
  [UInt8.ofNat (n / 256), UInt8.ofNat n]

/-- `binary.BigEndian.Uint16` -/
def uint16 (hi lo : UInt8) : ℕ := hi.toNat * 256 + lo.toNat

/-- `strconv.Itoa` of a natural number -/
def itoa (n : ℕ) : Bytes := (Nat.toDigits 10 n).map fun c => UInt8.ofNat c.toNat

/-- `net.JoinHostPort` -/
def joinHostPort (host port : Bytes) : Bytes :=
  if (58 : UInt8) ∈ host then ascii "[" ++ host ++ ascii "]:" ++ port
  else host ++ ascii ":" ++ port

/-! ## The network -/

/-- The calls of the client; connections are known by number. -/
inductive NetOp where
  /-- `net.ResolveTCPAddr`, with the text of the address found -/
  | resolveTCPAddr (address : Bytes)
  | dialTCP (laddr raddr : Bytes)
  | dialUDP (laddr raddr : Bytes)
  /-- `SetDeadline` so many seconds from now -/
  | setDeadline (conn : ℕ) (seconds : ℤ)
  /-- The text of `LocalAddr` -/
  | localAddr (conn : ℕ)
  | write (conn : ℕ) (bytes : Bytes)
  /-- One `Read` into a buffer of this length -/
  | read (conn : ℕ) (len : ℕ)
  /-- `io.ReadFull` of a buffer of this length -/
  | readFull (conn : ℕ) (len : ℕ)
  | close (conn : ℕ)
  deriving DecidableEq

/-- The reply to each call; `io.ReadFull` either fails or fills the buffer. -/
abbrev NetOp.Reply : NetOp → Type
  | .resolveTCPAddr _ => Except GoError Bytes
  | .dialTCP .. | .dialUDP .. => Except GoError ℕ
  | .setDeadline .. | .close _ => Except GoError Unit
  | .localAddr _ => Bytes
  | .write .. => Except GoError ℕ
  | .read .. => Except GoError Bytes
  | .readFull _ len => Except GoError (List.Vector UInt8 len)

/-- The interface of the network. -/
abbrev Net : Interface := ⟨NetOp, NetOp.Reply⟩

/-- A function of the client: it returns a value or an error. -/
abbrev Go (α : Type) := Failing Net GoError α

/-- Perform one call. -/
def net (op : NetOp) : Program Net op.Reply := Program.perform (E := Net) op

end HeptaVcn.Socks5
