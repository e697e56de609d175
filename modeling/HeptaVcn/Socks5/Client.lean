import HeptaVcn.Socks5.Packets

/-!
# The SOCKS5 client, `Client.go`

Dialling through a proxy: negotiate a method, send one request, read its reply. What
follows on a connection that was dialled over TCP is the destination's data.
-/

namespace HeptaVcn.Socks5

open Machine

/-- `Client` -/
structure Client where
  server : Bytes
  userName : Bytes
  password : Bytes
  tcpConn : Option ℕ
  udpConn : Option ℕ
  remoteAddress : Option Bytes
  tcpTimeout : ℤ
  udpTimeout : ℤ
  dst : Bytes
  deriving DecidableEq

/-- `NewClient` -/
def newClient (addr username password : Bytes) (tcpTimeout udpTimeout : ℤ) : Client :=
  ⟨addr, username, password, none, none, none, tcpTimeout, udpTimeout, []⟩

namespace Client

/-- The only method that the client offers. -/
def method (c : Client) : UInt8 :=
  if c.userName ≠ [] ∧ c.password ≠ [] then methodUsernamePassword else methodNone

/-- A timeout that is not zero is set as the deadline of a connection. -/
def setTimeout (conn : ℕ) (seconds : ℤ) : Go Unit :=
  if seconds ≠ 0 then .attempt (net (.setDeadline conn seconds)) else pure ()

/-- `Negotiate`; the result is the number of the connection, also kept in `TCPConn`. -/
def negotiate (c : Client) (laddr : Option Bytes) : Go ℕ := do
  let src := laddr.getD []
  let tcpConn ← .attempt (net (.dialTCP src c.server))
  setTimeout tcpConn c.tcpTimeout
  let m := c.method
  let _ ← .attempt (net (.write tcpConn (negotiationRequest [m])))
  let rp ← newNegotiationReplyFrom tcpConn
  if rp.method ≠ m then
    throw .method
  else
    pure tcpConn

/-- `Request` -/
def request (tcpConn : ℕ) (r : Request) : Go Reply := do
  let _ ← .attempt (net (.write tcpConn r.bytes))
  let rp ← newReplyFrom tcpConn
  if rp.rep ≠ repSuccess then
    throw .unreachable
  else
    pure rp

/-- Both networks parse an address, strip the length of a name and request. -/
def requestAddress (lib : NetLib) (tcpConn : ℕ) (cmd : UInt8) (address : Bytes) : Go Reply := do
  let (a, h, p) ← .attempt (pure (parseAddress lib address))
  let h := if a = atypDomain then h.drop 1 else h
  request tcpConn (newRequest cmd a h p)

/-- The local address to dial from, if one was given. -/
def resolveSrc (src : Bytes) : Go (Option Bytes) := do
  if src ≠ [] then
    let laddr ← .attempt (net (.resolveTCPAddr src))
    pure (some laddr)
  else
    pure none

/-- `DialWithLocalAddr` -/
def dialWithLocalAddr (lib : NetLib) (c : Client) (network src dst : Bytes)
    (remoteAddr : Option Bytes) : Go Client := do
  let c := { c with dst := dst, remoteAddress := remoteAddr, tcpConn := none, udpConn := none }
  if network = ascii "tcp" then
    let laddr ← resolveSrc src
    let tcpConn ← c.negotiate laddr
    let _ ← requestAddress lib tcpConn cmdConnect dst
    pure { c with tcpConn := some tcpConn }
  else if network = ascii "udp" then
    let laddr ← resolveSrc src
    let tcpConn ← c.negotiate laddr
    let src ← net (.localAddr tcpConn)
    let rp ← requestAddress lib tcpConn cmdUDP src
    let udpConn ← .attempt (net (.dialUDP src (rp.address lib)))
    setTimeout udpConn c.udpTimeout
    pure { c with tcpConn := some tcpConn, udpConn := some udpConn }
  else
    throw .network

/-- `Dial` -/
def dial (lib : NetLib) (c : Client) (network addr : Bytes) : Go Client :=
  c.dialWithLocalAddr lib network [] addr none

/-- `Read` into a buffer of the given length; the result is what it puts there. Without a
connection the interface value is nil. -/
def read (c : Client) (len : ℕ) : Go Bytes := do
  match c.udpConn with
  | none =>
    match c.tcpConn with
    | none => throw .panic
    | some tcpConn => .attempt (net (.read tcpConn len))
  | some udpConn =>
    let b ← .attempt (net (.read udpConn len))
    let d ← newDatagramFromBytes b
    pure (d.data.take len)

end Client

end HeptaVcn.Socks5
