import HeptaVcn.Native.Syscall

/-!
# The tunnel server, `Tunnel_server.cpp`

The server allocates its TUN device, listens for control connections and forks a
child for each of them; the child does its half of the handshake and relays. The
two `while (1)` loops are unrolled a given number of times and then spin.
-/

namespace HeptaVcn.TunnelServer

open Machine

def tcpPort : CInt := 55540
def udpPort : CInt := 55550
def portStart : ℕ := 5000
def portEnd : ℕ := 50000
def inaddrAny : BitVec 32 := 0

/-- `__on_recv`: move everything read from one bufferevent to the output of the other. -/
def onRecv (read : Side) (l : EventLoop) : EventLoop :=
  let write := (l.bev read).ctx
  let src := (l.bev read).input
  (l.modify read fun b => { b with input := [] }).modify write fun b =>
    { b with output := b.output ++ src }

/-- `__on_error`: only prints; its `exit(0)` is commented out. -/
def onError (_bev : Side) (_what : Fault) (l : EventLoop) : EventLoop := l

/-- `__on_tcp_error`: only prints. -/
def onTcpError (l : EventLoop) : EventLoop := l

def callbacks : Callbacks := ⟨onRecv, onError, onTcpError⟩

/-- The event loop as `process` hands it to `event_base_dispatch`. -/
def eventLoop (udpSockfd tunFd : ℤ) : EventLoop where
  udpBufEv := (Bufferevent.new udpSockfd .tun).enableRead
  tunBufEv := (Bufferevent.new tunFd .udp).enableRead
  evTcp := true
  loopbreak := false
  tcpClosed := false
  tunClosed := false

/-- `tun_alloc` -/
def tunAlloc (dev : String) : Program Sys ℤ := do
  let fd ← sys (.open "/dev/net/tun")
  if fd < 0 then
    sys (.log "Opening /dev/net/tun")
    pure fd
  else
    let err ← sys (.ioctl fd dev)
    if err < 0 then
      sys (.log "ioctl(TUNSETIFF)")
      let _ ← sys (.close fd)
      pure err
    else
      pure fd

/-- The `while (1)` of `create_socket_bind`: draw a port, ask `netstat` whether it is
free, try to bind it, and start over on any failure. -/
def drawPort (retFd : ℤ) (sinAddr : BitVec 32) : ℕ → Program Sys CInt
  | 0 => do nomatch ← sys .spin
  | rounds + 1 => do
    let iRandomPort := BitVec.ofNat 32 ((← sys .rand) % (portEnd - portStart + 1) + portStart)
    let grepped ← sys (.netstat iRandomPort)
    if grepped ≠ 0 then
      let bound ← sys (.bind retFd ⟨sinAddr, htons iRandomPort⟩)
      if bound = 0 then
        pure iRandomPort
      else
        drawPort retFd sinAddr rounds
    else
      drawPort retFd sinAddr rounds

/-- `create_socket_bind` -/
def createSocketBind (rounds : ℕ) (retFd : ℤ) (sinAddr : BitVec 32) (defaultPort : CInt) :
    Program Sys CInt := do
  if defaultPort ≠ 0 then
    let bound ← sys (.bind retFd ⟨sinAddr, htons defaultPort⟩)
    if bound = 0 then
      pure defaultPort
    else
      drawPort retFd sinAddr rounds
  else
    drawPort retFd sinAddr rounds

/-- What `flag_srandom2` and `dst_addr` hold before `recvfrom` writes to them. -/
structure Uninitialized where
  flagSrandom2 : CInt
  dstAddr : SockAddrIn

/-- `count`, `flag_srandom2` and `dst_addr` after `recvfrom`. A datagram shorter than
an `int` overwrites only its first bytes, a longer one is cut off. -/
def afterRecvfrom (garbage : Uninitialized) :
    Option (List UInt8 × SockAddrIn) → ℤ × CInt × SockAddrIn
  | some (bytes, src) =>
    (bytes.length, intOfBytes (bytes ++ (intBytes garbage.flagSrandom2).drop bytes.length), src)
  | none => (-1, garbage.flagSrandom2, garbage.dstAddr)

/-- A hello of four bytes overwrites the whole of `flag_srandom2`. -/
theorem afterRecvfrom_intBytes (garbage : Uninitialized) (n : CInt) (src : SockAddrIn) :
    afterRecvfrom garbage (some (intBytes n, src)) = (4, n, src) := by
  have hdrop : (intBytes garbage.flagSrandom2).drop 4 = [] := rfl
  simp [afterRecvfrom, hdrop]

/-- `process`: read the nonce, echo it, bind and announce a UDP port, take one
datagram as the hello and relay. Whether the hello holds the nonce decides only
about the `connect`, whose failure is looked for among positive results. -/
def process (rounds : ℕ) (garbage : Uninitialized) (sockStatusFd tunFd : ℤ) :
    Program Sys Unit := do
  let flagSrandom ← readInt sockStatusFd
  writeInt sockStatusFd flagSrandom
  let udpSockfd ← sys (.socket .dgram)
  let port ← createSocketBind rounds udpSockfd inaddrAny udpPort
  writeInt sockStatusFd port
  let received ← sys (.recvfrom udpSockfd 4)
  let (count, flagSrandom2, dstAddr) := afterRecvfrom garbage received
  if 0 < count ∧ flagSrandom = flagSrandom2 then
    let connected ← sys (.connect udpSockfd dstAddr)
    if connected > 0 then
      perrorExit "connect() error" 0
    else
      sys (.log "udp recvform ip:")
  let _ ← sys (.eventBaseDispatch (eventLoop udpSockfd tunFd))

/-- The `while (1)` of `main`: the child of each `fork` runs `process` and, when that
returns, goes on with the loop like its parent. -/
def acceptLoop (rounds : ℕ) (garbage : Uninitialized) (sockFd tunFd : ℤ) : ℕ → Program Sys Unit
  | 0 => do nomatch ← sys .spin
  | connections + 1 => do
    let netFd ← sys (.accept sockFd)
    if netFd < 0 then
      perrorExit "accept()" 1
    else
      let pid ← sys .fork
      if pid = 0 then
        process rounds garbage netFd tunFd
      acceptLoop rounds garbage sockFd tunFd connections

/-- `main` -/
def main (rounds connections : ℕ) (garbage : Uninitialized) : Program Sys Unit := do
  let tunFd ← tunAlloc "tun111"
  if tunFd < 0 then
    perrorExit "Error connecting to tun/tap interface:" 1
  else
    let sockFd ← sys (.socket .stream)
    if sockFd < 0 then
      perrorExit "socket()" 1
    else
      let _port ← createSocketBind rounds sockFd inaddrAny tcpPort
      let listening ← sys (.listen sockFd 5)
      if listening < 0 then
        perrorExit "listen()" 1
      else
        acceptLoop rounds garbage sockFd tunFd connections

end HeptaVcn.TunnelServer
