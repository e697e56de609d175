import HeptaVcn.Native.Syscall

/-!
# The native client, `ipReflect.cpp`

The control handshake of the phone's end of the IP tunnel and the event loop it
enters. A failing `read_int` or `write_int` exits the process; the two `goto`
labels at the end of the source are the programs `out1` and `out2`.
-/

namespace HeptaVcn.IpReflect

open Machine

def createSocketError : ℤ := 1
def connectServerError : ℤ := 2
def connectTunnelError : ℤ := 3

/-- `__on_recv`: move everything read from one bufferevent to the output of the other. -/
def onRecv (read : Side) (l : EventLoop) : EventLoop :=
  let write := (l.bev read).ctx
  let src := (l.bev read).input
  (l.modify read fun b => { b with input := [] }).modify write fun b =>
    { b with output := b.output ++ src }

/-- `__on_error`: only logs; its `event_base_loopbreak` is commented out. -/
def onError (_bev : Side) (_what : Fault) (l : EventLoop) : EventLoop := l

/-- `__on_tcp_error`: only logs; its `event_base_loopbreak` is commented out. -/
def onTcpError (l : EventLoop) : EventLoop := l

def callbacks : Callbacks := ⟨onRecv, onError, onTcpError⟩

/-- The event loop as `ipReflect_start` hands it to `event_base_dispatch`. -/
def eventLoop (udpTunnelFd tunFd : ℤ) : EventLoop where
  udpBufEv := (Bufferevent.new udpTunnelFd .tun).enableRead
  tunBufEv := (Bufferevent.new tunFd .udp).enableRead
  evTcp := true
  loopbreak := false
  tcpClosed := false
  tunClosed := false

/-- `ipReflect_stop` -/
def ipReflectStop : Program Sys ℤ := do
  let tcpControlSockFd ← sys .getControlSock
  sys (.shutdown tcpControlSockFd)

/-- The label `out1`. -/
def out1 (err : ℤ) : Program Sys ℤ := do
  let tcpControlSockFd ← sys .getControlSock
  let _ ← sys (.close tcpControlSockFd)
  pure err

/-- The label `out2`. -/
def out2 (udpTunnelFd err : ℤ) : Program Sys ℤ := do
  let _ ← sys (.close udpTunnelFd)
  out1 err

/-- The second half of `ipReflect_start`: read the server's UDP port, say hello there
and relay until the event loop returns. -/
def openTunnel (inetAddr : String → BitVec 32) (tunFd : ℤ) (ipaddrStr : String)
    (flagSrandom : CInt) (err : ℤ) : Program Sys ℤ := do
  let port ← readInt (← sys .getControlSock)
  let udpSendSock : SockAddrIn := ⟨inetAddr ipaddrStr, htons port⟩
  let udpTunnelFd ← sys (.socket .dgram)
  let failed ← sys (.connect udpTunnelFd udpSendSock)
  if failed ≠ 0 then
    sys (.log "connect failed\n")
    out2 udpTunnelFd connectTunnelError
  else
    writeInt udpTunnelFd flagSrandom
    let _ ← sys (.eventBaseDispatch (eventLoop udpTunnelFd tunFd))
    -- `bufferevent_free` closes its descriptor, and `out2` closes the UDP one again
    let _ ← sys (.close udpTunnelFd)
    let _ ← sys (.close tunFd)
    out2 udpTunnelFd err

/-- `ipReflect_start`: connect, send a nonce, read it back and open the tunnel. The
integer that comes back is compared with the nonce, but only to log the result. -/
def ipReflectStart (inetAddr : String → BitVec 32) (tunFd : ℤ) (ipaddrStr : String)
    (tcpPort : CInt) : Program Sys ℤ := do
  let sock ← sys (.socket .stream)
  sys (.setControlSock sock)
  if sock < 0 then
    sys (.log "socket()")
    out1 createSocketError
  else
    let remote : SockAddrIn := ⟨inetAddr ipaddrStr, htons tcpPort⟩
    let err ← sys (.connect (← sys .getControlSock) remote)
    if err < 0 then
      sys (.log "connect()")
      out1 connectServerError
    else
      let flagSrandom := BitVec.ofNat 32 (← sys .rand)
      writeInt (← sys .getControlSock) flagSrandom
      if flagSrandom = (← readInt (← sys .getControlSock)) then
        sys (.log "tcp successful")
      openTunnel inetAddr tunFd ipaddrStr flagSrandom err

end HeptaVcn.IpReflect
