import HeptaVcn.Socks5.Go

/-!
# The packets of the SOCKS5 client

Requests, replies and datagrams with their bytes, and `ParseAddress`, which turns the
text of a destination into the parts of a request.
-/

namespace HeptaVcn.Socks5

open Machine

def ver : UInt8 := 0x05
def methodNone : UInt8 := 0x00
def methodUsernamePassword : UInt8 := 0x02
def cmdConnect : UInt8 := 0x01
def cmdUDP : UInt8 := 0x03
def atypIPv4 : UInt8 := 0x01
def atypDomain : UInt8 := 0x03
def atypIPv6 : UInt8 := 0x04
def repSuccess : UInt8 := 0x00

/-- `byte(len(b))` -/
def byteLen (b : Bytes) : UInt8 := UInt8.ofNat b.length

/-- A length of at most 255 fits into its byte. -/
theorem byteLen_toNat {b : Bytes} (h : b.length ≤ 255) : (byteLen b).toNat = b.length := by
  rw [byteLen, UInt8.toNat_ofNat']
  omega

/-- `ParseAddress`: the type of the address, its bytes and those of the port. The error of
`Atoi` is dropped, and a name is preceded by the byte of its length. -/
def parseAddress (lib : NetLib) (address : Bytes) : Except GoError (UInt8 × Bytes × Bytes) :=
  match splitHostPort address with
  | none => .error .address
  | some (h, p) =>
    let port := putUint16 (atoi p).1
    match lib.parseIP h with
    | some ip =>
      match ip.to4 with
      | some ip4 => .ok (atypIPv4, ip4, port)
      | none => .ok (atypIPv6, ip.bytes, port)
    | none => .ok (atypDomain, byteLen h :: h, port)

/-- `Request` -/
structure Request where
  ver : UInt8
  cmd : UInt8
  rsv : UInt8
  atyp : UInt8
  dstAddr : Bytes
  dstPort : Bytes
  deriving DecidableEq

/-- `NewRequest` -/
def newRequest (cmd atyp : UInt8) (dstaddr dstport : Bytes) : Request where
  ver := Socks5.ver
  cmd := cmd
  rsv := 0x00
  atyp := atyp
  dstAddr := if atyp = atypDomain then byteLen dstaddr :: dstaddr else dstaddr
  dstPort := dstport

/-- What `Request.WriteTo` writes. -/
def Request.bytes (r : Request) : Bytes :=
  [r.ver, r.cmd, r.rsv, r.atyp] ++ r.dstAddr ++ r.dstPort

/-- What `NegotiationRequest.WriteTo` writes for `NewNegotiationRequest(methods)`. -/
def negotiationRequest (methods : Bytes) : Bytes := [ver, byteLen methods] ++ methods

/-- `NegotiationReply` -/
structure NegotiationReply where
  ver : UInt8
  method : UInt8
  deriving DecidableEq

/-- `Reply` -/
structure Reply where
  ver : UInt8
  rep : UInt8
  rsv : UInt8
  atyp : UInt8
  bndAddr : Bytes
  bndPort : Bytes
  deriving DecidableEq

/-- `Reply.Address` -/
def Reply.address (lib : NetLib) (r : Reply) : Bytes :=
  let s := if r.atyp = atypDomain then r.bndAddr.drop 1 else lib.ipString r.bndAddr
  joinHostPort s (itoa (uint16 (r.bndPort.getD 0 0) (r.bndPort.getD 1 0)))

/-- `NewNegotiationReplyFrom` -/
def newNegotiationReplyFrom (conn : ℕ) : Go NegotiationReply := do
  let bb ← .attempt (net (.readFull conn 2))
  if bb.get 0 ≠ ver then
    throw .version
  else
    pure ⟨bb.get 0, bb.get 1⟩

/-- The address of a reply, of the form that its type announces. -/
def readBndAddr (conn : ℕ) (atyp : UInt8) : Go Bytes := do
  if atyp = atypIPv4 then
    let addr ← .attempt (net (.readFull conn 4))
    pure addr.toList
  else if atyp = atypIPv6 then
    let addr ← .attempt (net (.readFull conn 16))
    pure addr.toList
  else if atyp = atypDomain then
    let dal ← .attempt (net (.readFull conn 1))
    if dal.get 0 = 0 then
      throw .badReply
    else
      let addr ← .attempt (net (.readFull conn (dal.get 0).toNat))
      pure (dal.toList ++ addr.toList)
  else
    throw .badReply

/-- `NewReplyFrom` -/
def newReplyFrom (conn : ℕ) : Go Reply := do
  let bb ← .attempt (net (.readFull conn 4))
  if bb.get 0 ≠ ver then
    throw .version
  else
    let addr ← readBndAddr conn (bb.get 3)
    let port ← .attempt (net (.readFull conn 2))
    pure ⟨bb.get 0, bb.get 1, bb.get 2, bb.get 3, addr, port.toList⟩

/-! ## Datagrams -/

/-- `Datagram` -/
structure Datagram where
  rsv : Bytes
  frag : UInt8
  atyp : UInt8
  dstAddr : Bytes
  dstPort : Bytes
  data : Bytes
  deriving DecidableEq

/-- `NewDatagram` -/
def newDatagram (atyp : UInt8) (dstaddr dstport data : Bytes) : Datagram where
  rsv := [0x00, 0x00]
  frag := 0x00
  atyp := atyp
  dstAddr := if atyp = atypDomain then byteLen dstaddr :: dstaddr else dstaddr
  dstPort := dstport
  data := data

/-- `Datagram.Bytes` -/
def Datagram.bytes (d : Datagram) : Bytes :=
  d.rsv ++ [d.frag] ++ [d.atyp] ++ d.dstAddr ++ d.dstPort ++ d.data

/-- `bb[i]` -/
def index (bb : Bytes) (i : ℕ) : Go UInt8 :=
  match bb[i]? with
  | some b => pure b
  | none => throw .panic

/-- `bb[i:j]` -/
def slice (bb : Bytes) (i j : ℕ) : Go Bytes :=
  if i ≤ j ∧ j ≤ bb.length then pure ((bb.take j).drop i) else throw .panic

/-- `NewDatagramFromBytes` once the address has been taken out: `minl` bytes have been used. -/
def datagramRest (bb addr : Bytes) (minl : ℕ) : Go Datagram := do
  let minl := minl + 2
  if bb.length ≤ minl then
    throw .badRequest
  else
    let port ← slice bb (minl - 2) minl
    let data ← slice bb minl bb.length
    pure ⟨← slice bb 0 2, ← index bb 2, ← index bb 3, addr, port, data⟩

/-- `NewDatagramFromBytes` -/
def newDatagramFromBytes (bb : Bytes) : Go Datagram := do
  let n := bb.length
  if n < 4 then
    throw .badRequest
  else
    let atyp ← index bb 3
    if atyp = atypIPv4 then
      if n < 8 then throw .badRequest
      else
        let addr ← slice bb 4 8
        datagramRest bb addr 8
    else if atyp = atypIPv6 then
      if n < 20 then throw .badRequest
      else
        let addr ← slice bb 4 20
        datagramRest bb addr 20
    else if atyp = atypDomain then
      if n < 5 then throw .badRequest
      else
        let l ← index bb 4
        if l = 0 then throw .badRequest
        else if n < 5 + l.toNat then throw .badRequest
        else
          let addr ← slice bb 5 (5 + l.toNat)
          datagramRest bb (l :: addr) (5 + l.toNat)
    else
      throw .badRequest

end HeptaVcn.Socks5
