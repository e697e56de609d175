import Mathlib.Data.Finset.Erase
import Mathlib.Data.Finset.Insert
import HeptaVcn.Socks5.Destination

/-!
# Connections left open by a failed dial

Nothing in `DialWithLocalAddr`, `Negotiate` and `Request` closes a connection, so an
error after the connection to the proxy was opened leaves it open. The conditions
below say, call by call, what the proxy must answer for no such error to come.
-/

namespace HeptaVcn.Socks5

open Machine

/-! ## The open connections -/

/-- What every call would return, by the number of calls before it. -/
abbrev Outcomes := ℕ → (op : NetOp) → op.Reply

/-- The calls made so far, the number of the next connection and the open connections. -/
structure Sockets where
  clock : ℕ
  next : ℕ
  opened : Finset ℕ
  fresh : ∀ conn ∈ opened, conn < next

namespace Sockets

/-- The same connections after some number of calls. -/
def goto (s : Sockets) (clock : ℕ) : Sockets := { s with clock := clock }

/-- A call opens a connection. -/
def opens (s : Sockets) : Sockets where
  clock := s.clock + 1
  next := s.next + 1
  opened := insert s.next s.opened
  fresh conn hconn := by
    rcases Finset.mem_insert.mp hconn with rfl | hconn
    · exact Nat.lt_succ_self _
    · exact Nat.lt_succ_of_lt (s.fresh conn hconn)

/-- A call closes a connection. -/
def closes (s : Sockets) (conn : ℕ) : Sockets where
  clock := s.clock + 1
  next := s.next
  opened := s.opened.erase conn
  fresh conn' hconn' := s.fresh conn' (Finset.mem_of_mem_erase hconn')

/-- What a dial leaves, by its outcome. -/
def dialled (s : Sockets) : Except GoError ℕ → Sockets
  | .ok _ => s.opens
  | .error _ => s.goto (s.clock + 1)

end Sockets

/-- The network with its open connections: the environment chooses the outcome of each call,
and a connection that is opened gets a new number. -/
def sockets (o : Outcomes) : Handler Net Sockets where
  reply s
    | .dialTCP laddr raddr => (o s.clock (.dialTCP laddr raddr)).map fun _ => s.next
    | .dialUDP laddr raddr => (o s.clock (.dialUDP laddr raddr)).map fun _ => s.next
    | op => o s.clock op
  after s
    | .dialTCP laddr raddr => s.dialled (o s.clock (.dialTCP laddr raddr))
    | .dialUDP laddr raddr => s.dialled (o s.clock (.dialUDP laddr raddr))
    | .close conn => s.closes conn
    | _ => s.goto (s.clock + 1)

/-! ## What a dial needs to be granted -/

/-- The number of calls that set a timeout. -/
def deadlineCalls (seconds : ℤ) : ℕ := if seconds ≠ 0 then 1 else 0

/-- The deadline is set, if there is a timeout. -/
def DeadlineSet (o : Outcomes) (k conn : ℕ) (seconds : ℤ) : Prop :=
  seconds ≠ 0 → o k (.setDeadline conn seconds) = .ok ()

/-- From the `k`-th call on, the method offered is granted. -/
structure MethodGranted (o : Outcomes) (c : Client) (conn k : ℕ) : Prop where
  deadline : DeadlineSet o k conn c.tcpTimeout
  written : ∃ n, o (k + deadlineCalls c.tcpTimeout)
    (.write conn (negotiationRequest [c.method])) = .ok n
  reply : ∃ bb, o (k + deadlineCalls c.tcpTimeout + 1) (.readFull conn 2) = .ok bb ∧
    bb.get 0 = ver ∧ bb.get 1 = c.method

/-- From the `k`-th call to the `k'`-th, an address of the given type arrives. -/
inductive AddressRead (o : Outcomes) (conn k : ℕ) : UInt8 → Bytes → ℕ → Prop where
  | ipv4 (b) : o k (.readFull conn 4) = .ok b →
    AddressRead o conn k atypIPv4 b.toList (k + 1)
  | ipv6 (b) : o k (.readFull conn 16) = .ok b →
    AddressRead o conn k atypIPv6 b.toList (k + 1)
  | domain (dal b) : o k (.readFull conn 1) = .ok dal → dal.get 0 ≠ 0 →
    o (k + 1) (.readFull conn (dal.get 0).toNat) = .ok b →
    AddressRead o conn k atypDomain (dal.toList ++ b.toList) (k + 2)

/-- From the `k`-th call to the `k'`-th, a request is written and its success is replied. -/
def RequestGranted (o : Outcomes) (conn k : ℕ) (r : Request) (rp : Reply) (k' : ℕ) : Prop :=
  (∃ n, o k (.write conn r.bytes) = .ok n) ∧
    rp.ver = ver ∧ rp.rep = repSuccess ∧
    ∃ bb k₁ port, o (k + 1) (.readFull conn 4) = .ok bb ∧
      bb.toList = [rp.ver, rp.rep, rp.rsv, rp.atyp] ∧
      AddressRead o conn (k + 2) rp.atyp rp.bndAddr k₁ ∧
      o k₁ (.readFull conn 2) = .ok port ∧ port.toList = rp.bndPort ∧ k' = k₁ + 1

/-- From the `k`-th call on, everything is granted that follows the opening of the
connection `conn` to the proxy; the association gets the next connection. -/
def DialGranted (lib : NetLib) (o : Outcomes) (c : Client) (network dst : Bytes)
    (conn k : ℕ) : Prop :=
  let k₁ := k + deadlineCalls c.tcpTimeout + 2
  MethodGranted o c conn k ∧
    if network = ascii "udp" then
      ∃ r rp k₂ n, requestFor lib cmdUDP (o k₁ (.localAddr conn)) = .ok r ∧
        RequestGranted o conn (k₁ + 1) r rp k₂ ∧
        o k₂ (.dialUDP (o k₁ (.localAddr conn)) (rp.address lib)) = .ok n ∧
        DeadlineSet o (k₂ + 1) (conn + 1) c.udpTimeout
    else
      ∃ r rp k₂, requestFor lib cmdConnect dst = .ok r ∧ RequestGranted o conn k₁ r rp k₂

/-- The source address is resolved, if there is one, by the calls up to the `k'`-th. -/
def SourceResolved (o : Outcomes) (src : Bytes) (k : ℕ) (laddr : Option Bytes) (k' : ℕ) : Prop :=
  (src = [] ∧ laddr = none ∧ k' = k) ∨
    (src ≠ [] ∧ ∃ a, o k (.resolveTCPAddr src) = .ok a ∧ laddr = some a ∧ k' = k + 1)

/-- From the `k`-th call on, the connection to the proxy is opened, by the `k'`-th. -/
def ProxyOpened (o : Outcomes) (c : Client) (network src : Bytes) (k k' : ℕ) : Prop :=
  (network = ascii "tcp" ∨ network = ascii "udp") ∧
    ∃ laddr, SourceResolved o src k laddr k' ∧
      ∃ n, o k' (.dialTCP (laddr.getD []) c.server) = .ok n

/-! ## A dial in three parts -/

namespace Client

/-- What `Negotiate` does on the connection that it has opened. -/
def offer (c : Client) (tcpConn : ℕ) : Go ℕ := do
  setTimeout tcpConn c.tcpTimeout
  let m := c.method
  let _ ← .attempt (net (.write tcpConn (negotiationRequest [m])))
  let rp ← newNegotiationReplyFrom tcpConn
  if rp.method ≠ m then
    throw .method
  else
    pure tcpConn

/-- What `DialWithLocalAddr` does after `Negotiate`. -/
def useProxy (lib : NetLib) (c : Client) (network dst : Bytes) (tcpConn : ℕ) : Go Client :=
  if network = ascii "udp" then do
    let src ← net (.localAddr tcpConn)
    let rp ← requestAddress lib tcpConn cmdUDP src
    let udpConn ← .attempt (net (.dialUDP src (rp.address lib)))
    setTimeout udpConn c.udpTimeout
    pure { c with tcpConn := some tcpConn, udpConn := some udpConn }
  else do
    let _ ← requestAddress lib tcpConn cmdConnect dst
    pure { c with tcpConn := some tcpConn }

/-- `Negotiate` dials the proxy and then makes its offer. -/
theorem negotiate_eq (c : Client) (laddr : Option Bytes) :
    c.negotiate laddr = (do
      let tcpConn ← .attempt (net (.dialTCP (laddr.getD []) c.server))
      c.offer tcpConn) := rfl

/-- The client that a dial returns, before its connections are filled in. -/
def fresh (c : Client) (dst : Bytes) (remoteAddr : Option Bytes) : Client :=
  { c with dst := dst, remoteAddress := remoteAddr, tcpConn := none, udpConn := none }

/-- A dial resolves the local address, negotiates and sends its request, for either network. -/
theorem dialWithLocalAddr_eq (lib : NetLib) (c : Client) {network : Bytes} (src dst : Bytes)
    (remoteAddr : Option Bytes) (hnetwork : network = ascii "tcp" ∨ network = ascii "udp") :
    c.dialWithLocalAddr lib network src dst remoteAddr = (do
      let laddr ← resolveSrc src
      let tcpConn ← (c.fresh dst remoteAddr).negotiate laddr
      (c.fresh dst remoteAddr).useProxy lib network dst tcpConn) := by
  have hne : ascii "tcp" ≠ ascii "udp" := by simp [ascii]
  unfold dialWithLocalAddr useProxy
  rcases hnetwork with rfl | rfl
  · rw [if_pos rfl]
    simp only [if_neg hne]
    rfl
  · rw [if_neg hne.symm, if_pos rfl]
    simp only [if_true]
    rfl

end Client

/-! ## Connections are only added -/

section Grows

variable {o : Outcomes} {α β : Type}

/-- The program closes no connection. -/
def Grows (o : Outcomes) (x : Go α) : Prop :=
  ∀ s, s.opened ⊆ (x.exec (sockets o) s).2.opened

/-- Returning closes nothing. -/
theorem grows_pure (a : α) : Grows o (pure a) := fun s => Finset.Subset.refl s.opened

/-- Failing closes nothing. -/
theorem grows_throw (e : GoError) : Grows o (throw e : Go α) := fun s => Finset.Subset.refl s.opened

/-- A chain of programs that close nothing closes nothing. -/
theorem grows_bind {x : Go α} {f : α → Go β} (hx : Grows o x) (hf : ∀ a, Grows o (f a)) :
    Grows o (x >>= f) := by
  intro s
  rw [Failing.exec_bind]
  have hfirst := hx s
  generalize x.exec (sockets o) s = out at hfirst
  rcases out with ⟨_ | a, t⟩
  · exact hfirst
  · exact hfirst.trans (hf a t)

/-- Dialling opens at most a connection more. -/
theorem Sockets.subset_dialled (s : Sockets) (out : Except GoError ℕ) :
    s.opened ⊆ (s.dialled out).opened := by
  cases out with
  | error e => exact Finset.Subset.refl s.opened
  | ok n => exact Finset.subset_insert _ _

/-- Only `Close` takes a connection away. -/
theorem grows_call {op : NetOp} (hop : ∀ conn, op ≠ .close conn)
    (f : op.Reply → Except GoError α) :
    Grows o (.attempt (.call op fun r => .done (f r)) : Go α) := by
  intro s
  change s.opened ⊆ ((sockets o).after s op).opened
  cases op with
  | dialTCP laddr raddr => exact s.subset_dialled _
  | dialUDP laddr raddr => exact s.subset_dialled _
  | close conn => exact absurd rfl (hop conn)
  | _ => exact Finset.Subset.refl s.opened

/-- Writing closes nothing. -/
theorem grows_write (conn : ℕ) (bytes : Bytes) :
    Grows o (.attempt (net (.write conn bytes)) : Go ℕ) :=
  @grows_call o _ (.write conn bytes) (fun _ h => nomatch h) id

/-- What only reads closes nothing. -/
theorem readingRules_grows (o : Outcomes) : ReadingRules (fun {_} x => Grows o x) where
  pure := grows_pure
  throw := grows_throw
  bind := grows_bind
  readFull conn len := @grows_call o _ (.readFull conn len) (fun _ h => nomatch h) id
  setDeadline conn seconds := @grows_call o _ (.setDeadline conn seconds) (fun _ h => nomatch h) id

/-- A request closes nothing. -/
theorem grows_requestAddress (lib : NetLib) (conn : ℕ) (cmd : UInt8) (text : Bytes) :
    Grows o (Client.requestAddress lib conn cmd text) := by
  unfold Client.requestAddress
  cases parseAddress lib text with
  | error e => exact grows_throw e
  | ok parts =>
    refine grows_bind (grows_pure parts) fun _ => ?_
    refine grows_bind (grows_write conn _) fun _ => ?_
    refine grows_bind ((readingRules_grows o).newReplyFrom conn) fun rp => ?_
    exact ReadingRules.ite (P := fun {_} x => Grows o x) (grows_throw _) (grows_pure _)

end Grows

/-! ## Success, call by call -/

section Success

variable {o : Outcomes} {s t : Sockets} {conn : ℕ}

/-- A full read succeeds exactly if the environment lets it. -/
theorem exec_readFull_iff {len : ℕ} {b : List.Vector UInt8 len} :
    (.attempt (net (.readFull conn len)) : Go _).exec (sockets o) s = (.ok b, t) ↔
      o s.clock (.readFull conn len) = .ok b ∧ t = s.goto (s.clock + 1) :=
  Prod.mk_inj.trans (and_congr_right fun _ => eq_comm)

/-- A write succeeds exactly if the environment lets it, with the count that it reports. -/
theorem exec_write_iff {bytes : Bytes} {n : ℕ} :
    (.attempt (net (.write conn bytes)) : Go _).exec (sockets o) s = (.ok n, t) ↔
      o s.clock (.write conn bytes) = .ok n ∧ t = s.goto (s.clock + 1) :=
  Prod.mk_inj.trans (and_congr_right fun _ => eq_comm)

/-- Returning always succeeds and does nothing. -/
theorem exec_pure_iff {α : Type} {a b : α} :
    (pure a : Go α).exec (sockets o) s = (.ok b, t) ↔ b = a ∧ t = s := by
  refine Prod.mk_inj.trans (and_congr ?_ eq_comm)
  exact ⟨fun h => (Except.ok.inj h).symm, fun h => congrArg Except.ok h.symm⟩

/-- Failing never succeeds. -/
theorem exec_throw_ne {α : Type} {e : GoError} {a : α} :
    ¬(throw e : Go α).exec (sockets o) s = (.ok a, t) := by
  intro h
  cases h

/-- Setting the timeout succeeds exactly if the deadline, if there is one, is set. -/
theorem exec_setTimeout_iff {seconds : ℤ} :
    (Client.setTimeout conn seconds).exec (sockets o) s = (.ok (), t) ↔
      DeadlineSet o s.clock conn seconds ∧ t = s.goto (s.clock + deadlineCalls seconds) := by
  unfold Client.setTimeout DeadlineSet deadlineCalls
  by_cases hseconds : seconds ≠ 0
  · rw [if_pos hseconds, if_pos hseconds]
    refine Prod.mk_inj.trans (and_congr ?_ eq_comm)
    exact ⟨fun h _ => h, fun h => h hseconds⟩
  · rw [if_neg hseconds, if_neg hseconds, exec_pure_iff]
    refine and_congr ⟨fun _ h => absurd h hseconds, fun _ => rfl⟩ ?_
    rfl

/-- The method reply is read exactly if two bytes come and the first is the version. -/
theorem exec_newNegotiationReplyFrom_iff {rp : NegotiationReply} :
    (newNegotiationReplyFrom conn).exec (sockets o) s = (.ok rp, t) ↔
      (∃ bb, o s.clock (.readFull conn 2) = .ok bb ∧ bb.get 0 = ver ∧ rp = ⟨bb.get 0, bb.get 1⟩) ∧
        t = s.goto (s.clock + 1) := by
  rw [newNegotiationReplyFrom, Failing.exec_bind_eq_ok]
  constructor
  · rintro ⟨bb, u, hread, h⟩
    obtain ⟨hcall, rfl⟩ := exec_readFull_iff.mp hread
    split at h
    · exact absurd h exec_throw_ne
    case isFalse hver =>
      obtain ⟨rfl, rfl⟩ := exec_pure_iff.mp h
      exact ⟨⟨bb, hcall, not_not.mp hver, rfl⟩, rfl⟩
  · rintro ⟨⟨bb, hread, hver, rfl⟩, rfl⟩
    refine ⟨bb, _, exec_readFull_iff.mpr ⟨hread, rfl⟩, ?_⟩
    rw [if_neg (not_not.mpr hver)]
    rfl

/-- An IPv4 address is one read of four bytes. -/
theorem addressRead_ipv4_iff {addr : Bytes} {k k' : ℕ} :
    AddressRead o conn k atypIPv4 addr k' ↔
      ∃ b, o k (.readFull conn 4) = .ok b ∧ addr = b.toList ∧ k' = k + 1 := by
  constructor
  · intro hread
    cases hread with
    | ipv4 b hcall => exact ⟨b, hcall, rfl, rfl⟩
  · rintro ⟨b, hcall, rfl, rfl⟩
    exact .ipv4 b hcall

/-- An IPv6 address is one read of sixteen bytes. -/
theorem addressRead_ipv6_iff {addr : Bytes} {k k' : ℕ} :
    AddressRead o conn k atypIPv6 addr k' ↔
      ∃ b, o k (.readFull conn 16) = .ok b ∧ addr = b.toList ∧ k' = k + 1 := by
  constructor
  · intro hread
    cases hread with
    | ipv6 b hcall => exact ⟨b, hcall, rfl, rfl⟩
  · rintro ⟨b, hcall, rfl, rfl⟩
    exact .ipv6 b hcall

/-- An address of a fixed length takes one read. -/
theorem exec_readFixed_iff {atyp : UInt8} {addr : Bytes} {len : ℕ}
    (hread : ∀ {k'}, AddressRead o conn s.clock atyp addr k' ↔
      ∃ b, o s.clock (.readFull conn len) = .ok b ∧ addr = b.toList ∧ k' = s.clock + 1) :
    (do
      let addr ← .attempt (net (.readFull conn len))
      pure addr.toList : Go Bytes).exec (sockets o) s = (.ok addr, t) ↔
        ∃ k, AddressRead o conn s.clock atyp addr k ∧ t = s.goto k := by
  rw [Failing.exec_bind_eq_ok]
  constructor
  · rintro ⟨b, u, hfull, h⟩
    obtain ⟨hcall, rfl⟩ := exec_readFull_iff.mp hfull
    obtain ⟨rfl, rfl⟩ := exec_pure_iff.mp h
    exact ⟨_, hread.mpr ⟨b, hcall, rfl, rfl⟩, rfl⟩
  · rintro ⟨k, haddress, rfl⟩
    obtain ⟨b, hcall, rfl, rfl⟩ := hread.mp haddress
    exact ⟨b, _, exec_readFull_iff.mpr ⟨hcall, rfl⟩, rfl⟩

/-- A name takes a read for its length and one for itself. -/
theorem exec_readName_iff {addr : Bytes} :
    (do
      let dal ← .attempt (net (.readFull conn 1))
      if dal.get 0 = 0 then
        throw .badReply
      else
        let name ← .attempt (net (.readFull conn (dal.get 0).toNat))
        pure (dal.toList ++ name.toList) : Go Bytes).exec (sockets o) s = (.ok addr, t) ↔
      ∃ k, AddressRead o conn s.clock atypDomain addr k ∧ t = s.goto k := by
  rw [Failing.exec_bind_eq_ok]
  constructor
  · rintro ⟨dal, u, hread, h⟩
    obtain ⟨hdal, rfl⟩ := exec_readFull_iff.mp hread
    split at h
    · exact absurd h exec_throw_ne
    case isFalse hzero =>
      obtain ⟨b, v, hread, h⟩ := Failing.exec_bind_eq_ok.mp h
      obtain ⟨hcall, rfl⟩ := exec_readFull_iff.mp hread
      obtain ⟨rfl, rfl⟩ := exec_pure_iff.mp h
      exact ⟨_, .domain dal b hdal hzero hcall, rfl⟩
  · rintro ⟨k, hread, rfl⟩
    cases hread with
    | domain dal b hdal hzero hcall =>
      refine ⟨dal, _, exec_readFull_iff.mpr ⟨hdal, rfl⟩, ?_⟩
      rw [if_neg hzero, Failing.exec_bind_eq_ok]
      exact ⟨b, _, exec_readFull_iff.mpr ⟨hcall, rfl⟩, rfl⟩

/-- The bound address is read exactly if the reads for its type succeed. -/
theorem exec_readBndAddr_iff {atyp : UInt8} {addr : Bytes} :
    (readBndAddr conn atyp).exec (sockets o) s = (.ok addr, t) ↔
      ∃ k, AddressRead o conn s.clock atyp addr k ∧ t = s.goto k := by
  unfold readBndAddr
  by_cases hip4 : atyp = atypIPv4
  · subst hip4
    rw [if_pos rfl]
    exact exec_readFixed_iff addressRead_ipv4_iff
  rw [if_neg hip4]
  by_cases hip6 : atyp = atypIPv6
  · subst hip6
    rw [if_pos rfl]
    exact exec_readFixed_iff addressRead_ipv6_iff
  rw [if_neg hip6]
  by_cases hdomain : atyp = atypDomain
  · subst hdomain
    rw [if_pos rfl]
    exact exec_readName_iff
  rw [if_neg hdomain]
  constructor
  · exact fun h => absurd h exec_throw_ne
  · rintro ⟨k, hread, rfl⟩
    cases hread with
    | ipv4 b => exact absurd rfl hip4
    | ipv6 b => exact absurd rfl hip6
    | domain dal b => exact absurd rfl hdomain

/-- A reply takes a read for its first four bytes, those for its address and one for its port. -/
theorem exec_newReplyFrom_iff {rp : Reply} :
    (newReplyFrom conn).exec (sockets o) s = (.ok rp, t) ↔
      rp.ver = ver ∧ ∃ bb k port, o s.clock (.readFull conn 4) = .ok bb ∧
        bb.toList = [rp.ver, rp.rep, rp.rsv, rp.atyp] ∧
        AddressRead o conn (s.clock + 1) rp.atyp rp.bndAddr k ∧
        o k (.readFull conn 2) = .ok port ∧ port.toList = rp.bndPort ∧ t = s.goto (k + 1) := by
  rw [newReplyFrom, Failing.exec_bind_eq_ok]
  constructor
  · rintro ⟨bb, u, hread, h⟩
    obtain ⟨hbb, rfl⟩ := exec_readFull_iff.mp hread
    split at h
    · exact absurd h exec_throw_ne
    case isFalse hver =>
      obtain ⟨addr, v, haddr, h⟩ := Failing.exec_bind_eq_ok.mp h
      obtain ⟨k, haddress, rfl⟩ := exec_readBndAddr_iff.mp haddr
      obtain ⟨port, x, hport, h⟩ := Failing.exec_bind_eq_ok.mp h
      obtain ⟨hcall, rfl⟩ := exec_readFull_iff.mp hport
      obtain ⟨rfl, rfl⟩ := exec_pure_iff.mp h
      exact ⟨not_not.mp hver, bb, k, port, hbb, toList_four bb, haddress, hcall, rfl, rfl⟩
  · rintro ⟨hver, bb, k, port, hbb, hlist, haddress, hport, hbnd, rfl⟩
    have hheader := (toList_four bb).symm.trans hlist
    simp only [List.cons.injEq, and_true] at hheader
    obtain ⟨h0, h1, h2, h3⟩ := hheader
    refine ⟨bb, _, exec_readFull_iff.mpr ⟨hbb, rfl⟩, ?_⟩
    rw [if_neg (not_not.mpr (h0.trans hver)), h3]
    refine Failing.exec_bind_eq_ok.mpr ⟨_, _, exec_readBndAddr_iff.mpr ⟨k, haddress, rfl⟩, ?_⟩
    refine Failing.exec_bind_eq_ok.mpr ⟨port, _, exec_readFull_iff.mpr ⟨hport, rfl⟩, ?_⟩
    rw [h0, h1, h2, hbnd]
    rfl

/-- A request is answered exactly if it is written and a reply that grants it is read. -/
theorem exec_request_iff {r : Request} {rp : Reply} :
    (Client.request conn r).exec (sockets o) s = (.ok rp, t) ↔
      ∃ k, RequestGranted o conn s.clock r rp k ∧ t = s.goto k := by
  constructor
  · intro h
    obtain ⟨n, u, hwrite, h⟩ := Failing.exec_bind_eq_ok.mp h
    obtain ⟨hwritten, rfl⟩ := exec_write_iff.mp hwrite
    obtain ⟨rp', v, hreply, h⟩ := Failing.exec_bind_eq_ok.mp h
    split at h
    · exact absurd h exec_throw_ne
    case isFalse hrep =>
      obtain ⟨rfl, rfl⟩ := exec_pure_iff.mp h
      obtain ⟨hver, bb, k, port, hbb, hlist, haddress, hport, hbnd, rfl⟩ :=
        exec_newReplyFrom_iff.mp hreply
      exact ⟨k + 1, ⟨⟨n, hwritten⟩, hver, not_not.mp hrep, bb, k, port, hbb, hlist, haddress,
        hport, hbnd, rfl⟩, rfl⟩
  · rintro ⟨_, ⟨⟨n, hwritten⟩, hver, hrep, bb, k, port, hbb, hlist, haddress, hport, hbnd, rfl⟩,
      rfl⟩
    have hreply : (newReplyFrom conn).exec (sockets o) (s.goto (s.clock + 1)) =
        (.ok rp, s.goto (k + 1)) :=
      exec_newReplyFrom_iff.mpr ⟨hver, bb, k, port, hbb, hlist, haddress, hport, hbnd, rfl⟩
    refine Failing.exec_bind_eq_ok.mpr ⟨n, _, exec_write_iff.mpr ⟨hwritten, rfl⟩, ?_⟩
    refine Failing.exec_bind_eq_ok.mpr ⟨rp, _, hreply, ?_⟩
    rw [if_neg (not_not.mpr hrep)]
    rfl

/-- `requestAddress` is encoding the address and then sending the request. -/
theorem requestAddress_eq (lib : NetLib) (conn : ℕ) (cmd : UInt8) (text : Bytes) :
    Client.requestAddress lib conn cmd text = (do
      let r ← .attempt (pure (requestFor lib cmd text))
      Client.request conn r) := by
  unfold Client.requestAddress requestFor
  cases parseAddress lib text <;> rfl

/-- An address is requested exactly if it can be encoded and the request is granted. -/
theorem exec_requestAddress_iff {lib : NetLib} {cmd : UInt8} {text : Bytes} {rp : Reply} :
    (Client.requestAddress lib conn cmd text).exec (sockets o) s = (.ok rp, t) ↔
      ∃ r k, requestFor lib cmd text = .ok r ∧ RequestGranted o conn s.clock r rp k ∧
        t = s.goto k := by
  rw [requestAddress_eq, Failing.exec_bind_eq_ok]
  constructor
  · rintro ⟨r, u, hparsed, h⟩
    obtain ⟨hr, rfl⟩ := Prod.mk.inj hparsed
    obtain ⟨k, hgranted, rfl⟩ := exec_request_iff.mp h
    exact ⟨r, k, hr, hgranted, rfl⟩
  · rintro ⟨r, k, hr, hgranted, rfl⟩
    exact ⟨r, s, congrArg (·, s) hr, exec_request_iff.mpr ⟨k, hgranted, rfl⟩⟩

/-- The offer succeeds exactly if the proxy chooses the offered method. -/
theorem exec_offer_iff {c : Client} {n : ℕ} :
    (c.offer conn).exec (sockets o) s = (.ok n, t) ↔
      n = conn ∧ MethodGranted o c conn s.clock ∧
        t = s.goto (s.clock + deadlineCalls c.tcpTimeout + 2) := by
  constructor
  · intro h
    obtain ⟨⟨⟩, u, htimeout, h⟩ := Failing.exec_bind_eq_ok.mp h
    obtain ⟨hdeadline, rfl⟩ := exec_setTimeout_iff.mp htimeout
    obtain ⟨m, v, hwrite, h⟩ := Failing.exec_bind_eq_ok.mp h
    obtain ⟨hwritten, rfl⟩ := exec_write_iff.mp hwrite
    obtain ⟨rp, x, hread, h⟩ := Failing.exec_bind_eq_ok.mp h
    obtain ⟨⟨bb, hbb, hver, rfl⟩, rfl⟩ := exec_newNegotiationReplyFrom_iff.mp hread
    split at h
    · exact absurd h exec_throw_ne
    case isFalse hmethod =>
      obtain ⟨rfl, rfl⟩ := exec_pure_iff.mp h
      exact ⟨rfl, ⟨hdeadline, ⟨m, hwritten⟩, ⟨bb, hbb, hver, not_not.mp hmethod⟩⟩, rfl⟩
  · rintro ⟨rfl, ⟨hdeadline, ⟨m, hwritten⟩, ⟨bb, hbb, hver, hmethod⟩⟩, rfl⟩
    refine Failing.exec_bind_eq_ok.mpr ⟨(), _, exec_setTimeout_iff.mpr ⟨hdeadline, rfl⟩, ?_⟩
    refine Failing.exec_bind_eq_ok.mpr ⟨m, _, exec_write_iff.mpr ⟨hwritten, rfl⟩, ?_⟩
    refine Failing.exec_bind_eq_ok.mpr ⟨⟨bb.get 0, bb.get 1⟩, _,
      exec_newNegotiationReplyFrom_iff.mpr ⟨⟨bb, hbb, hver, rfl⟩, rfl⟩, ?_⟩
    rw [if_neg (not_not.mpr hmethod)]
    rfl

/-- A dial over UDP opens the next connection. -/
theorem exec_dialUDP_iff {laddr raddr : Bytes} {n : ℕ} :
    (.attempt (net (.dialUDP laddr raddr)) : Go _).exec (sockets o) s = (.ok n, t) ↔
      (∃ m, o s.clock (.dialUDP laddr raddr) = .ok m) ∧ n = s.next ∧ t = s.opens := by
  change ((o s.clock (.dialUDP laddr raddr)).map fun _ => s.next,
    s.dialled (o s.clock (.dialUDP laddr raddr))) = (Except.ok n, t) ↔ _
  cases o s.clock (.dialUDP laddr raddr) with
  | error e =>
    constructor
    · rintro ⟨⟩
    · rintro ⟨⟨_, ⟨⟩⟩, _⟩
  | ok m =>
    refine Prod.mk_inj.trans ?_
    rw [Except.map, Except.ok.injEq]
    constructor
    · rintro ⟨rfl, rfl⟩
      exact ⟨⟨m, rfl⟩, rfl, rfl⟩
    · rintro ⟨_, rfl, rfl⟩
      exact ⟨rfl, rfl⟩

/-- Once the method is granted, the rest succeeds exactly when the proxy grants it. -/
theorem succeeds_useProxy_iff {lib : NetLib} {c : Client} {network dst : Bytes}
    (hnext : s.next = conn + 1) :
    Failing.Succeeds (sockets o) (c.useProxy lib network dst conn) s ↔
      if network = ascii "udp" then
        ∃ r rp k n, requestFor lib cmdUDP (o s.clock (.localAddr conn)) = .ok r ∧
          RequestGranted o conn (s.clock + 1) r rp k ∧
          o k (.dialUDP (o s.clock (.localAddr conn)) (rp.address lib)) = .ok n ∧
          DeadlineSet o (k + 1) (conn + 1) c.udpTimeout
      else
        ∃ r rp k, requestFor lib cmdConnect dst = .ok r ∧
          RequestGranted o conn s.clock r rp k := by
  unfold Client.useProxy
  by_cases hudp : network = ascii "udp"
  · rw [if_pos hudp, if_pos hudp, ← hnext]
    constructor
    · intro h
      obtain ⟨src, u, hlocal, h⟩ := Failing.succeeds_bind.mp h
      obtain ⟨hsrc, rfl⟩ := Prod.mk.inj hlocal
      obtain rfl := Except.ok.inj hsrc
      obtain ⟨rp, v, hrequest, h⟩ := Failing.succeeds_bind.mp h
      obtain ⟨r, k, hr, hgranted, rfl⟩ := exec_requestAddress_iff.mp hrequest
      obtain ⟨n, x, hdial, h⟩ := Failing.succeeds_bind.mp h
      obtain ⟨⟨m, hdialled⟩, rfl, rfl⟩ := exec_dialUDP_iff.mp hdial
      obtain ⟨⟨⟩, y, htimeout, _⟩ := Failing.succeeds_bind.mp h
      exact ⟨r, rp, k, m, hr, hgranted, hdialled, (exec_setTimeout_iff.mp htimeout).1⟩
    · rintro ⟨r, rp, k, m, hr, hgranted, hdialled, hdeadline⟩
      refine Failing.succeeds_bind.mpr
        ⟨o s.clock (.localAddr conn), s.goto (s.clock + 1), rfl, ?_⟩
      refine Failing.succeeds_bind.mpr ⟨rp, _,
        exec_requestAddress_iff.mpr ⟨r, k, hr, hgranted, rfl⟩, ?_⟩
      refine Failing.succeeds_bind.mpr ⟨_, _, exec_dialUDP_iff.mpr ⟨⟨m, hdialled⟩, rfl, rfl⟩, ?_⟩
      exact Failing.succeeds_bind.mpr
        ⟨(), _, exec_setTimeout_iff.mpr ⟨hdeadline, rfl⟩, _, _, rfl⟩
  · rw [if_neg hudp, if_neg hudp]
    constructor
    · intro h
      obtain ⟨rp, v, hrequest, _⟩ := Failing.succeeds_bind.mp h
      obtain ⟨r, k, hr, hgranted, _⟩ := exec_requestAddress_iff.mp hrequest
      exact ⟨r, rp, k, hr, hgranted⟩
    · rintro ⟨r, rp, k, hr, hgranted⟩
      exact Failing.succeeds_bind.mpr
        ⟨rp, _, exec_requestAddress_iff.mpr ⟨r, k, hr, hgranted, rfl⟩, _, _, rfl⟩

/-- What follows the opening of the connection to the proxy succeeds exactly when the
proxy grants it. -/
theorem succeeds_opened_iff (lib : NetLib) (c : Client) (network dst : Bytes) (s : Sockets) :
    Failing.Succeeds (sockets o) (do
        let tcpConn ← c.offer s.next
        c.useProxy lib network dst tcpConn) s.opens ↔
      DialGranted lib o c network dst s.next (s.clock + 1) := by
  rw [Failing.succeeds_bind]
  constructor
  · rintro ⟨conn, t, hoffer, huse⟩
    obtain ⟨rfl, hmethod, rfl⟩ := exec_offer_iff.mp hoffer
    exact ⟨hmethod, (succeeds_useProxy_iff rfl).mp huse⟩
  · rintro ⟨hmethod, hrest⟩
    exact ⟨_, _, exec_offer_iff.mpr ⟨rfl, hmethod, rfl⟩, (succeeds_useProxy_iff rfl).mpr hrest⟩

/-- The local address is resolved exactly if the environment knows it, or there is none. -/
theorem exec_resolveSrc_iff {src : Bytes} {laddr : Option Bytes} :
    (Client.resolveSrc src).exec (sockets o) s = (.ok laddr, t) ↔
      ∃ k, SourceResolved o src s.clock laddr k ∧ t = s.goto k := by
  unfold Client.resolveSrc
  by_cases hsrc : src = []
  · rw [if_neg (not_not.mpr hsrc), exec_pure_iff]
    constructor
    · rintro ⟨rfl, rfl⟩
      exact ⟨_, Or.inl ⟨hsrc, rfl, rfl⟩, rfl⟩
    · rintro ⟨k, ⟨_, rfl, rfl⟩ | ⟨hne, _⟩, rfl⟩
      · exact ⟨rfl, rfl⟩
      · exact absurd hsrc hne
  · rw [if_pos hsrc, Failing.exec_bind_eq_ok]
    constructor
    · rintro ⟨a, u, hresolve, h⟩
      obtain ⟨ha, rfl⟩ := Prod.mk.inj hresolve
      obtain ⟨rfl, rfl⟩ := exec_pure_iff.mp h
      exact ⟨_, Or.inr ⟨hsrc, a, ha, rfl, rfl⟩, rfl⟩
    · rintro ⟨k, ⟨hnil, _⟩ | ⟨_, a, ha, rfl, rfl⟩, rfl⟩
      · exact absurd hnil hsrc
      · exact ⟨a, s.goto (s.clock + 1), congrArg (·, s.goto (s.clock + 1)) ha, rfl⟩

/-- The source is resolved in one way only. -/
theorem SourceResolved.unique {src : Bytes} {laddr laddr' : Option Bytes} {k k₁ k₂ : ℕ}
    (h : SourceResolved o src k laddr k₁) (h' : SourceResolved o src k laddr' k₂) :
    laddr' = laddr ∧ k₂ = k₁ := by
  rcases h with ⟨_, rfl, rfl⟩ | ⟨hne, a, ha, rfl, rfl⟩
  · rcases h' with ⟨_, rfl, rfl⟩ | ⟨hne, _⟩
    · exact ⟨rfl, rfl⟩
    · contradiction
  · rcases h' with ⟨hnil, _⟩ | ⟨_, a', ha', rfl, rfl⟩
    · contradiction
    · rw [ha] at ha'
      obtain rfl := Except.ok.inj ha'
      exact ⟨rfl, rfl⟩

/-- Resolving an address opens nothing. -/
theorem opened_resolveSrc (src : Bytes) (s : Sockets) :
    ((Client.resolveSrc src).exec (sockets o) s).2.opened = s.opened := by
  unfold Client.resolveSrc
  split
  · have hcall : (.attempt (net (.resolveTCPAddr src)) : Go Bytes).exec (sockets o) s =
        (o s.clock (.resolveTCPAddr src), s.goto (s.clock + 1)) := rfl
    rw [Failing.exec_bind, hcall]
    cases o s.clock (.resolveTCPAddr src) <;> rfl
  · rfl

end Success

section Dial

variable {o : Outcomes} {lib : NetLib} {c : Client} {network src dst : Bytes}

/-- The offer closes nothing. -/
theorem grows_offer (c : Client) (conn : ℕ) : Grows o (c.offer conn) := by
  refine grows_bind ((readingRules_grows o).setTimeout conn c.tcpTimeout) fun _ => ?_
  refine grows_bind (grows_write conn _) fun _ => ?_
  refine grows_bind ((readingRules_grows o).newNegotiationReplyFrom conn) fun rp => ?_
  exact ReadingRules.ite (P := fun {_} x => Grows o x) (grows_throw _) (grows_pure _)

/-- Using the proxy closes nothing. -/
theorem grows_useProxy (lib : NetLib) (c : Client) (network dst : Bytes) (conn : ℕ) :
    Grows o (c.useProxy lib network dst conn) := by
  apply ReadingRules.ite (P := fun {_} x => Grows o x)
  · refine grows_bind (fun s => Finset.Subset.refl s.opened) fun src => ?_
    refine grows_bind (grows_requestAddress lib conn cmdUDP src) fun rp => ?_
    refine grows_bind (@grows_call o _ (.dialUDP _ _) (fun _ h => nomatch h) id) fun udpConn => ?_
    exact grows_bind ((readingRules_grows o).setTimeout udpConn c.udpTimeout) fun _ => grows_pure _
  · exact grows_bind (grows_requestAddress lib conn cmdConnect dst) fun _ => grows_pure _

/-- After the connection to the proxy is opened, an error leaves it open. -/
theorem left_open (s : Sockets) :
    (∀ e, (Failing.exec (sockets o) (do
        let tcpConn ← c.offer s.next
        c.useProxy lib network dst tcpConn) s.opens).1 = .error e →
      (Failing.exec (sockets o) (do
        let tcpConn ← c.offer s.next
        c.useProxy lib network dst tcpConn) s.opens).2.opened = s.opened) ↔
      DialGranted lib o c network dst s.next (s.clock + 1) := by
  rw [← succeeds_opened_iff]
  constructor
  · intro h
    by_contra hfails
    obtain ⟨e, he⟩ := Failing.not_succeeds_iff.mp hfails
    have hgrows := grows_bind (grows_offer c s.next)
      (fun conn => grows_useProxy lib c network dst conn) (o := o) s.opens
    have hmem := hgrows (Finset.mem_insert_self s.next s.opened)
    rw [h e he] at hmem
    exact absurd (s.fresh s.next hmem) (lt_irrefl _)
  · rintro ⟨c', t, hexec⟩ e he
    rw [hexec] at he
    cases he

/-- Whether a dial is granted does not depend on what the client has stored of earlier ones. -/
theorem dialGranted_fresh {conn k : ℕ} {remoteAddr : Option Bytes} :
    DialGranted lib o (c.fresh dst remoteAddr) network dst conn k ↔
      DialGranted lib o c network dst conn k := by
  constructor
  · rintro ⟨⟨hdeadline, hwritten, hreply⟩, hrest⟩
    exact ⟨⟨hdeadline, hwritten, hreply⟩, hrest⟩
  · rintro ⟨⟨hdeadline, hwritten, hreply⟩, hrest⟩
    exact ⟨⟨hdeadline, hwritten, hreply⟩, hrest⟩

/-- A dial that fails leaves the open connections as they were if and only if it fails before
the connection to the proxy is opened: once it is, everything that follows must be granted. -/
theorem failed_dial_iff (lib : NetLib) (o : Outcomes) (c : Client) (network src dst : Bytes)
    (remoteAddr : Option Bytes) (s : Sockets) :
    (∀ e, (Failing.exec (sockets o)
        (c.dialWithLocalAddr lib network src dst remoteAddr) s).1 = .error e →
      (Failing.exec (sockets o)
        (c.dialWithLocalAddr lib network src dst remoteAddr) s).2.opened = s.opened) ↔
      ∀ k, ProxyOpened o c network src s.clock k →
        DialGranted lib o c network dst s.next (k + 1) := by
  by_cases hnetwork : network = ascii "tcp" ∨ network = ascii "udp"
  case neg =>
    have hthrow : c.dialWithLocalAddr lib network src dst remoteAddr = throw .network := by
      obtain ⟨htcp, hudp⟩ := not_or.mp hnetwork
      unfold Client.dialWithLocalAddr
      rw [if_neg htcp, if_neg hudp]
    rw [hthrow]
    exact iff_of_true (fun _ _ => rfl) fun _ hopened => absurd hopened.1 hnetwork
  case pos =>
    rw [c.dialWithLocalAddr_eq lib src dst remoteAddr hnetwork, Failing.exec_bind]
    have hopened := opened_resolveSrc (o := o) src s
    cases hresolve : (Client.resolveSrc src).exec (sockets o) s with
    | mk out t =>
    rw [hresolve] at hopened
    cases out with
    | error e =>
      refine iff_of_true (fun _ _ => hopened) fun k hproxy => ?_
      obtain ⟨_, laddr, hsrc, _⟩ := hproxy
      have hok := exec_resolveSrc_iff.mpr ⟨k, hsrc, rfl⟩
      rw [hresolve] at hok
      cases hok
    | ok laddr =>
      obtain ⟨k, hsrc, rfl⟩ := exec_resolveSrc_iff.mp hresolve
      have hdial : (.attempt (net (.dialTCP (laddr.getD []) (c.fresh dst remoteAddr).server)) :
          Go ℕ).exec (sockets o) (s.goto k) =
          ((o k (.dialTCP (laddr.getD []) c.server)).map fun _ => s.next,
            (s.goto k).dialled (o k (.dialTCP (laddr.getD []) c.server))) := rfl
      dsimp only
      rw [Client.negotiate_eq, Failing.exec_bind_assoc, Failing.exec_bind, hdial]
      cases hcall : o k (.dialTCP (laddr.getD []) c.server) with
      | error e =>
        refine iff_of_true (fun _ _ => rfl) fun k' hproxy => ?_
        obtain ⟨_, laddr', hsrc', n, hn⟩ := hproxy
        obtain ⟨rfl, rfl⟩ := hsrc.unique hsrc'
        rw [hcall] at hn
        cases hn
      | ok n =>
        have hleft := @left_open o lib (c.fresh dst remoteAddr) network dst (s.goto k)
        rw [dialGranted_fresh] at hleft
        refine Iff.trans hleft ⟨fun hgranted k' hproxy => ?_, fun h => ?_⟩
        · obtain ⟨_, laddr', hsrc', _⟩ := hproxy
          obtain ⟨rfl, rfl⟩ := hsrc.unique hsrc'
          exact hgranted
        · exact h k ⟨hnetwork, laddr, hsrc, n, hcall⟩

end Dial

/-- No connection has been opened yet. -/
def Sockets.none : Sockets := ⟨0, 0, ∅, by simp⟩

/-- The proxy accepts connections and resets them. -/
def resetting : Outcomes
  | _, .dialTCP .. | _, .dialUDP .. => .ok 0
  | _, .localAddr _ => []
  | _, .resolveTCPAddr address => .ok address
  | _, .setDeadline .. | _, .close _ => .ok ()
  | _, .write .. | _, .read .. | _, .readFull .. => .error (.os 104)

/-- The offer of a method cannot be written, and the connection stays open. -/
theorem left_open_resetting :
    ∃ t, Failing.exec (sockets resetting) ((newClient [] [] [] 0 0).dialWithLocalAddr namesOnly
        (ascii "tcp") [] (ascii "a:80") none) Sockets.none = (.error (.os 104), t) ∧
      Sockets.none.opened = ∅ ∧ t.opened = {0} := by
  unfold Client.dialWithLocalAddr
  rw [if_pos rfl]
  exact ⟨_, rfl, rfl, rfl⟩

end HeptaVcn.Socks5
