import Mathlib.Data.Finset.Basic
import HeptaVcn.Socks5.Datagrams
import HeptaVcn.Socks5.FailedDial

/-!
# The connection that a dial returns

`Client` is itself a `net.Conn`: this file models its other methods. What a dial has
opened is what `Close` closes, whatever the proxy answers and whether or not closing
fails, and the user name and the password never get as far as the network.
-/

namespace HeptaVcn.Socks5

open Machine

namespace Client

/-- `Close`. Of two connections only the error of the second one is returned. -/
def close (c : Client) : Go Unit :=
  match c.udpConn with
  | none =>
    match c.tcpConn with
    | none => throw .panic
    | some tcpConn => .attempt (net (.close tcpConn))
  | some udpConn =>
    match c.tcpConn with
    | none => .attempt (net (.close udpConn))
    | some tcpConn => do
      let _ ← ExceptT.lift (net (.close tcpConn))
      .attempt (net (.close udpConn))

/-- `LocalAddr`, as its text. -/
def localAddr (c : Client) : Go Bytes :=
  match c.udpConn with
  | none =>
    match c.tcpConn with
    | none => throw .panic
    | some tcpConn => net (.localAddr tcpConn)
  | some udpConn => net (.localAddr udpConn)

/-- `RemoteAddr` -/
def remoteAddr (c : Client) : Option Bytes := c.remoteAddress

/-- `Write`; over UDP the bytes are wrapped in a datagram for the destination. -/
def write (lib : NetLib) (c : Client) (b : Bytes) : Go ℕ :=
  match c.udpConn with
  | none =>
    match c.tcpConn with
    | none => throw .panic
    | some tcpConn => .attempt (net (.write tcpConn b))
  | some udpConn => do
    let (a, h, p) ← .attempt (pure (parseAddress lib c.dst))
    let h := if a = atypDomain then h.drop 1 else h
    let b1 := (newDatagram a h p b).bytes
    let n ← .attempt (net (.write udpConn b1))
    if b1.length ≠ n then
      throw .notWriteFull
    else
      pure b.length

/-- The client holds the connection. -/
def Holds (c : Client) (conn : ℕ) : Prop := c.tcpConn = some conn ∨ c.udpConn = some conn

end Client

section Dial

variable {o : Outcomes} {lib : NetLib} {c c' : Client} {network src dst : Bytes}
  {remoteAddr : Option Bytes} {s t : Sockets} {conn : ℕ}

/-- A dial over TCP opens the next connection. -/
theorem exec_dialTCP_iff {laddr raddr : Bytes} {n : ℕ} :
    (.attempt (net (.dialTCP laddr raddr)) : Go _).exec (sockets o) s = (.ok n, t) ↔
      (∃ m, o s.clock (.dialTCP laddr raddr) = .ok m) ∧ n = s.next ∧ t = s.opens := by
  change ((o s.clock (.dialTCP laddr raddr)).map fun _ => s.next,
    s.dialled (o s.clock (.dialTCP laddr raddr))) = (Except.ok n, t) ↔ _
  cases o s.clock (.dialTCP laddr raddr) with
  | error e => simp [Except.map]
  | ok m => simp [Except.map, Sockets.dialled, eq_comm]

/-- What follows the opening of the connection to the proxy succeeds with a client that holds
this connection and, over UDP, the next one. -/
theorem exec_useProxy_ok (hfresh : c.udpConn = none)
    (h : (c.useProxy lib network dst conn).exec (sockets o) s = (.ok c', t)) :
    c'.tcpConn = some conn ∧ ((c'.udpConn = none ∧ t.opened = s.opened) ∨
      (c'.udpConn = some s.next ∧ t.opened = insert s.next s.opened)) := by
  unfold Client.useProxy at h
  split at h
  case isTrue =>
    obtain ⟨src, u, hlocal, h⟩ := Failing.exec_bind_eq_ok.mp h
    obtain ⟨_, rfl⟩ := Prod.mk.inj hlocal
    obtain ⟨rp, v, hrequest, h⟩ := Failing.exec_bind_eq_ok.mp h
    obtain ⟨r, k, _, _, rfl⟩ := exec_requestAddress_iff.mp hrequest
    obtain ⟨n, x, hdial, h⟩ := Failing.exec_bind_eq_ok.mp h
    obtain ⟨_, rfl, rfl⟩ := exec_dialUDP_iff.mp hdial
    obtain ⟨⟨⟩, y, htimeout, h⟩ := Failing.exec_bind_eq_ok.mp h
    obtain ⟨_, rfl⟩ := exec_setTimeout_iff.mp htimeout
    obtain ⟨rfl, rfl⟩ := exec_pure_iff.mp h
    exact ⟨rfl, Or.inr ⟨rfl, rfl⟩⟩
  case isFalse =>
    obtain ⟨rp, v, hrequest, h⟩ := Failing.exec_bind_eq_ok.mp h
    obtain ⟨r, k, _, _, rfl⟩ := exec_requestAddress_iff.mp hrequest
    obtain ⟨rfl, rfl⟩ := exec_pure_iff.mp h
    exact ⟨rfl, Or.inl ⟨hfresh, rfl⟩⟩

/-- A dial that succeeds has opened one connection or, over UDP, two. -/
theorem exec_dial_ok
    (h : (c.dialWithLocalAddr lib network src dst remoteAddr).exec (sockets o) s = (.ok c', t)) :
    c'.tcpConn = some s.next ∧ ((c'.udpConn = none ∧ t.opened = insert s.next s.opened) ∨
      (c'.udpConn = some (s.next + 1) ∧
        t.opened = insert (s.next + 1) (insert s.next s.opened))) := by
  by_cases hnetwork : network = ascii "tcp" ∨ network = ascii "udp"
  case neg =>
    obtain ⟨htcp, hudp⟩ := not_or.mp hnetwork
    unfold Client.dialWithLocalAddr at h
    rw [if_neg htcp, if_neg hudp] at h
    cases h
  case pos =>
    rw [c.dialWithLocalAddr_eq lib src dst remoteAddr hnetwork] at h
    obtain ⟨laddr, u, hsrc, h⟩ := Failing.exec_bind_eq_ok.mp h
    obtain ⟨k, _, rfl⟩ := exec_resolveSrc_iff.mp hsrc
    obtain ⟨conn, v, hnegotiate, h⟩ := Failing.exec_bind_eq_ok.mp h
    rw [Client.negotiate_eq] at hnegotiate
    obtain ⟨n, x, hdial, hoffer⟩ := Failing.exec_bind_eq_ok.mp hnegotiate
    obtain ⟨_, rfl, rfl⟩ := exec_dialTCP_iff.mp hdial
    obtain ⟨rfl, _, rfl⟩ := exec_offer_iff.mp hoffer
    exact exec_useProxy_ok rfl h

/-- A number that has not been given out yet is that of no open connection. -/
theorem Sockets.notMem_of_next_le (s : Sockets) (hle : s.next ≤ conn) : conn ∉ s.opened := by
  intro hmem
  have hlt := s.fresh conn hmem
  omega

/-- Closing a client that has been dialled leaves open what was open before. -/
theorem opened_close_dialled
    (h : (c.dialWithLocalAddr lib network src dst remoteAddr).exec (sockets o) s = (.ok c', t)) :
    (c'.close.exec (sockets o) t).2.opened = s.opened := by
  obtain ⟨htcp, ⟨hudp, hopened⟩ | ⟨hudp, hopened⟩⟩ := exec_dial_ok h
  · have hclose : (c'.close.exec (sockets o) t).2.opened = t.opened.erase s.next := by
      unfold Client.close
      rw [hudp, htcp]
      rfl
    rw [hclose, hopened, Finset.erase_insert (s.notMem_of_next_le le_rfl)]
  · have hclose : (c'.close.exec (sockets o) t).2.opened =
        (t.opened.erase s.next).erase (s.next + 1) := by
      unfold Client.close
      rw [hudp, htcp]
      rfl
    rw [hclose, hopened, Finset.erase_right_comm, Finset.erase_insert, Finset.erase_insert]
    · exact s.notMem_of_next_le le_rfl
    · simp [s.notMem_of_next_le (Nat.le_succ s.next)]

/-- A dial that succeeds has opened exactly the connections of the client it returns, and
closing that client leaves open what was open before, even where closing fails. -/
theorem opened_close_of_dial
    (h : (c.dialWithLocalAddr lib network src dst remoteAddr).exec (sockets o) s = (.ok c', t)) :
    (∀ conn, conn ∈ t.opened ↔ conn ∈ s.opened ∨ c'.Holds conn) ∧
      (c'.close.exec (sockets o) t).2.opened = s.opened := by
  refine ⟨fun conn => ?_, opened_close_dialled h⟩
  obtain ⟨htcp, ⟨hudp, hopened⟩ | ⟨hudp, hopened⟩⟩ := exec_dial_ok h
  · simp [hopened, Client.Holds, htcp, hudp, eq_comm, or_comm]
  · simp only [hopened, Finset.mem_insert, Client.Holds, htcp, hudp, Option.some.injEq]
    tauto

end Dial

/-- A proxy that grants everything and has bound the address 5.0.0.1. -/
def granting : Outcomes
  | _, .readFull .. => .ok (List.Vector.ofFn fun i => [5, 0, 0, 1].getD i 0)
  | k, op => agreeable (ascii "10.0.0.2:4000") k op

/-- An instance: a dial over UDP of which every call succeeds. -/
theorem opened_close_of_dial_granting : ∃ c' t,
    Failing.exec (sockets granting) ((newClient [] [] [] 0 0).dialWithLocalAddr namesOnly
      (ascii "udp") [] (ascii "a:80") none) Sockets.none = (.ok c', t) ∧
    (∀ conn, conn ∈ t.opened ↔ conn ∈ Sockets.none.opened ∨ c'.Holds conn) ∧
      (c'.close.exec (sockets granting) t).2.opened = Sockets.none.opened := by
  have hdial : ∃ c' t, Failing.exec (sockets granting) ((newClient [] [] [] 0 0).dialWithLocalAddr
      namesOnly (ascii "udp") [] (ascii "a:80") none) Sockets.none = (.ok c', t) := by
    rw [Client.dialWithLocalAddr_eq _ _ _ _ _ (Or.inr rfl)]
    exact ⟨_, _, rfl⟩
  obtain ⟨c', t, hdial⟩ := hdial
  exact ⟨c', t, hdial, opened_close_of_dial hdial⟩

/-! ## The credentials -/

namespace Client

/-- The same client with another user name and another password. -/
def withCredentials (c : Client) (userName password : Bytes) : Client :=
  { c with userName := userName, password := password }

section Credentials

variable {c : Client} {userName password : Bytes}

/-- The negotiation offers a method and does not look at the credentials behind it. -/
theorem negotiate_withCredentials (hmethod : (c.withCredentials userName password).method =
    c.method) (laddr : Option Bytes) :
    (c.withCredentials userName password).negotiate laddr = c.negotiate laddr := by
  unfold negotiate
  rw [hmethod]
  rfl

/-- The requests after the negotiation carry no credentials either. -/
theorem useProxy_withCredentials (lib : NetLib) (c : Client) (network dst : Bytes)
    (tcpConn : ℕ) (userName password : Bytes) :
    (c.withCredentials userName password).useProxy lib network dst tcpConn =
      (·.withCredentials userName password) <$> c.useProxy lib network dst tcpConn := by
  unfold useProxy
  split
  · simp only [map_bind, map_pure]
    rfl
  · simp only [map_bind, map_pure]
    rfl

/-- A user name and a password change the calls of a dial at most by the method they make
the client offer: with the same method, not a single call depends on them. -/
theorem dial_withCredentials (hmethod : (c.withCredentials userName password).method = c.method)
    (lib : NetLib) (network src dst : Bytes) (remoteAddr : Option Bytes) :
    (c.withCredentials userName password).dialWithLocalAddr lib network src dst remoteAddr =
      (·.withCredentials userName password) <$>
        c.dialWithLocalAddr lib network src dst remoteAddr := by
  by_cases hnetwork : network = ascii "tcp" ∨ network = ascii "udp"
  · rw [dialWithLocalAddr_eq _ _ _ _ _ hnetwork, dialWithLocalAddr_eq _ _ _ _ _ hnetwork]
    simp only [map_bind, ← useProxy_withCredentials]
    refine bind_congr fun laddr => ?_
    have hfresh : (c.withCredentials userName password).fresh dst remoteAddr =
        (c.fresh dst remoteAddr).withCredentials userName password := rfl
    rw [hfresh, negotiate_withCredentials (c := c.fresh dst remoteAddr) hmethod]
  · obtain ⟨htcp, hudp⟩ := not_or.mp hnetwork
    unfold dialWithLocalAddr
    rw [if_neg htcp, if_neg hudp, if_neg htcp, if_neg hudp]
    rfl

/-- An instance: a user name without a password. -/
theorem dial_withCredentials_name :
    ((newClient [] [] [] 0 0).withCredentials (ascii "admin") []).method =
        (newClient [] [] [] 0 0).method ∧
      ((newClient [] [] [] 0 0).withCredentials (ascii "admin") []).dialWithLocalAddr namesOnly
          (ascii "tcp") [] (ascii "a:80") none =
        (·.withCredentials (ascii "admin") []) <$> (newClient [] [] [] 0 0).dialWithLocalAddr
          namesOnly (ascii "tcp") [] (ascii "a:80") none :=
  ⟨by decide, dial_withCredentials (by decide) namesOnly (ascii "tcp") [] (ascii "a:80") none⟩

end Credentials

end Client

/-! ## What `Write` sends over UDP -/

/-- The destination that stands in a datagram. -/
def Datagram.destination (g : Datagram) : Option Destination :=
  match decodeAddress g.atyp g.dstAddr, g.dstPort with
  | some (host, []), [hi, lo] => some ⟨host, uint16 hi lo⟩
  | _, _ => none

/-- The client's own decoder finds the destination and the payload in the bytes, which are no
fragment of a longer payload. -/
def DecodesTo (bytes : Bytes) (d : Destination) (b : Bytes) : Prop :=
  ∃ g : Datagram, newDatagramFromBytes bytes = pure g ∧ g.frag = 0 ∧ g.destination = some d ∧
    g.data = b

/-- The datagram that `Write` builds for a text. -/
def datagramFor (lib : NetLib) (text b : Bytes) : Except GoError Datagram :=
  (parseAddress lib text).map fun (a, h, p) =>
    newDatagram a (if a = atypDomain then h.drop 1 else h) p b

/-- A text that names a destination gives a datagram in which the decoder finds it, with the
payload if there is one. -/
theorem decode_datagramFor {lib : NetLib} {text b : Bytes} {d : Destination} (hb : b ≠ [])
    (h : named lib text = some d) :
    ∃ g, datagramFor lib text b = .ok g ∧ DecodesTo g.bytes d b := by
  obtain ⟨atyp, addr, hi, lo, hparse, hform, hdecode, hport⟩ := parseAddress_of_named h
  let g : Datagram := ⟨[0, 0], 0, atyp, addr, [hi, lo], b⟩
  have hbuilt : newDatagram atyp (if atyp = atypDomain then addr.drop 1 else addr) [hi, lo] b = g :=
    congrArg (Datagram.mk [0, 0] 0 atyp · [hi, lo] b) (restore_name hform)
  have hwell : g.WellFormed := ⟨rfl, hform, rfl, hb⟩
  refine ⟨g, ?_, g, hwell.decode, rfl, ?_, rfl⟩
  · rw [datagramFor, hparse, ← hbuilt]
    rfl
  · simp only [Datagram.destination, g, hdecode, hport]

/-- A text becomes a datagram exactly when it splits. -/
theorem datagramFor_eq_ok {lib : NetLib} {text b : Bytes} :
    (∃ g, datagramFor lib text b = .ok g) ↔ ∃ parts, splitHostPort text = some parts := by
  rw [← @requestFor_eq_ok lib cmdUDP text, requestFor, datagramFor]
  cases parseAddress lib text <;> simp [Except.map]

/-- What came of a call of `Write`: one datagram was sent that the decoder reads as the payload
for the destination that the text names, and the number of payload bytes is returned exactly
when the socket has taken the whole datagram; or nothing was sent, and an error is returned. -/
def SentTo (lib : NetLib) (text b : Bytes) (taken : Bytes → Except GoError ℕ) (w : World)
    (out : Except GoError ℕ × World) : Prop :=
  (∃ bytes d, out.2.written = w.written ++ [bytes] ∧ DecodesTo bytes d b ∧
    named lib text = some d ∧ ∀ n, out.1 = .ok n ↔ n = b.length ∧ taken bytes = .ok bytes.length) ∨
  out.2.written = w.written ∧ ∃ e, out.1 = .error e

namespace Client

variable {lib : NetLib} {c : Client} {conn : ℕ} {b : Bytes}

/-- Over UDP a write encodes the payload and sends it in one call. -/
theorem write_eq (hudp : c.udpConn = some conn) : c.write lib b = (do
    let d ← .attempt (pure (datagramFor lib c.dst b))
    let n ← .attempt (net (.write conn d.bytes))
    if d.bytes.length ≠ n then throw .notWriteFull else pure b.length) := by
  unfold write datagramFor
  rw [hudp]
  cases parseAddress lib c.dst <;> rfl

/-- The destination of a UDP client that has a datagram gets it. -/
theorem exec_write (hudp : c.udpConn = some conn) {d : Datagram}
    (hd : datagramFor lib c.dst b = .ok d) (replies : ℕ → (op : NetOp) → op.Reply) (fin : GoError)
    (w : World) :
    ((c.write lib b).exec (network replies fin) w).2.written = w.written ++ [d.bytes] ∧
      ∀ n, ((c.write lib b).exec (network replies fin) w).1 = .ok n ↔
        n = b.length ∧ replies w.clock (.write conn d.bytes) = .ok d.bytes.length := by
  have hcall : (.attempt (net (.write conn d.bytes)) : Go ℕ).exec (network replies fin) w =
      (replies w.clock (.write conn d.bytes), w.after (.write conn d.bytes)) := rfl
  have hexec : (c.write lib b).exec (network replies fin) w =
      ((replies w.clock (.write conn d.bytes)).bind fun n =>
        if d.bytes.length ≠ n then .error .notWriteFull else .ok b.length,
        w.after (.write conn d.bytes)) := by
    rw [write_eq hudp, hd]
    change Failing.exec _ (do
      let n ← .attempt (net (.write conn d.bytes))
      if d.bytes.length ≠ n then throw .notWriteFull else pure b.length : Go ℕ) w = _
    rw [Failing.exec_bind, hcall]
    cases replies w.clock (.write conn d.bytes) with
    | error e => rfl
    | ok n => by_cases hfull : d.bytes.length = n <;> simp [hfull, Except.bind] <;> rfl
  rw [hexec]
  refine ⟨rfl, fun n => ?_⟩
  cases replies w.clock (.write conn d.bytes) with
  | error e => simp [Except.bind]
  | ok taken =>
    by_cases hfull : d.bytes.length = taken
    · simp [hfull, Except.bind, eq_comm]
    · have hcut : taken ≠ d.bytes.length := Ne.symm hfull
      simp [hfull, hcut, Except.bind]

/-- `Write` of some bytes over UDP sends what it should, whatever the socket does, exactly when
the text of the destination names a port and a host that fit, or is refused. -/
theorem write_carries_iff (hudp : c.udpConn = some conn) (lib : NetLib) (hb : b ≠ []) :
    (∀ replies fin w, SentTo lib c.dst b (fun bytes => replies w.clock (.write conn bytes)) w
      ((c.write lib b).exec (network replies fin) w)) ↔ Requestable lib c.dst := by
  cases hdatagram : datagramFor lib c.dst b with
  | error e =>
    have hsplit : splitHostPort c.dst = none := by
      by_contra hne
      obtain ⟨d, hd⟩ := (@datagramFor_eq_ok lib c.dst b).mpr (Option.ne_none_iff_exists'.mp hne)
      rw [hdatagram] at hd
      cases hd
    refine iff_of_true (fun replies fin w => Or.inr ?_) fun h p hparts => ?_
    · rw [write_eq hudp, hdatagram]
      exact ⟨rfl, e, rfl⟩
    · rw [hsplit] at hparts
      cases hparts
  | ok d =>
    constructor
    · intro hsent
      have hworld : World := ⟨0, [], ⟨[], by simp⟩⟩
      obtain ⟨hwritten, -⟩ := exec_write hudp hdatagram (agreeable []) .eof hworld
      rcases hsent (agreeable []) .eof hworld with ⟨_, _, _, _, hnamed, _⟩ | ⟨hnothing, _⟩
      · exact requestable_of_named hnamed
      · rw [hwritten] at hnothing
        simp at hnothing
    · intro hrequestable replies fin w
      obtain ⟨hwritten, hreturned⟩ := exec_write hudp hdatagram replies fin w
      obtain ⟨parts, hsplit⟩ := datagramFor_eq_ok.mp ⟨d, hdatagram⟩
      obtain ⟨dst, hnamed⟩ := named_of_requestable hrequestable hsplit
      obtain ⟨d', hd', hdecode⟩ := decode_datagramFor hb hnamed
      obtain rfl := Except.ok.inj (hdatagram.symm.trans hd')
      exact Or.inl ⟨d.bytes, dst, hwritten, hdecode, hnamed, hreturned⟩

/-- A client that has dialled a name over UDP. -/
def namedClient : Client := { udpClient with dst := ascii "host:53" }

/-- An instance: one byte for a destination that is a name. -/
theorem write_carries_iff_namedClient :
    namedClient.udpConn = some 4 ∧ ([1] : Bytes) ≠ [] ∧
      ((∀ replies fin w, SentTo namesOnly namedClient.dst [1]
          (fun bytes => replies w.clock (.write 4 bytes)) w
          ((namedClient.write namesOnly [1]).exec (network replies fin) w)) ↔
        Requestable namesOnly namedClient.dst) :=
  have hb : ([1] : Bytes) ≠ [] := by decide
  ⟨rfl, hb, write_carries_iff rfl namesOnly hb⟩

/-- To port 70000 a datagram goes out all the same, and it asks for port 4464. -/
example : (datagramFor namesOnly (ascii "host:70000") [1]).toOption.bind Datagram.destination =
    some ⟨.domain (ascii "host"), 4464⟩ := by decide

end Client

end HeptaVcn.Socks5
