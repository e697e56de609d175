import HeptaVcn.Socks5.Connection

/-!
# Fetching a response, `socks5Demo.go`

`readFully` reads a connection until its end and closes it. Over a connection that was
dialled it returns the response of the destination, byte by byte what the server sends
after its two replies, however that is cut into reads.
-/

namespace HeptaVcn.Socks5

open Machine

/-- The loop of `readFully`, with what has been read; it is unrolled so many times. -/
def readFullyLoop (conn : Client) : ℕ → Bytes → Go (Option Bytes)
  | 0, _ => pure none
  | rounds + 1, result => do
    let out ← ExceptT.lift (conn.read 512).run
    match out with
    | .ok b => readFullyLoop conn rounds (result ++ b)
    | .error .eof => pure (some result)
    | .error e => throw e

/-- `readFully`, which closes the connection however its loop ends. -/
def readFully (conn : Client) (rounds : ℕ) : Go (Option Bytes) := do
  let out ← ExceptT.lift (readFullyLoop conn rounds []).run
  let _ ← ExceptT.lift conn.close.run
  match out with
  | .ok result => pure result
  | .error e => throw e

/-! ## What is read -/

section Read

variable {replies : ℕ → (op : NetOp) → op.Reply} {fin : GoError} {c : Client} {conn : ℕ}

/-- One read of a connection over TCP. -/
theorem exec_read_tcp (htcp : c.tcpConn = some conn) (hudp : c.udpConn = none) (len : ℕ)
    (w : World) : (c.read len).exec (network replies fin) w =
      (match (w.server.read len).1 with | some b => .ok b | none => .error fin,
        w.after (.read conn len)) := by
  unfold Client.read
  rw [hudp, htcp]
  rfl

/-- At the end of the stream there is nothing to read. -/
theorem read_eq_none {s : Segmented UInt8} {len : ℕ} (hlen : 0 < len) (hflat : s.flat = []) :
    (s.read len).1 = none := by
  obtain ⟨pieces, h⟩ := s
  cases pieces with
  | nil => simp [Segmented.read, Nat.pos_iff_ne_zero.mp hlen]
  | cons p ps =>
    have hp : p ≠ [] := h p List.mem_cons_self
    simp [Segmented.flat, hp] at hflat

/-- The loop reads up to the end of the stream. -/
theorem exec_readFullyLoop (htcp : c.tcpConn = some conn) (hudp : c.udpConn = none)
    {rounds : ℕ} {w : World} (hrounds : w.server.flat.length < rounds) (result : Bytes) :
    ((readFullyLoop c rounds result).exec (network replies fin) w).1 =
      if fin = .eof then .ok (some (result ++ w.server.flat)) else .error fin := by
  induction rounds generalizing w result with
  | zero => omega
  | succ rounds ih =>
    rw [readFullyLoop, Failing.exec_caught, exec_read_tcp htcp hudp]
    by_cases hflat : w.server.flat = []
    · rw [read_eq_none (by decide) hflat, hflat, List.append_nil]
      cases fin <;> rfl
    · obtain ⟨b, hread, hne, htaken⟩ := w.server.read_eq_some (n := 512) (by decide) hflat
      have hpos := List.length_pos_iff.mpr hne
      have hafter : (w.after (.read conn 512)).server.flat = (w.server.read 512).2.flat := rfl
      have hrest : (w.after (.read conn 512)).server.flat.length < rounds := by
        rw [htaken, List.length_append] at hrounds
        rw [hafter]
        omega
      rw [hread]
      simp only [ih hrest, List.append_assoc, hafter, ← htaken]

/-- `readFully` returns the rest of the stream, or the error that it ends with. -/
theorem exec_readFully (htcp : c.tcpConn = some conn) (hudp : c.udpConn = none) {rounds : ℕ}
    {w : World} (hrounds : w.server.flat.length < rounds) :
    ((readFully c rounds).exec (network replies fin) w).1 =
      if fin = .eof then .ok (some w.server.flat) else .error fin := by
  rw [readFully, Failing.exec_caught, Failing.exec_caught, exec_readFullyLoop htcp hudp hrounds]
  by_cases heof : fin = .eof
  · rw [if_pos heof, if_pos heof]
    rfl
  · rw [if_neg heof, if_neg heof]
    rfl

/-- Resolving an address reads nothing. -/
theorem resolveSrc_ok {src : Bytes} {laddr : Option Bytes} {v w : World}
    (h : (Client.resolveSrc src).exec (network replies fin) v = (.ok laddr, w)) :
    w.server = v.server := by
  unfold Client.resolveSrc at h
  split at h
  · obtain ⟨a, u, hresolve, h⟩ := Failing.exec_bind_eq_ok.mp h
    obtain ⟨_, rfl⟩ := Prod.mk.inj h
    exact @exec_call_ok _ _ _ _ _ (.resolveTCPAddr src) trivial id _ hresolve
  · obtain ⟨_, rfl⟩ := Prod.mk.inj h
    rfl

/-- A dial over TCP that succeeds has read its two replies and nothing else. -/
theorem dial_tcp_ok {lib : NetLib} {src dst : Bytes} {remoteAddr : Option Bytes} {c' : Client}
    {v w : World} (h : (c.dialWithLocalAddr lib (ascii "tcp") src dst remoteAddr).exec
      (network replies fin) v = (.ok c', w)) :
    (∃ conn, c'.tcpConn = some conn) ∧ c'.udpConn = none ∧ ∃ rp : Reply, rp.WellFormed ∧
      v.server.flat = [ver, c.method] ++ rp.bytes ++ w.server.flat := by
  have hne : ascii "tcp" ≠ ascii "udp" := by simp [ascii]
  rw [c.dialWithLocalAddr_eq lib src dst remoteAddr (Or.inl rfl)] at h
  obtain ⟨laddr, t, hsrc, h⟩ := Failing.exec_bind_eq_ok.mp h
  obtain ⟨tcpConn, u, hnegotiate, h⟩ := Failing.exec_bind_eq_ok.mp h
  rw [Client.useProxy, if_neg hne] at h
  obtain ⟨rp, x, hrequest, h⟩ := Failing.exec_bind_eq_ok.mp h
  obtain ⟨hc', rfl⟩ := Prod.mk.inj h
  obtain rfl := Except.ok.inj hc'
  rw [requestAddress_eq] at hrequest
  obtain ⟨r, y, hparsed, hrequest⟩ := Failing.exec_bind_eq_ok.mp hrequest
  obtain ⟨_, rfl⟩ := Prod.mk.inj hparsed
  obtain ⟨hform, hflat⟩ := request_ok hrequest
  refine ⟨⟨tcpConn, rfl⟩, rfl, rp, hform, ?_⟩
  have hmethod : v.server.flat = [ver, c.method] ++ u.server.flat := by
    rw [← resolveSrc_ok hsrc]
    exact negotiate_ok hnegotiate
  rw [hmethod, hflat, List.append_assoc]

/-- What is fetched over a dialled connection is what the server sends after the two replies
of the handshake, in however many pieces, provided that the stream ends without an error. -/
theorem readFully_dialled {lib : NetLib} {src dst : Bytes} {remoteAddr : Option Bytes}
    {c' : Client} {v w : World} (h : (c.dialWithLocalAddr lib (ascii "tcp") src dst remoteAddr).exec
      (network replies fin) v = (.ok c', w)) :
    ∃ (rp : Reply) (response : Bytes), rp.WellFormed ∧
      v.server.flat = [ver, c.method] ++ rp.bytes ++ response ∧
      ∀ rounds > response.length, ((readFully c' rounds).exec (network replies fin) w).1 =
        if fin = .eof then .ok (some response) else .error fin := by
  obtain ⟨⟨conn, htcp⟩, hudp, rp, hform, hstream⟩ := dial_tcp_ok h
  exact ⟨rp, w.server.flat, hform, hstream, fun rounds hrounds => exec_readFully htcp hudp hrounds⟩

end Read

/-- Two replies and a response of three bytes, cut up inside all of them. -/
def response : Segmented UInt8 :=
  ⟨[[5], [0, 5, 0, 0], [1, 10, 0, 0, 2, 0], [80, 72, 73], [74]], by simp⟩

/-- An instance: three bytes of response behind the two replies. -/
theorem readFully_dialled_response : ∃ c' w,
    Failing.exec (network (agreeable []) .eof) ((newClient [] [] [] 0 0).dialWithLocalAddr namesOnly
      (ascii "tcp") [] (ascii "a:80") none) ⟨0, [], response⟩ = (.ok c', w) ∧
    ∃ (rp : Reply) (data : Bytes), rp.WellFormed ∧
      response.flat = [ver, (newClient [] [] [] 0 0).method] ++ rp.bytes ++ data ∧
      ∀ rounds > data.length, ((readFully c' rounds).exec (network (agreeable []) .eof) w).1 =
        if GoError.eof = .eof then .ok (some data) else .error .eof := by
  have hdial : ∃ c' w, Failing.exec (network (agreeable []) .eof)
      ((newClient [] [] [] 0 0).dialWithLocalAddr namesOnly (ascii "tcp") [] (ascii "a:80") none)
      ⟨0, [], response⟩ = (.ok c', w) := by
    rw [Client.dialWithLocalAddr_eq _ _ _ _ _ (Or.inl rfl)]
    exact ⟨_, _, rfl⟩
  obtain ⟨c', w, hdial⟩ := hdial
  exact ⟨c', w, hdial, readFully_dialled hdial⟩

/-! ## What is left open -/

section Opened

variable {o : Outcomes} {c : Client} {s : Sockets}

/-- Reading opens and closes nothing. -/
theorem opened_read (c : Client) (len : ℕ) (s : Sockets) :
    ((c.read len).exec (sockets o) s).2.opened = s.opened := by
  unfold Client.read
  cases c.udpConn with
  | none => cases c.tcpConn <;> rfl
  | some udpConn =>
    have hcall : (.attempt (net (.read udpConn len)) : Go Bytes).exec (sockets o) s =
        (o s.clock (.read udpConn len), s.goto (s.clock + 1)) := rfl
    simp only [Failing.exec_bind, hcall]
    cases o s.clock (.read udpConn len) with
    | error e => rfl
    | ok b =>
      simp only
      rcases newDatagramFromBytes_cases b with hbad | ⟨d, hd, rfl⟩
      · rw [hbad]
        rfl
      · rw [hd.decode]
        rfl

/-- The loop that reads opens and closes nothing. -/
theorem opened_readFullyLoop (c : Client) (rounds : ℕ) (result : Bytes) (s : Sockets) :
    ((readFullyLoop c rounds result).exec (sockets o) s).2.opened = s.opened := by
  induction rounds generalizing s result with
  | zero => rfl
  | succ rounds ih =>
    have hread := opened_read (o := o) c 512 s
    rw [readFullyLoop, Failing.exec_caught]
    cases ((c.read 512).exec (sockets o) s).1 with
    | ok b => exact (ih _ _).trans hread
    | error e => cases e <;> exact hread

/-- Closing depends on the open connections only. -/
theorem opened_close (c : Client) {s t : Sockets} (h : s.opened = t.opened) :
    (c.close.exec (sockets o) s).2.opened = (c.close.exec (sockets o) t).2.opened := by
  unfold Client.close
  cases c.udpConn with
  | none =>
    cases c.tcpConn with
    | none => exact h
    | some tcpConn => exact congrArg (·.erase tcpConn) h
  | some udpConn =>
    cases c.tcpConn with
    | none => exact congrArg (·.erase udpConn) h
    | some tcpConn => exact congrArg (fun opened => (opened.erase tcpConn).erase udpConn) h

/-- Fetching over a dialled connection, in whichever way it ends, leaves open what was open
before the dial. -/
theorem opened_readFully_of_dial {lib : NetLib} {network src dst : Bytes}
    {remoteAddr : Option Bytes} {c' : Client} {t : Sockets}
    (h : (c.dialWithLocalAddr lib network src dst remoteAddr).exec (sockets o) s = (.ok c', t))
    (rounds : ℕ) : ((readFully c' rounds).exec (sockets o) t).2.opened = s.opened := by
  have hloop := opened_readFullyLoop (o := o) c' rounds [] t
  have hclose : (c'.close.exec (sockets o)
      ((readFullyLoop c' rounds []).exec (sockets o) t).2).2.opened = s.opened :=
    (opened_close c' hloop).trans (opened_close_dialled h)
  rw [readFully, Failing.exec_caught, Failing.exec_caught]
  cases ((readFullyLoop c' rounds []).exec (sockets o) t).1 with
  | ok result => exact hclose
  | error e => exact hclose

end Opened

/-- An instance: a connection dialled over UDP is read and closed. -/
theorem opened_readFully_of_dial_granting : ∃ c' t,
    Failing.exec (sockets granting) ((newClient [] [] [] 0 0).dialWithLocalAddr namesOnly
      (ascii "udp") [] (ascii "a:80") none) Sockets.none = (.ok c', t) ∧
    ((readFully c' 3).exec (sockets granting) t).2.opened = Sockets.none.opened := by
  have hdial : ∃ c' t, Failing.exec (sockets granting) ((newClient [] [] [] 0 0).dialWithLocalAddr
      namesOnly (ascii "udp") [] (ascii "a:80") none) Sockets.none = (.ok c', t) := by
    rw [Client.dialWithLocalAddr_eq _ _ _ _ _ (Or.inr rfl)]
    exact ⟨_, _, rfl⟩
  obtain ⟨c', t, hdial⟩ := hdial
  exact ⟨c', t, hdial, opened_readFully_of_dial hdial 3⟩

end HeptaVcn.Socks5
