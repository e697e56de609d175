import HeptaVcn.Machine.Segments
import HeptaVcn.Socks5.Client

/-!
# The handshake consumes the handshake

The client reads the server's stream through `io.ReadFull` only, so neither its result
nor what it leaves unread depends on the pieces in which the stream arrives. What it has
read when it succeeds is one method reply and one complete reply.
-/

namespace HeptaVcn.Socks5

open Machine

/-! ## The world of one connection -/

/-- The calls made so far, what has been written, and what the server still sends. -/
structure World where
  clock : ℕ
  written : List Bytes
  server : Segmented UInt8

/-- The error of `io.ReadFull` when the stream ends after `got`. -/
def readFullError (fin : GoError) (got : Bytes) : GoError :=
  if fin = .eof ∧ got ≠ [] then .unexpectedEOF else fin

namespace World

/-- Reads are answered from the stream, which ends with the error `fin`; all other calls
are answered as the environment likes. -/
def reply (replies : ℕ → (op : NetOp) → op.Reply) (fin : GoError) (w : World) :
    (op : NetOp) → op.Reply
  | .readFull _ len =>
    if h : (w.server.readFull len).1.length = len then .ok ⟨(w.server.readFull len).1, h⟩
    else .error (readFullError fin (w.server.readFull len).1)
  | .read _ len =>
    match (w.server.read len).1 with
    | some b => .ok b
    | none => .error fin
  | op => replies w.clock op

/-- The world after a call. -/
def after (w : World) (op : NetOp) : World where
  clock := w.clock + 1
  written := match op with
    | .write _ bytes => w.written ++ [bytes]
    | _ => w.written
  server := match op with
    | .readFull _ len => (w.server.readFull len).2
    | .read _ len => (w.server.read len).2
    | _ => w.server

/-- Two worlds that differ at most in the pieces of the stream. -/
structure Same (v w : World) : Prop where
  clock : v.clock = w.clock
  written : v.written = w.written
  flat : v.server.flat = w.server.flat

end World

/-- The network around one connection. -/
def network (replies : ℕ → (op : NetOp) → op.Reply) (fin : GoError) : Handler Net World :=
  ⟨World.reply replies fin, World.after⟩

/-- Calls of which none fails; the reads are answered from the stream. -/
def agreeable (laddr : Bytes) (_ : ℕ) : (op : NetOp) → op.Reply
  | .resolveTCPAddr address => .ok address
  | .dialTCP .. | .dialUDP .. => .ok 0
  | .setDeadline .. | .close _ => .ok ()
  | .localAddr _ => laddr
  | .write _ bytes => .ok bytes.length
  | .read .. | .readFull .. => .error .eof

/-- A call that does not read from a connection. -/
def NetOp.Writes : NetOp → Prop
  | .readFull .. | .read .. => False
  | _ => True

/-! ## Rules for the parts that only read -/

/-- A property that holds of returning and of failing, and is kept by sequencing, by reading
all of a buffer and by setting a deadline. -/
structure ReadingRules (P : {α : Type} → Go α → Prop) : Prop where
  pure : ∀ {α : Type} (a : α), P (pure a : Go α)
  throw : ∀ {α : Type} (e : GoError), P (throw e : Go α)
  bind : ∀ {α β : Type} {x : Go α} {f : α → Go β}, P x → (∀ a, P (f a)) → P (x >>= f)
  readFull : ∀ conn len, P (.attempt (net (.readFull conn len)) : Go (List.Vector UInt8 len))
  setDeadline : ∀ conn seconds, P (.attempt (net (.setDeadline conn seconds)) : Go Unit)

namespace ReadingRules

variable {P : {α : Type} → Go α → Prop}

/-- The rules cover a test between two programs. -/
theorem ite {α : Type} {p : Prop} [Decidable p] {x y : Go α} (hx : P x) (hy : P y) :
    P (if p then x else y) := by
  split
  · exact hx
  · exact hy

/-- Reading a method reply only reads. -/
theorem newNegotiationReplyFrom (h : ReadingRules P) (conn : ℕ) :
    P (newNegotiationReplyFrom conn) := by
  apply h.bind (h.readFull conn 2)
  intro bb
  exact ite (h.throw _) (h.pure _)

/-- Reading a bound address only reads. -/
theorem readBndAddr (h : ReadingRules P) (conn : ℕ) (atyp : UInt8) : P (readBndAddr conn atyp) := by
  have hfixed : ∀ len, P (do
      let addr ← .attempt (net (.readFull conn len))
      Pure.pure addr.toList : Go Bytes) := by
    intro len
    apply h.bind (h.readFull conn len)
    intro addr
    exact h.pure _
  refine ite (hfixed 4) (ite (hfixed 16) (ite ?_ (h.throw _)))
  apply h.bind (h.readFull conn 1)
  intro dal
  refine ite (h.throw _) ?_
  apply h.bind (h.readFull conn _)
  intro addr
  exact h.pure _

/-- Reading a reply only reads. -/
theorem newReplyFrom (h : ReadingRules P) (conn : ℕ) : P (newReplyFrom conn) := by
  apply h.bind (h.readFull conn 4)
  intro bb
  refine ite (h.throw _) ?_
  apply h.bind (h.readBndAddr conn _)
  intro addr
  apply h.bind (h.readFull conn 2)
  intro port
  exact h.pure _

/-- Setting a timeout sets at most a deadline. -/
theorem setTimeout (h : ReadingRules P) (conn : ℕ) (seconds : ℤ) :
    P (Client.setTimeout conn seconds) :=
  ite (h.setDeadline conn seconds) (h.pure _)

end ReadingRules

/-! ## Programs that do not see the pieces -/

section Oblivious

variable {α β : Type}

/-- Two executions end alike: with the same value in worlds that do not differ, or with an
error both. -/
inductive Agree : Except GoError α × World → Except GoError α × World → Prop where
  | ok (a : α) {v w : World} (h : v.Same w) : Agree (.ok a, v) (.ok a, w)
  | error (e e' : GoError) {v w : World} : Agree (.error e, v) (.error e', w)

/-- The program does not see the pieces in which the stream arrives. -/
def Oblivious (x : Go α) : Prop :=
  ∀ replies fin fin' v w, World.Same v w →
    Agree (x.exec (network replies fin) v) (x.exec (network replies fin') w)

/-- Returning does not see the pieces. -/
theorem oblivious_pure (a : α) : Oblivious (pure a) :=
  fun _ _ _ _ _ h => .ok a h

/-- Failing does not see the pieces. -/
theorem oblivious_throw (e : GoError) : Oblivious (throw e : Go α) :=
  fun _ _ _ _ _ _ => .error e e

/-- A chain of programs that do not see the pieces does not see them. -/
theorem oblivious_bind {x : Go α} {f : α → Go β} (hx : Oblivious x)
    (hf : ∀ a, Oblivious (f a)) : Oblivious (x >>= f) := by
  intro replies fin fin' v w h
  rw [Failing.exec_bind, Failing.exec_bind]
  have hagree := hx replies fin fin' v w h
  revert hagree
  generalize x.exec (network replies fin) v = out
  generalize x.exec (network replies fin') w = out'
  intro hagree
  cases hagree with
  | ok a h => exact hf a replies fin fin' _ _ h
  | error e e' => exact .error e e'

/-- Worlds that differ only in the pieces still do after a write or a full read. -/
theorem World.Same.after {v w : World} (h : v.Same w) (op : NetOp)
    (hop : op.Writes ∨ ∃ conn len, op = .readFull conn len) : (v.after op).Same (w.after op) where
  clock := by simp only [World.after, h.clock]
  written := by simp only [World.after, h.written]
  flat := by
    rcases hop with hop | ⟨conn, len, rfl⟩
    · cases op <;> first | exact h.flat | exact hop.elim
    · simp only [World.after, Segmented.flat_readFull, h.flat]

/-- Writing does not see the pieces. -/
theorem oblivious_call {op : NetOp} (hop : op.Writes) (f : op.Reply → Except GoError α) :
    Oblivious (.attempt (.call op fun r => .done (f r)) : Go α) := by
  intro replies fin fin' v w h
  have hreply : ∀ fin u, World.reply replies fin u op = replies u.clock op := by
    intro fin u
    cases op <;> first | rfl | exact hop.elim
  change Agree (f (World.reply replies fin v op), v.after op)
    (f (World.reply replies fin' w op), w.after op)
  rw [hreply, hreply, h.clock]
  cases f (replies w.clock op) with
  | ok a => exact .ok a (h.after op (Or.inl hop))
  | error e => exact .error e e

/-- A full read does not see the pieces. -/
theorem oblivious_readFull (conn len : ℕ) :
    Oblivious (.attempt (net (.readFull conn len)) : Go (List.Vector UInt8 len)) := by
  intro replies fin fin' v w h
  change Agree (World.reply replies fin v (.readFull conn len), v.after (.readFull conn len))
    (World.reply replies fin' w (.readFull conn len), w.after (.readFull conn len))
  have hfst : (v.server.readFull len).1 = (w.server.readFull len).1 := by
    rw [Segmented.readFull_fst, Segmented.readFull_fst, h.flat]
  have hafter := h.after (.readFull conn len) (Or.inr ⟨conn, len, rfl⟩)
  simp only [World.reply, hfst]
  split
  case isTrue => exact .ok _ hafter
  case isFalse => exact .error _ _

/-- What reads only whole buffers does not see the pieces. -/
theorem readingRules_oblivious : ReadingRules Oblivious where
  pure := oblivious_pure
  throw := oblivious_throw
  bind := oblivious_bind
  readFull := oblivious_readFull
  setDeadline conn seconds := @oblivious_call _ (.setDeadline conn seconds) trivial id

/-- The negotiation does not see the pieces. -/
theorem oblivious_negotiate (c : Client) (laddr : Option Bytes) :
    Oblivious (c.negotiate laddr) := by
  refine oblivious_bind (@oblivious_call _ (.dialTCP _ _) trivial id) fun tcpConn => ?_
  refine oblivious_bind (readingRules_oblivious.setTimeout tcpConn c.tcpTimeout) fun _ => ?_
  refine oblivious_bind (@oblivious_call _ (.write _ _) trivial id) fun _ => ?_
  refine oblivious_bind (readingRules_oblivious.newNegotiationReplyFrom tcpConn) fun rp => ?_
  exact ReadingRules.ite (oblivious_throw _) (oblivious_pure _)

/-- The request does not see the pieces. -/
theorem oblivious_request (tcpConn : ℕ) (r : Request) :
    Oblivious (Client.request tcpConn r) := by
  refine oblivious_bind (@oblivious_call _ (.write _ _) trivial id) fun _ => ?_
  refine oblivious_bind (readingRules_oblivious.newReplyFrom tcpConn) fun rp => ?_
  exact ReadingRules.ite (oblivious_throw _) (oblivious_pure _)

end Oblivious

/-! ## What is read on the way to success -/

/-- The bytes are an address of the form that the type announces: four or sixteen bytes, or
a name after the byte of its length. -/
def AddressOf (atyp : UInt8) (addr : Bytes) : Prop :=
  (atyp = atypIPv4 ∧ addr.length = 4) ∨ (atyp = atypIPv6 ∧ addr.length = 16) ∨
    atyp = atypDomain ∧ ∃ name, addr = byteLen name :: name ∧ 1 ≤ name.length ∧ name.length ≤ 255

/-- A name stands after the byte of its length, which is not zero. -/
theorem addressOf_name_iff {l : UInt8} {name : Bytes} :
    AddressOf atypDomain (l :: name) ↔ l ≠ 0 ∧ name.length = l.toNat := by
  constructor
  · rintro (⟨hform, _⟩ | ⟨hform, _⟩ | ⟨_, name', hname, hpos, hle⟩)
    · cases hform
    · cases hform
    · obtain ⟨rfl, rfl⟩ := List.cons.inj hname
      have hlength := byteLen_toNat hle
      refine ⟨fun hzero => ?_, hlength.symm⟩
      rw [hzero, UInt8.toNat_zero] at hlength
      omega
  · rintro ⟨hl, hlength⟩
    have hlt := l.toNat_lt
    have hne : l.toNat ≠ 0 := fun hzero => hl (UInt8.toNat_inj.mp hzero)
    have hbyte : byteLen name = l := by rw [byteLen, hlength, UInt8.ofNat_toNat]
    exact Or.inr (Or.inr ⟨rfl, name, by rw [hbyte], by omega, by omega⟩)

/-- The bytes of a reply as the server sends it. -/
def Reply.bytes (r : Reply) : Bytes := [r.ver, r.rep, r.rsv, r.atyp] ++ r.bndAddr ++ r.bndPort

/-- A complete reply of the protocol. -/
structure Reply.WellFormed (r : Reply) : Prop where
  ver : r.ver = Socks5.ver
  address : AddressOf r.atyp r.bndAddr
  port : r.bndPort.length = 2

section Consumed

variable {replies : ℕ → (op : NetOp) → op.Reply} {fin : GoError} {v w : World} {conn : ℕ}

/-- A filled buffer is what stood first in the stream. -/
theorem exec_readFull_ok {len : ℕ} {b : List.Vector UInt8 len}
    (h : (.attempt (net (.readFull conn len)) : Go _).exec (network replies fin) v = (.ok b, w)) :
    v.server.flat = b.toList ++ w.server.flat := by
  obtain ⟨hreply, hafter⟩ := Prod.mk.inj h
  have hw : w.server.flat = v.server.flat.drop len := by
    rw [← hafter]
    exact Segmented.flat_readFull v.server len
  have hb : b.toList = v.server.flat.take len := by
    change World.reply replies fin v (.readFull conn len) = .ok b at hreply
    simp only [World.reply] at hreply
    split at hreply
    case isTrue hlen =>
      rw [← Except.ok.inj hreply, ← Segmented.readFull_fst]
      rfl
    case isFalse => cases hreply
  rw [hb, hw, List.take_append_drop]

/-- A call that does not read leaves the stream as it is. -/
theorem exec_call_ok {α : Type} {op : NetOp} (hop : op.Writes) {f : op.Reply → Except GoError α}
    {a : α} (h : Failing.exec (network replies fin)
      (.attempt (.call op fun r => .done (f r)) : Go α) v = (.ok a, w)) :
    w.server = v.server := by
  obtain ⟨_, hafter⟩ := Prod.mk.inj h
  rw [← hafter]
  cases op <;> first | rfl | exact hop.elim

/-- A method reply that is read takes its two bytes from the stream. -/
theorem newNegotiationReplyFrom_ok {rp : NegotiationReply}
    (h : (newNegotiationReplyFrom conn).exec (network replies fin) v = (.ok rp, w)) :
    v.server.flat = [ver, rp.method] ++ w.server.flat := by
  obtain ⟨bb, t, hread, h⟩ := Failing.exec_bind_eq_ok.mp h
  have hstream := exec_readFull_ok hread
  split at h
  · cases h
  case isFalse hver =>
    obtain ⟨hrp, rfl⟩ := Prod.mk.inj h
    obtain rfl := Except.ok.inj hrp
    have hlist : bb.toList = [bb.get 0, bb.get 1] := by
      match bb with
      | ⟨[_, _], _⟩ => rfl
    rw [hstream, hlist, not_not.mp hver]

/-- The bytes of a buffer of four, one by one. -/
theorem toList_four {α : Type*} (v : List.Vector α 4) :
    v.toList = [v.get 0, v.get 1, v.get 2, v.get 3] := by
  match v with
  | ⟨[_, _, _, _], _⟩ => rfl

/-- One read for the bytes of a fixed length. -/
theorem readFixed_ok {len : ℕ} {addr : Bytes}
    (h : (do
      let addr ← .attempt (net (.readFull conn len))
      pure addr.toList : Go Bytes).exec (network replies fin) v = (.ok addr, w)) :
    addr.length = len ∧ v.server.flat = addr ++ w.server.flat := by
  obtain ⟨b, t, hread, h⟩ := Failing.exec_bind_eq_ok.mp h
  obtain ⟨haddr, rfl⟩ := Prod.mk.inj h
  obtain rfl := Except.ok.inj haddr
  exact ⟨b.toList_length, exec_readFull_ok hread⟩

/-- A bound address that is read takes exactly its bytes from the stream. -/
theorem readBndAddr_ok {atyp : UInt8} {addr : Bytes}
    (h : (readBndAddr conn atyp).exec (network replies fin) v = (.ok addr, w)) :
    AddressOf atyp addr ∧ v.server.flat = addr ++ w.server.flat := by
  unfold readBndAddr at h
  split at h
  case isTrue hip4 =>
    obtain ⟨hlength, hflat⟩ := readFixed_ok h
    exact ⟨Or.inl ⟨hip4, hlength⟩, hflat⟩
  split at h
  case isTrue hip6 =>
    obtain ⟨hlength, hflat⟩ := readFixed_ok h
    exact ⟨Or.inr (Or.inl ⟨hip6, hlength⟩), hflat⟩
  split at h
  case isFalse => cases h
  case isTrue hdomain =>
    obtain ⟨dal, t, hdal, h⟩ := Failing.exec_bind_eq_ok.mp h
    split at h
    · cases h
    case isFalse hzero =>
      obtain ⟨b, u, hread, h⟩ := Failing.exec_bind_eq_ok.mp h
      obtain ⟨haddr, rfl⟩ := Prod.mk.inj h
      obtain rfl := Except.ok.inj haddr
      have hlist : dal.toList = [dal.get 0] := by
        match dal with
        | ⟨[_], _⟩ => rfl
      constructor
      · rw [hdomain, hlist]
        exact addressOf_name_iff.mpr ⟨hzero, b.toList_length⟩
      · rw [exec_readFull_ok hdal, exec_readFull_ok hread, List.append_assoc]

/-- A reply that is read is well formed and takes exactly its bytes from the stream. -/
theorem newReplyFrom_ok {rp : Reply}
    (h : (newReplyFrom conn).exec (network replies fin) v = (.ok rp, w)) :
    rp.WellFormed ∧ v.server.flat = rp.bytes ++ w.server.flat := by
  obtain ⟨bb, t, hread, h⟩ := Failing.exec_bind_eq_ok.mp h
  split at h
  · cases h
  case isFalse hver =>
    obtain ⟨addr, u, haddr, h⟩ := Failing.exec_bind_eq_ok.mp h
    obtain ⟨port, x, hport, h⟩ := Failing.exec_bind_eq_ok.mp h
    obtain ⟨hrp, rfl⟩ := Prod.mk.inj h
    obtain rfl := Except.ok.inj hrp
    obtain ⟨hform, hflat⟩ := readBndAddr_ok haddr
    refine ⟨⟨not_not.mp hver, hform, port.toList_length⟩, ?_⟩
    rw [exec_readFull_ok hread, hflat, exec_readFull_ok hport, toList_four]
    simp [Reply.bytes]

/-- Setting the timeout takes nothing from the stream. -/
theorem setTimeout_ok {seconds : ℤ}
    (h : (Client.setTimeout conn seconds).exec (network replies fin) v = (.ok (), w)) :
    w.server = v.server := by
  unfold Client.setTimeout at h
  split at h
  · exact @exec_call_ok _ _ _ _ _ (.setDeadline conn seconds) trivial id _ h
  · obtain ⟨_, rfl⟩ := Prod.mk.inj h
    rfl

/-- A negotiation that succeeds takes a method reply with the offered method from the stream. -/
theorem negotiate_ok {c : Client} {laddr : Option Bytes}
    (h : (c.negotiate laddr).exec (network replies fin) v = (.ok conn, w)) :
    v.server.flat = [ver, c.method] ++ w.server.flat := by
  obtain ⟨tcpConn, t, hdial, h⟩ := Failing.exec_bind_eq_ok.mp h
  obtain ⟨⟨⟩, t', htimeout, h⟩ := Failing.exec_bind_eq_ok.mp h
  obtain ⟨_, u, hwrite, h⟩ := Failing.exec_bind_eq_ok.mp h
  obtain ⟨rp, x, hread, h⟩ := Failing.exec_bind_eq_ok.mp h
  split at h
  · cases h
  case isFalse hmethod =>
    obtain ⟨_, rfl⟩ := Prod.mk.inj h
    have hdialled := @exec_call_ok _ _ _ _ _ (.dialTCP _ _) trivial id _ hdial
    have hwritten := @exec_call_ok _ _ _ _ _ (.write tcpConn _) trivial id _ hwrite
    rw [← hdialled, ← setTimeout_ok htimeout, ← hwritten, newNegotiationReplyFrom_ok hread,
      not_not.mp hmethod]

/-- A request that succeeds takes one well-formed reply from the stream. -/
theorem request_ok {r : Request} {rp : Reply}
    (h : (Client.request conn r).exec (network replies fin) v = (.ok rp, w)) :
    rp.WellFormed ∧ v.server.flat = rp.bytes ++ w.server.flat := by
  obtain ⟨_, t, hwrite, h⟩ := Failing.exec_bind_eq_ok.mp h
  obtain ⟨rp', u, hread, h⟩ := Failing.exec_bind_eq_ok.mp h
  split at h
  · cases h
  · obtain ⟨hrp, rfl⟩ := Prod.mk.inj h
    obtain rfl := Except.ok.inj hrp
    rw [← @exec_call_ok _ _ _ _ _ (.write conn _) trivial id _ hwrite]
    exact newReplyFrom_ok hread

/-- Data that has arrived is there for the next `Read`, from its first byte on. -/
theorem read_ok (c : Client) (conn : ℕ) {len : ℕ} (hlen : 0 < len) (hflat : v.server.flat ≠ []) :
    ∃ data, (({ c with tcpConn := some conn, udpConn := none }.read len).exec
        (network replies fin) v).1 = .ok data ∧ data ≠ [] ∧ data <+: v.server.flat := by
  obtain ⟨data, hread, hne, htaken⟩ := v.server.read_eq_some hlen hflat
  refine ⟨data, ?_, hne, htaken ▸ List.prefix_append _ _⟩
  change World.reply replies fin v (.read conn len) = .ok data
  simp only [World.reply, hread]

end Consumed

/-- `Negotiate` followed by `Request`. -/
def Client.handshake (c : Client) (laddr : Option Bytes) (r : Request) : Go (ℕ × Reply) := do
  let tcpConn ← c.negotiate laddr
  let rp ← Client.request tcpConn r
  pure (tcpConn, rp)

/-- The whole handshake does not see the pieces. -/
theorem oblivious_handshake (c : Client) (laddr : Option Bytes) (r : Request) :
    Oblivious (c.handshake laddr r) :=
  oblivious_bind (oblivious_negotiate c laddr) fun tcpConn =>
    oblivious_bind (oblivious_request tcpConn r) fun _ => oblivious_pure _

/-- The handshake against a server that sends the given stream. -/
def handshakeWith (replies : ℕ → (op : NetOp) → op.Reply) (fin : GoError) (c : Client)
    (laddr : Option Bytes) (r : Request) (server : Segmented UInt8) :
    Except GoError (ℕ × Reply) × World :=
  (c.handshake laddr r).exec (network replies fin) ⟨0, [], server⟩

/-- Whether the handshake succeeds, and with which reply, is a function of the bytes that the
server sends. When it does, exactly the method reply and one complete reply have been read,
and the next `Read` returns data from the first byte of the destination on. -/
theorem handshake_exact (replies : ℕ → (op : NetOp) → op.Reply) (c : Client)
    (laddr : Option Bytes) (r : Request) :
    ∃ outcome : Bytes → Option (ℕ × Reply), ∀ fin server,
      (handshakeWith replies fin c laddr r server).1.toOption = outcome server.flat ∧
      ∀ conn rp rest, handshakeWith replies fin c laddr r server = (.ok (conn, rp), rest) →
        rp.WellFormed ∧
        server.flat = [ver, c.method] ++ rp.bytes ++ rest.server.flat ∧
        ∀ len, 0 < len → rest.server.flat ≠ [] →
          ∃ data, (({ c with tcpConn := some conn, udpConn := none }.read len).exec
            (network replies fin) rest).1 = .ok data ∧ data ≠ [] ∧ data <+: rest.server.flat := by
  let whole : Bytes → Segmented UInt8 := fun bytes =>
    if h : bytes = [] then ⟨[], by simp⟩ else ⟨[bytes], by simpa using h⟩
  have hwhole : ∀ bytes, (whole bytes).flat = bytes := by
    intro bytes
    by_cases h : bytes = [] <;> simp [whole, h, Segmented.flat]
  refine ⟨fun bytes => (handshakeWith replies .eof c laddr r (whole bytes)).1.toOption,
    fun fin server => ⟨?_, ?_⟩⟩
  · have hsame : World.Same ⟨0, [], server⟩ ⟨0, [], whole server.flat⟩ :=
      ⟨rfl, rfl, (hwhole server.flat).symm⟩
    have hagree := oblivious_handshake c laddr r replies fin .eof _ _ hsame
    change (handshakeWith replies fin c laddr r server).1.toOption =
      (handshakeWith replies .eof c laddr r (whole server.flat)).1.toOption
    unfold handshakeWith
    revert hagree
    generalize (c.handshake laddr r).exec (network replies fin) ⟨0, [], server⟩ = out
    generalize (c.handshake laddr r).exec (network replies .eof) ⟨0, [], whole server.flat⟩ = out'
    intro hagree
    cases hagree <;> rfl
  · intro conn rp rest h
    obtain ⟨conn', t, hnegotiate, h⟩ := Failing.exec_bind_eq_ok.mp h
    obtain ⟨rp', u, hrequest, h⟩ := Failing.exec_bind_eq_ok.mp h
    obtain ⟨hpair, rfl⟩ := Prod.mk.inj h
    obtain ⟨rfl, rfl⟩ := Prod.mk.inj (Except.ok.inj hpair)
    obtain ⟨hform, hflat⟩ := request_ok hrequest
    refine ⟨hform, ?_, fun len hlen hrest => read_ok c conn' hlen hrest⟩
    have hstream : server.flat = [ver, c.method] ++ t.server.flat := negotiate_ok hnegotiate
    rw [hstream, hflat, List.append_assoc]

/-- Pieces that end inside the method reply, the header and the address. -/
example : (handshakeWith (agreeable []) .eof (newClient [] [] [] 0 0) none
    (newRequest cmdConnect atypIPv4 [10, 0, 0, 2] [0, 80])
    ⟨[[5], [0, 5, 0], [0, 1, 10, 0], [0, 1, 0, 80, 72]], by simp⟩).1.toOption =
      some (0, ⟨5, 0, 0, 1, [10, 0, 0, 1], [0, 80]⟩) := by rfl

end HeptaVcn.Socks5
