import HeptaVcn.Socks5.Handshake

/-!
# The destination in a request

`ParseAddress` drops the error of `Atoi`, and both the port and the length of a name are
cut to their fields. The request of a connection therefore carries its destination exactly
when the number is a port and a name fits behind its length byte. The request of an
association carries the local address, whatever the destination is.
-/

namespace HeptaVcn.Socks5

open Machine

/-! ## Destinations and how a server decodes them -/

/-- A host, as a request names it. -/
inductive Host where
  | ip (ip : IP)
  | domain (name : Bytes)
  deriving DecidableEq

/-- Where a request asks to go. -/
structure Destination where
  host : Host
  port : ℕ
  deriving DecidableEq

/-- An IPv4 address in its sixteen-byte form. -/
def IP.ofV4 (b : Bytes) (h : b.length = 4) : IP := ⟨v4InV6Prefix ++ b, by simp [v4InV6Prefix, h]⟩

/-- Decode an address of the form that its type announces, with what follows it. -/
def decodeAddress (atyp : UInt8) (bytes : Bytes) : Option (Host × Bytes) :=
  if atyp = atypIPv4 then
    if h : (bytes.take 4).length = 4 then some (.ip (.ofV4 (bytes.take 4) h), bytes.drop 4)
    else none
  else if atyp = atypIPv6 then
    if h : (bytes.take 16).length = 16 then some (.ip ⟨bytes.take 16, h⟩, bytes.drop 16)
    else none
  else if atyp = atypDomain then
    match bytes with
    | [] => none
    | n :: rest =>
      if n = 0 ∨ rest.length < n.toNat then none
      else some (.domain (rest.take n.toNat), rest.drop n.toNat)
  else none

/-- Decode a request: its command and its destination, with nothing after the port. -/
def decodeRequest : Bytes → Option (UInt8 × Destination)
  | v :: cmd :: rsv :: atyp :: rest =>
    if v = ver ∧ rsv = 0 then
      match decodeAddress atyp rest with
      | some (host, [hi, lo]) => some (cmd, ⟨host, uint16 hi lo⟩)
      | _ => none
    else none
  | _ => none

/-- The port that a text writes, if it is one. -/
def portOf (p : Bytes) : Option ℕ :=
  if (atoi p).2 ∧ 0 ≤ (atoi p).1 ∧ (atoi p).1 ≤ 65535 then some (atoi p).1.toNat else none

/-- The host that a text writes, if a request can carry it. -/
def hostOf (lib : NetLib) (h : Bytes) : Option Host :=
  match lib.parseIP h with
  | some ip => some (.ip ip)
  | none => if 1 ≤ h.length ∧ h.length ≤ 255 then some (.domain h) else none

/-- The destination that a text names, if a request can carry it. -/
def named (lib : NetLib) (text : Bytes) : Option Destination :=
  match splitHostPort text with
  | none => none
  | some (h, p) =>
    match hostOf lib h, portOf p with
    | some host, some port => some ⟨host, port⟩
    | _, _ => none

/-! ## What a request carries -/

/-- The bytes of a port that fits decode to it. -/
theorem putUint16_of_portOf {p : Bytes} {n : ℕ} (h : portOf p = some n) :
    ∃ hi lo, putUint16 (atoi p).1 = [hi, lo] ∧ uint16 hi lo = n := by
  unfold portOf at h
  split at h
  case isFalse => cases h
  case isTrue hport =>
    obtain ⟨_, hnonneg, hle⟩ := hport
    obtain rfl := Option.some.inj h
    have hmod : (atoi p).1 % 65536 = (atoi p).1 := Int.emod_eq_of_lt hnonneg (by omega)
    have hlt : (atoi p).1.toNat < 65536 := by omega
    refine ⟨_, _, rfl, ?_⟩
    rw [hmod]
    generalize (atoi p).1.toNat = n at hlt
    have hhi : (UInt8.ofNat (n / 256)).toNat = n / 256 := by
      rw [UInt8.toNat_ofNat']
      omega
    have hlo : (UInt8.ofNat n).toNat = n % 256 := UInt8.toNat_ofNat'
    unfold uint16
    omega

/-- The four bytes of an IPv4 address give it back. -/
theorem ofV4_to4 {ip : IP} {ip4 : Bytes} (h : ip.to4 = some ip4) :
    ∃ hlen : ip4.length = 4, IP.ofV4 ip4 hlen = ip := by
  unfold IP.to4 at h
  split at h
  case isFalse => cases h
  case isTrue hstart =>
    obtain rfl := Option.some.inj h
    have hlen : (ip.bytes.drop 12).length = 4 := by rw [List.length_drop, ip.length_eq]
    refine ⟨hlen, ?_⟩
    have hbytes : v4InV6Prefix ++ ip.bytes.drop 12 = ip.bytes := by
      rw [← hstart, List.take_append_drop]
    cases ip with
    | mk bytes length_eq => exact IP.mk.injEq .. ▸ hbytes

/-- The length byte that is taken off a name is put back. -/
theorem restore_name {atyp : UInt8} {addr : Bytes} (h : AddressOf atyp addr) :
    (if atyp = atypDomain then
        byteLen (if atyp = atypDomain then addr.drop 1 else addr) ::
          (if atyp = atypDomain then addr.drop 1 else addr)
      else (if atyp = atypDomain then addr.drop 1 else addr)) = addr := by
  rcases h with ⟨rfl, _⟩ | ⟨rfl, _⟩ | ⟨rfl, name, rfl, _⟩ <;> rfl

/-- Decoding an address does not look at what follows it. -/
theorem decodeAddress_append {atyp : UInt8} {bytes rest : Bytes} {host : Host} (more : Bytes)
    (h : decodeAddress atyp bytes = some (host, rest)) :
    decodeAddress atyp (bytes ++ more) = some (host, rest ++ more) := by
  have htake {k : ℕ} (hk : (bytes.take k).length = k) : (bytes ++ more).take k = bytes.take k ∧
      (bytes ++ more).drop k = bytes.drop k ++ more := by
    have hle : k ≤ bytes.length := by
      rw [List.length_take] at hk
      omega
    exact ⟨List.take_append_of_le_length hle, List.drop_append_of_le_length hle⟩
  unfold decodeAddress at h ⊢
  split at h
  case isTrue hv4 =>
    split at h
    case isFalse => cases h
    case isTrue hlength =>
      obtain ⟨hfirst, hrest⟩ := htake hlength
      simp only [hfirst, hrest, hlength, hv4]
      cases h
      rfl
  split at h
  case isTrue hv4 hv6 =>
    split at h
    case isFalse => cases h
    case isTrue hlength =>
      obtain ⟨hfirst, hrest⟩ := htake hlength
      simp only [hfirst, hrest, hlength, hv6]
      cases h
      rfl
  split at h
  case isFalse => cases h
  case isTrue hv4 hv6 hdomain =>
    cases bytes with
    | nil => cases h
    | cons n name =>
      rw [List.cons_append]
      simp only [hdomain] at h ⊢
      split at h
      case isTrue => cases h
      case isFalse hroom =>
        obtain ⟨hzero, hlt⟩ := not_or.mp hroom
        have hle : n.toNat ≤ name.length := not_lt.mp hlt
        have hroom' : ¬(n = 0 ∨ (name ++ more).length < n.toNat) := by
          rw [List.length_append]
          exact not_or.mpr ⟨hzero, by omega⟩
        simp only [if_neg hroom', List.take_append_of_le_length hle,
          List.drop_append_of_le_length hle]
        cases h
        rfl

/-- A host that a request can carry is parsed to an address that decodes to it, whatever the
port is. -/
theorem parseAddress_of_hostOf {lib : NetLib} {text h p : Bytes} {host : Host}
    (hsplit : splitHostPort text = some (h, p)) (hhost : hostOf lib h = some host) :
    ∃ atyp addr, parseAddress lib text = .ok (atyp, addr, putUint16 (atoi p).1) ∧
      AddressOf atyp addr ∧ decodeAddress atyp addr = some (host, []) := by
  unfold hostOf at hhost
  cases hip : lib.parseIP h with
  | some ip =>
    simp only [hip] at hhost
    obtain rfl := Option.some.inj hhost
    cases hto4 : ip.to4 with
    | some ip4 =>
      obtain ⟨hlen, hip4⟩ := ofV4_to4 hto4
      refine ⟨atypIPv4, ip4, ?_, Or.inl ⟨rfl, hlen⟩, ?_⟩
      · simp only [parseAddress, hsplit, hip, hto4]
      · simp [decodeAddress, ← hlen, hip4]
    | none =>
      refine ⟨atypIPv6, ip.bytes, ?_, Or.inr (Or.inl ⟨rfl, ip.length_eq⟩), ?_⟩
      · simp only [parseAddress, hsplit, hip, hto4]
      · simp [decodeAddress, atypIPv4, atypIPv6, ← ip.length_eq]
  | none =>
    simp only [hip] at hhost
    split at hhost
    case isFalse => cases hhost
    case isTrue hlength =>
      obtain rfl := Option.some.inj hhost
      have hform : AddressOf atypDomain (byteLen h :: h) := Or.inr (Or.inr ⟨rfl, h, rfl, hlength⟩)
      obtain ⟨hne, hbyte⟩ := addressOf_name_iff.mp hform
      refine ⟨atypDomain, byteLen h :: h, ?_, hform, ?_⟩
      · simp only [parseAddress, hsplit, hip]
      · simp [decodeAddress, atypIPv4, atypIPv6, atypDomain, hne, ← hbyte]

/-- A text that names a destination is parsed to an address and a port that decode to it. -/
theorem parseAddress_of_named {lib : NetLib} {text : Bytes} {d : Destination}
    (h : named lib text = some d) :
    ∃ atyp addr hi lo, parseAddress lib text = .ok (atyp, addr, [hi, lo]) ∧ AddressOf atyp addr ∧
      decodeAddress atyp addr = some (d.host, []) ∧ uint16 hi lo = d.port := by
  unfold named at h
  split at h
  case h_1 => cases h
  case h_2 host port hsplit =>
    split at h
    case h_2 => cases h
    case h_1 host' n hhost hport =>
      obtain rfl := Option.some.inj h
      obtain ⟨hi, lo, hbytes, rfl⟩ := putUint16_of_portOf hport
      obtain ⟨atyp, addr, hparse, hform, hdecode⟩ := parseAddress_of_hostOf hsplit hhost
      rw [hbytes] at hparse
      exact ⟨atyp, addr, hi, lo, hparse, hform, hdecode, rfl⟩

/-- The request for the destination that a text names, as `DialWithLocalAddr` builds it. -/
def requestFor (lib : NetLib) (cmd : UInt8) (text : Bytes) : Except GoError Request :=
  (parseAddress lib text).map fun (a, h, p) =>
    newRequest cmd a (if a = atypDomain then h.drop 1 else h) p

/-- A text that names a destination gives a request that decodes to it. -/
theorem decode_requestFor {lib : NetLib} {text : Bytes} {d : Destination} (cmd : UInt8)
    (h : named lib text = some d) :
    ∃ r, requestFor lib cmd text = .ok r ∧ decodeRequest r.bytes = some (cmd, d) := by
  obtain ⟨atyp, addr, hi, lo, hparse, hform, hdecode, hport⟩ := parseAddress_of_named h
  let r : Request := ⟨ver, cmd, 0, atyp, addr, [hi, lo]⟩
  have hbuilt : newRequest cmd atyp (if atyp = atypDomain then addr.drop 1 else addr) [hi, lo] =
      r := congrArg (Request.mk ver cmd 0 atyp · [hi, lo]) (restore_name hform)
  refine ⟨r, ?_, ?_⟩
  · rw [requestFor, hparse, ← hbuilt]
    rfl
  · simp [r, Request.bytes, decodeRequest, decodeAddress_append [hi, lo] hdecode, hport]

/-! ## What a program writes -/

section Emits

variable {α β : Type} {replies : ℕ → (op : NetOp) → op.Reply} {fin : GoError}
  {P : List Bytes → Except GoError α → Prop} {Q : List Bytes → Except GoError β → Prop}

/-- Whatever the world, what the program writes in it and how it ends satisfy `P`. -/
def Emits (replies : ℕ → (op : NetOp) → op.Reply) (fin : GoError) (x : Go α)
    (P : List Bytes → Except GoError α → Prop) : Prop :=
  ∀ w, ∃ sent, (x.exec (network replies fin) w).2.written = w.written ++ sent ∧
    P sent (x.exec (network replies fin) w).1

/-- The program writes nothing. -/
abbrev Silent (replies : ℕ → (op : NetOp) → op.Reply) (fin : GoError) (x : Go α) : Prop :=
  Emits replies fin x fun sent _ => sent = []

/-- Returning writes nothing. -/
theorem emits_pure {a : α} (h : P [] (.ok a)) : Emits replies fin (pure a) P :=
  fun w => ⟨[], (List.append_nil w.written).symm, h⟩

/-- Failing writes nothing. -/
theorem emits_throw {e : GoError} (h : P [] (.error e)) : Emits replies fin (throw e) P :=
  fun w => ⟨[], (List.append_nil w.written).symm, h⟩

/-- A chain writes what its first part does and then what the rest does; an error of the first part
is the last word. -/
theorem emits_bind {x : Go α} {f : α → Go β} (hx : Emits replies fin x P)
    (herror : ∀ sent e, P sent (.error e) → Q sent (.error e))
    (hok : ∀ sent a, P sent (.ok a) → Emits replies fin (f a) fun more => Q (sent ++ more)) :
    Emits replies fin (x >>= f) Q := by
  intro w
  obtain ⟨sent, hwritten, hpost⟩ := hx w
  rw [Failing.exec_bind]
  generalize x.exec (network replies fin) w = out at hwritten hpost
  obtain ⟨_ | a, v⟩ := out
  · exact ⟨sent, hwritten, herror _ _ hpost⟩
  · obtain ⟨more, hmore, hpost⟩ := hok sent a hpost v
    exact ⟨sent ++ more, by rw [hmore, hwritten, List.append_assoc], hpost⟩

/-- A test emits what its branches do. -/
theorem emits_ite {p : Prop} [Decidable p] {x y : Go α} (hx : Emits replies fin x P)
    (hy : Emits replies fin y P) : Emits replies fin (if p then x else y) P := by
  split
  · exact hx
  · exact hy

/-- What a program emits may be described more loosely. -/
theorem emits_mono {P' : List Bytes → Except GoError α → Prop} {x : Go α}
    (hx : Emits replies fin x P) (h : ∀ sent out, P sent out → P' sent out) :
    Emits replies fin x P' := by
  intro w
  obtain ⟨sent, hwritten, hpost⟩ := hx w
  exact ⟨sent, hwritten, h _ _ hpost⟩

/-- After a part that writes nothing, the rest is all that is written. -/
theorem emits_bind_silent {x : Go α} {f : α → Go β} (hx : Silent replies fin x)
    (herror : ∀ e, Q [] (.error e)) (hf : ∀ a, Emits replies fin (f a) Q) :
    Emits replies fin (x >>= f) Q := by
  apply emits_bind hx
  · rintro sent e rfl
    exact herror e
  · rintro sent a rfl
    exact hf a

/-- A chain of silent programs is silent. -/
theorem silent_bind {x : Go α} {f : α → Go β} (hx : Silent replies fin x)
    (hf : ∀ a, Silent replies fin (f a)) : Silent replies fin (x >>= f) :=
  emits_bind_silent hx (fun _ => rfl) hf

/-- What the write call writes. -/
def NetOp.sent : NetOp → List Bytes
  | .write _ bytes => [bytes]
  | _ => []

/-- A single call writes its own bytes. -/
theorem emits_call {op : NetOp} (f : op.Reply → Except GoError α) :
    Emits replies fin (.attempt (.call op fun r => .done (f r)) : Go α)
      fun sent _ => sent = op.sent := by
  intro w
  refine ⟨op.sent, ?_, rfl⟩
  cases op <;> first | rfl | exact (List.append_nil w.written).symm

/-- What only reads is silent. -/
theorem readingRules_silent : ReadingRules (fun {_} x => Silent replies fin x) where
  pure _ := emits_pure rfl
  throw _ := emits_throw rfl
  bind := silent_bind
  readFull conn len := @emits_call _ _ _ (.readFull conn len) id
  setDeadline conn seconds := @emits_call _ _ _ (.setDeadline conn seconds) id

/-- Resolving the local address writes nothing. -/
theorem silent_resolveSrc (src : Bytes) : Silent replies fin (Client.resolveSrc src) := by
  refine emits_ite ?_ (emits_pure rfl)
  exact silent_bind (@emits_call _ _ _ (.resolveTCPAddr src) id) fun _ => emits_pure rfl

/-- Negotiating writes the offer of one method, and nothing else. -/
theorem emits_negotiate (c : Client) (laddr : Option Bytes) :
    Emits replies fin (c.negotiate laddr) fun sent out =>
      sent <+: [negotiationRequest [c.method]] ∧
        ∀ conn, out = .ok conn → sent = [negotiationRequest [c.method]] := by
  apply emits_bind_silent (@emits_call _ _ _ (.dialTCP _ _) id)
  · exact fun e => ⟨List.nil_prefix, nofun⟩
  intro tcpConn
  apply emits_bind_silent (readingRules_silent.setTimeout tcpConn c.tcpTimeout)
  · exact fun e => ⟨List.nil_prefix, nofun⟩
  rintro ⟨⟩
  apply emits_bind (@emits_call _ _ _ (.write tcpConn _) id)
  · rintro sent e rfl
    exact ⟨List.prefix_rfl, nofun⟩
  rintro sent written rfl
  apply emits_bind_silent (readingRules_silent.newNegotiationReplyFrom tcpConn)
  · exact fun e => ⟨List.prefix_rfl, nofun⟩
  intro rp
  refine emits_ite (emits_throw ⟨List.prefix_rfl, nofun⟩) (emits_pure ⟨List.prefix_rfl, ?_⟩)
  exact fun _ _ => rfl

/-- A request is written in one piece, whatever comes back. -/
theorem emits_request (tcpConn : ℕ) (r : Request) :
    Emits replies fin (Client.request tcpConn r) fun sent _ => sent = [r.bytes] := by
  apply emits_bind (@emits_call _ _ _ (.write tcpConn r.bytes) id)
  · rintro sent e rfl
    rfl
  rintro sent written rfl
  apply emits_bind_silent (readingRules_silent.newReplyFrom tcpConn) fun e => rfl
  intro rp
  exact emits_ite (emits_throw rfl) (emits_pure rfl)

/-- The request written is the one for the text, if there is one. -/
theorem emits_requestAddress (lib : NetLib) (tcpConn : ℕ) (cmd : UInt8) (text : Bytes) :
    Emits replies fin (Client.requestAddress lib tcpConn cmd text) fun sent out =>
      match requestFor lib cmd text with
      | .error e => sent = [] ∧ out = .error e
      | .ok r => sent = [r.bytes] := by
  unfold Client.requestAddress requestFor
  cases parseAddress lib text with
  | error e => exact emits_throw ⟨rfl, rfl⟩
  | ok parts => exact emits_request tcpConn _

end Emits

/-! ## Dialling -/

/-- The text that the code parses for its request: the destination over TCP, and for an
association the local address of the connection. -/
def requestText (network dst laddr : Bytes) : Bytes := if network = ascii "udp" then laddr else dst

/-- The command of the request. -/
def requestCmd (network : Bytes) : UInt8 := if network = ascii "udp" then cmdUDP else cmdConnect

/-- The local address is what the network says it is. -/
theorem emits_localAddr {replies : ℕ → (op : NetOp) → op.Reply} {laddr : Bytes} (fin : GoError)
    (hlocal : ∀ k conn, replies k (.localAddr conn) = laddr) (conn : ℕ) :
    Emits replies fin (liftM (net (.localAddr conn)) : Go Bytes) fun sent out =>
      sent = [] ∧ out = .ok laddr := by
  intro w
  refine ⟨[], (List.append_nil w.written).symm, rfl, ?_⟩
  exact congrArg Except.ok (hlocal w.clock conn)

/-- What follows the negotiation: the request for the text is written, or there is none and
an error is returned. -/
def Requested (lib : NetLib) (cmd : UInt8) (text : Bytes) {α : Type} (sent : List Bytes)
    (out : Except GoError α) : Prop :=
  match requestFor lib cmd text with
  | .error _ => sent = [] ∧ ∃ e, out = .error e
  | .ok r => sent = [r.bytes]

section Dial

variable {replies : ℕ → (op : NetOp) → op.Reply} {fin : GoError} {lib : NetLib}

/-- After the request nothing more is written. -/
theorem emits_requested {cmd : UInt8} {text : Bytes} (conn : ℕ) {f : Reply → Go Client}
    (hf : ∀ rp, Silent replies fin (f rp)) :
    Emits replies fin (Client.requestAddress lib conn cmd text >>= f) (Requested lib cmd text) := by
  unfold Requested
  have hrequest := @emits_requestAddress replies fin lib conn cmd text
  cases hr : requestFor lib cmd text with
  | error e =>
    simp only [hr] at hrequest
    apply emits_bind hrequest
    · rintro sent e' ⟨rfl, _⟩
      exact ⟨rfl, e', rfl⟩
    · rintro sent rp ⟨_, hout⟩
      cases hout
  | ok r =>
    simp only [hr] at hrequest
    apply emits_bind hrequest
    · exact fun sent e h => h
    · rintro sent rp rfl
      apply emits_mono (hf rp)
      rintro more out rfl
      rfl

/-- Over both networks a dial resolves its source, negotiates, and sends the request for the
text. -/
theorem dial_eq {laddr : Bytes} (hlocal : ∀ k conn, replies k (.localAddr conn) = laddr)
    (c : Client) {network : Bytes} (src dst : Bytes) (remoteAddr : Option Bytes)
    (hnetwork : network = ascii "tcp" ∨ network = ascii "udp") :
    ∃ (c' : Client) (f : ℕ → Go Client), c'.method = c.method ∧
      c.dialWithLocalAddr lib network src dst remoteAddr = (do
        let laddr ← Client.resolveSrc src
        let tcpConn ← c'.negotiate laddr
        f tcpConn) ∧
      ∀ conn, Emits replies fin (f conn)
        (Requested lib (requestCmd network) (requestText network dst laddr)) := by
  have hne : ascii "tcp" ≠ ascii "udp" := by simp [ascii]
  unfold Client.dialWithLocalAddr
  rcases hnetwork with rfl | rfl
  · rw [if_pos rfl, requestCmd, requestText, if_neg hne, if_neg hne]
    refine ⟨_, _, rfl, rfl, fun conn => ?_⟩
    exact emits_requested conn fun rp => emits_pure rfl
  · rw [if_neg hne.symm, if_pos rfl, requestCmd, requestText, if_pos rfl, if_pos rfl]
    refine ⟨_, _, rfl, rfl, fun conn => ?_⟩
    apply emits_bind (emits_localAddr fin hlocal conn)
    · rintro sent e ⟨_, hout⟩
      cases hout
    rintro sent src ⟨rfl, hout⟩
    obtain rfl := Except.ok.inj hout
    apply emits_requested conn
    intro rp
    apply silent_bind (@emits_call _ _ _ (.dialUDP src (rp.address lib)) id)
    intro udpConn
    exact silent_bind (readingRules_silent.setTimeout udpConn _) fun _ => emits_pure rfl

/-- A dial fails before its request, or writes its offer and then the request for the text. -/
theorem emits_dial {laddr : Bytes} (hlocal : ∀ k conn, replies k (.localAddr conn) = laddr)
    (c : Client) (network src dst : Bytes) (remoteAddr : Option Bytes) :
    Emits replies fin (c.dialWithLocalAddr lib network src dst remoteAddr) fun sent out =>
      (sent <+: [negotiationRequest [c.method]] ∧ ∃ e, out = .error e) ∨
        (network = ascii "tcp" ∨ network = ascii "udp") ∧
          ∃ r, requestFor lib (requestCmd network) (requestText network dst laddr) = .ok r ∧
            sent = [negotiationRequest [c.method], r.bytes] := by
  by_cases hnetwork : network = ascii "tcp" ∨ network = ascii "udp"
  case neg =>
    obtain ⟨htcp, hudp⟩ := not_or.mp hnetwork
    unfold Client.dialWithLocalAddr
    rw [if_neg htcp, if_neg hudp]
    exact emits_throw (Or.inl ⟨List.nil_prefix, _, rfl⟩)
  case pos =>
    obtain ⟨c', f, hmethod, heq, hf⟩ :=
      @dial_eq replies fin lib laddr hlocal c network src dst remoteAddr hnetwork
    rw [heq]
    apply emits_bind_silent (silent_resolveSrc src)
    · exact fun e => Or.inl ⟨List.nil_prefix, e, rfl⟩
    intro addr
    apply emits_bind (emits_negotiate c' addr)
    · exact fun sent e h => Or.inl ⟨hmethod ▸ h.1, e, rfl⟩
    rintro sent tcpConn ⟨_, hsent⟩
    obtain rfl := hsent tcpConn rfl
    apply emits_mono (hf tcpConn)
    intro more out hrequested
    unfold Requested at hrequested
    rw [hmethod]
    split at hrequested
    case h_1 =>
      obtain ⟨rfl, herror⟩ := hrequested
      exact Or.inl ⟨List.prefix_rfl, herror⟩
    case h_2 r hr =>
      subst hrequested
      exact Or.inr ⟨hnetwork, r, hr, rfl⟩

/-- Where no call fails and the server accepts the method, a dial gets as far as its request. -/
theorem exec_opened_agreeable (laddr : Bytes) (c : Client) (src : Bytes) (f : ℕ → Go Client) :
    ∃ w : World, w.written = [negotiationRequest [c.method]] ∧ (do
      let addr ← Client.resolveSrc src
      let tcpConn ← c.negotiate addr
      f tcpConn : Go Client).exec (network (agreeable laddr) .eof)
        ⟨0, [], ⟨[[ver, c.method]], by simp⟩⟩ = (f 0).exec (network (agreeable laddr) .eof) w := by
  have hsrc : ∀ w : World, ∃ addr k,
      (Client.resolveSrc src).exec (network (agreeable laddr) .eof) w =
        (.ok addr, ⟨k, w.written, w.server⟩) := by
    intro w
    unfold Client.resolveSrc
    split
    · exact ⟨_, _, rfl⟩
    · exact ⟨_, _, rfl⟩
  have htimeout : ∀ w : World, ∃ k,
      (Client.setTimeout 0 c.tcpTimeout).exec (network (agreeable laddr) .eof) w =
        (.ok (), ⟨k, w.written, w.server⟩) := by
    intro w
    unfold Client.setTimeout
    split
    · exact ⟨_, rfl⟩
    · exact ⟨_, rfl⟩
  obtain ⟨addr, k, hexec⟩ := hsrc ⟨0, [], ⟨[[ver, c.method]], by simp⟩⟩
  obtain ⟨m, hdeadline⟩ := htimeout ⟨k + 1, [], ⟨[[ver, c.method]], by simp⟩⟩
  have hnegotiate : ∃ w : World, w.written = [negotiationRequest [c.method]] ∧
      (c.negotiate addr).exec (network (agreeable laddr) .eof)
        ⟨k, [], ⟨[[ver, c.method]], by simp⟩⟩ = (.ok 0, w) := by
    have hreply : (newNegotiationReplyFrom 0).exec (network (agreeable laddr) .eof)
        ⟨m + 1, [negotiationRequest [c.method]], ⟨[[ver, c.method]], by simp⟩⟩ =
          (.ok ⟨ver, c.method⟩, ⟨m + 2, [negotiationRequest [c.method]], ⟨[], by simp⟩⟩) := rfl
    refine ⟨⟨m + 2, [negotiationRequest [c.method]], ⟨[], by simp⟩⟩, rfl, ?_⟩
    unfold Client.negotiate
    rw [Failing.exec_bind]
    change Failing.exec _ (Client.setTimeout 0 c.tcpTimeout >>= _) (World.mk (k + 1) [] _) = _
    rw [Failing.exec_bind, hdeadline]
    change Failing.exec _ (newNegotiationReplyFrom 0 >>= _)
      (World.mk (m + 1) [negotiationRequest [c.method]] _) = _
    rw [Failing.exec_bind, hreply]
    exact congrArg (fun x : Go ℕ => x.exec _ _) (if_neg (not_not.mpr rfl))
  obtain ⟨w, hwritten, hnegotiate⟩ := hnegotiate
  refine ⟨w, hwritten, ?_⟩
  rw [Failing.exec_bind, hexec]
  simp only [Failing.exec_bind, hnegotiate]

end Dial

/-- What was sent and how the dial ended are what the destination asks for: a request carries
the one that the text names, and a text that names none is refused. -/
structure Carried (lib : NetLib) (offer : Bytes) (cmd : UInt8) (dst : Bytes) (sent : List Bytes)
    (out : Except GoError Client) : Prop where
  request : sent <+: [offer] ∨ ∃ bytes d, sent = [offer, bytes] ∧
    decodeRequest bytes = some (cmd, d) ∧ named lib dst = some d
  refusal : named lib dst = none → sent <+: [offer] ∧ ∃ e, out = .error e

/-- However the network answers, dialling sends what the destination asks for; `laddr` is the
local address of the connection to the server. -/
def CarriesDestination (lib : NetLib) (c : Client) (network src dst laddr : Bytes)
    (remoteAddr : Option Bytes) : Prop :=
  ∀ replies fin server, (∀ k conn, replies k (.localAddr conn) = laddr) →
    let out := (c.dialWithLocalAddr lib network src dst remoteAddr).exec
      (Socks5.network replies fin) ⟨0, [], server⟩
    Carried lib (negotiationRequest [c.method]) (requestCmd network) dst out.2.written out.1

/-- The number after the colon is a port, and a host that is no address fits behind the byte
of its length. -/
def Requestable (lib : NetLib) (text : Bytes) : Prop :=
  ∀ h p, splitHostPort text = some (h, p) →
    (∃ n : ℤ, atoi p = (n, true) ∧ 0 ≤ n ∧ n ≤ 65535) ∧
      (lib.parseIP h = none → 1 ≤ h.length ∧ h.length ≤ 255)

/-- Any text that splits is turned into a request. -/
theorem requestFor_eq_ok {lib : NetLib} {cmd : UInt8} {text : Bytes} :
    (∃ r, requestFor lib cmd text = .ok r) ↔ ∃ parts, splitHostPort text = some parts := by
  cases hsplit : splitHostPort text with
  | none => simp [requestFor, parseAddress, hsplit, Except.map]
  | some parts =>
    have hparse : ∃ a, parseAddress lib text = .ok a := by
      simp only [parseAddress, hsplit]
      split
      · split
        · exact ⟨_, rfl⟩
        · exact ⟨_, rfl⟩
      · exact ⟨_, rfl⟩
    obtain ⟨a, ha⟩ := hparse
    exact iff_of_true ⟨_, by rw [requestFor, ha]; rfl⟩ ⟨parts, rfl⟩

/-- A text that splits and fits a request names a destination. -/
theorem named_of_requestable {lib : NetLib} {text : Bytes} (h : Requestable lib text)
    {parts : Bytes × Bytes} (hsplit : splitHostPort text = some parts) :
    ∃ d, named lib text = some d := by
  obtain ⟨⟨n, hatoi, hnonneg, hle⟩, hname⟩ := h parts.1 parts.2 hsplit
  have hport : portOf parts.2 = some n.toNat := by simp [portOf, hatoi, hnonneg, hle]
  cases hip : lib.parseIP parts.1 with
  | some ip => exact ⟨⟨.ip ip, n.toNat⟩, by simp [named, hsplit, hostOf, hip, hport]⟩
  | none =>
    have hlength := hname hip
    exact ⟨⟨.domain parts.1, n.toNat⟩, by simp [named, hsplit, hostOf, hip, hport, hlength]⟩

/-- A text that names a destination fits a request. -/
theorem requestable_of_named {lib : NetLib} {text : Bytes} {d : Destination}
    (h : named lib text = some d) : Requestable lib text := by
  intro host p hsplit
  simp only [named, hsplit] at h
  split at h
  case h_2 => cases h
  case h_1 host' port hhost hport =>
    constructor
    · unfold portOf at hport
      split at hport
      case isTrue hatoi => exact ⟨_, Prod.ext rfl hatoi.1, hatoi.2.1, hatoi.2.2⟩
      case isFalse => cases hport
    · intro hip
      simp only [hostOf, hip] at hhost
      split at hhost
      case isTrue hlength => exact hlength
      case isFalse => cases hhost

section Exact

variable {lib : NetLib} {c : Client} {network src dst laddr : Bytes} {remoteAddr : Option Bytes}

/-- If every dial is right, so is the one that nothing stops before its request, and the
request that it writes carries the destination. -/
theorem carried_of_carries (hcarries : CarriesDestination lib c network src dst laddr remoteAddr)
    (hnetwork : network = ascii "tcp" ∨ network = ascii "udp") {r : Request}
    (hr : requestFor lib (requestCmd network) (requestText network dst laddr) = .ok r) :
    ∃ d, decodeRequest r.bytes = some (requestCmd network, d) ∧ named lib dst = some d := by
  have hlocal : ∀ k conn, agreeable laddr k (.localAddr conn) = laddr := fun _ _ => rfl
  have hcarried := hcarries (agreeable laddr) .eof ⟨[[ver, c.method]], by simp⟩ hlocal
  obtain ⟨c', f, hmethod, heq, hf⟩ :=
    @dial_eq (agreeable laddr) .eof lib laddr hlocal c network src dst remoteAddr hnetwork
  obtain ⟨w, hwritten, hexec⟩ := exec_opened_agreeable laddr c' src f
  obtain ⟨sent, hsent, hrequested⟩ := hf 0 w
  rw [heq, ← hmethod, hexec] at hcarried
  simp only [hsent, hwritten] at hcarried
  simp only [Requested, hr] at hrequested
  subst hrequested
  -- the request has been written, so the destination must be what it carries
  rcases hcarried.request with hsent | ⟨bytes, d, hbytes, hdecode, hnamed⟩
  · simp at hsent
  · obtain rfl : r.bytes = bytes := by simpa using hbytes
    exact ⟨d, hdecode, hnamed⟩

/-- A connection is right only for a destination that fits a request. -/
theorem requestable_of_carries
    (hcarries : CarriesDestination lib c (ascii "tcp") src dst laddr remoteAddr) :
    Requestable lib dst := by
  intro h p hsplit
  have htext : requestText (ascii "tcp") dst laddr = dst := by simp [requestText, ascii]
  obtain ⟨r, hr⟩ := @requestFor_eq_ok lib (requestCmd (ascii "tcp")) dst |>.mpr ⟨(h, p), hsplit⟩
  obtain ⟨d, _, hnamed⟩ := carried_of_carries hcarries (Or.inl rfl) (by rw [htext]; exact hr)
  exact requestable_of_named hnamed h p hsplit

/-- An association is right only for the destination that the local address names. -/
theorem named_of_carries {here : Destination} (hhere : named lib laddr = some here)
    (hcarries : CarriesDestination lib c (ascii "udp") src dst laddr remoteAddr) :
    named lib dst = some here := by
  have htext : requestText (ascii "udp") dst laddr = laddr := if_pos rfl
  obtain ⟨r, hr, hdecode⟩ := decode_requestFor (requestCmd (ascii "udp")) hhere
  obtain ⟨d, hdecode', hnamed⟩ :=
    carried_of_carries hcarries (Or.inr rfl) (by rw [htext]; exact hr)
  obtain ⟨-, rfl⟩ := Prod.mk.inj (Option.some.inj (hdecode.symm.trans hdecode'))
  exact hnamed

/-- A dial is right when the text that it parses names what the destination names. -/
theorem carries_of_named (h : network = ascii "tcp" ∨ network = ascii "udp" →
      ∀ parts, splitHostPort (requestText network dst laddr) = some parts →
        ∃ d, named lib (requestText network dst laddr) = some d ∧ named lib dst = some d) :
    CarriesDestination lib c network src dst laddr remoteAddr := by
  intro replies fin server hlocal
  obtain ⟨sent, hwritten, hdial⟩ :=
    @emits_dial replies fin lib laddr hlocal c network src dst remoteAddr ⟨0, [], server⟩
  rw [List.nil_append] at hwritten
  simp only [hwritten]
  rcases hdial with ⟨hsent, herror⟩ | ⟨hnetwork, r, hr, rfl⟩
  · exact ⟨Or.inl hsent, fun _ => ⟨hsent, herror⟩⟩
  · obtain ⟨parts, hsplit⟩ := requestFor_eq_ok.mp ⟨r, hr⟩
    obtain ⟨d, hparsed, hnamed⟩ := h hnetwork parts hsplit
    obtain ⟨r', hr', hdecode⟩ := decode_requestFor (requestCmd network) hparsed
    obtain rfl := Except.ok.inj (hr.symm.trans hr')
    refine ⟨Or.inr ⟨r.bytes, d, rfl, hdecode, hnamed⟩, fun hnone => ?_⟩
    rw [hnone] at hnamed
    cases hnamed

/-- A dial sends what its destination asks for, however the network answers, exactly when over
TCP the destination is refused by `SplitHostPort` or fits a request, and over UDP it names the
local address. The local address of a connection is a host with a port. -/
theorem carriesDestination_iff (lib : NetLib) (c : Client) (network src dst laddr : Bytes)
    (remoteAddr : Option Bytes)
    (hhere : network = ascii "udp" → ∃ here, named lib laddr = some here) :
    CarriesDestination lib c network src dst laddr remoteAddr ↔
      (network = ascii "tcp" → Requestable lib dst) ∧
        (network = ascii "udp" → named lib dst = named lib laddr) := by
  constructor
  · intro hcarries
    constructor
    · rintro rfl
      exact requestable_of_carries hcarries
    · rintro rfl
      obtain ⟨here, hlocal⟩ := hhere rfl
      rw [hlocal]
      exact named_of_carries hlocal hcarries
  · rintro ⟨htcp, hudp⟩
    apply carries_of_named
    rintro (rfl | rfl) parts hsplit
    · have htext : requestText (ascii "tcp") dst laddr = dst := by simp [requestText, ascii]
      rw [htext] at hsplit ⊢
      obtain ⟨d, hnamed⟩ := named_of_requestable (htcp rfl) hsplit
      exact ⟨d, hnamed, hnamed⟩
    · obtain ⟨here, hlocal⟩ := hhere rfl
      have htext : requestText (ascii "udp") dst laddr = laddr := if_pos rfl
      rw [htext]
      exact ⟨here, hlocal, (hudp rfl).trans hlocal⟩

end Exact

/-- A library that knows one IPv4 address. -/
def oneClient : NetLib where
  parseIP text :=
    if text = ascii "10.0.0.2" then some ⟨v4InV6Prefix ++ [10, 0, 0, 2], rfl⟩ else none
  ipString bytes := if bytes = [10, 0, 0, 2] then ascii "10.0.0.2" else ascii "?"

/-- An association for the address that the client sends from. -/
theorem carriesDestination_iff_oneClient :
    (∃ here, named oneClient (ascii "10.0.0.2:4000") = some here) ∧
      (CarriesDestination oneClient (newClient (ascii "proxy:1080") [] [] 0 0) (ascii "udp") []
          (ascii "10.0.0.2:4000") (ascii "10.0.0.2:4000") none ↔
        (ascii "udp" = ascii "tcp" → Requestable oneClient (ascii "10.0.0.2:4000")) ∧
          (ascii "udp" = ascii "udp" → named oneClient (ascii "10.0.0.2:4000") =
            named oneClient (ascii "10.0.0.2:4000"))) :=
  have hhere : named oneClient (ascii "10.0.0.2:4000") =
      some ⟨.ip ⟨v4InV6Prefix ++ [10, 0, 0, 2], rfl⟩, 4000⟩ := by decide
  ⟨⟨_, hhere⟩, carriesDestination_iff _ _ _ _ _ _ _ fun _ => ⟨_, hhere⟩⟩

/-- A library for which no text is an address. -/
def namesOnly : NetLib := ⟨fun _ => none, fun bytes => bytes⟩

/-- The request for port 70000 goes out, and it asks for port 4464. -/
theorem not_carriesDestination_wrappedPort :
    (requestFor namesOnly cmdConnect (ascii "host:70000")).toOption.bind
        (fun r => decodeRequest r.bytes) = some (cmdConnect, ⟨.domain (ascii "host"), 4464⟩) ∧
      ¬CarriesDestination namesOnly (newClient (ascii "proxy:1080") [] [] 0 0) (ascii "tcp") []
        (ascii "host:70000") [] none := by
  constructor
  · decide
  · intro hcarries
    obtain ⟨⟨n, hatoi, _, hle⟩, _⟩ := requestable_of_carries hcarries
      (ascii "host") (ascii "70000") (by decide)
    obtain rfl : 70000 = n := congrArg Prod.fst hatoi
    omega

end HeptaVcn.Socks5
