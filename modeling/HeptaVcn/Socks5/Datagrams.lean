import HeptaVcn.Socks5.Handshake

/-!
# Datagrams and their bytes

`NewDatagramFromBytes` accepts exactly the bytes of a well-formed datagram and gives
that datagram back. A datagram without data is not well formed for it, although
`NewDatagram` builds one from an empty payload.
-/

namespace HeptaVcn.Socks5

open Machine

/-- An address as it is passed to `NewDatagram`, a name without its length. -/
def AddressShape (atyp : UInt8) (addr : Bytes) : Prop :=
  (atyp = atypIPv4 ∧ addr.length = 4) ∨ (atyp = atypIPv6 ∧ addr.length = 16) ∨
    (atyp = atypDomain ∧ 1 ≤ addr.length ∧ addr.length ≤ 255)

/-- What `NewDatagramFromBytes` takes for a datagram. -/
structure Datagram.WellFormed (d : Datagram) : Prop where
  rsv : d.rsv.length = 2
  dstAddr : AddressOf d.atyp d.dstAddr
  dstPort : d.dstPort.length = 2
  data : d.data ≠ []

/-! ## The steps of the decoder -/

/-- A value that is there is handed on. -/
theorem pure_bind_go {α β : Type} (a : α) (f : α → Go β) : (pure a >>= f) = f a := rfl

/-- A slice within the buffer does not panic. -/
theorem slice_eq {bb : Bytes} {i j : ℕ} (hij : i ≤ j) (hj : j ≤ bb.length) :
    slice bb i j = pure ((bb.take j).drop i) := if_pos ⟨hij, hj⟩

/-- An index within the buffer does not panic. -/
theorem index_eq {bb : Bytes} {i : ℕ} {b : UInt8} (hb : bb[i]? = some b) :
    index bb i = pure b := by
  rw [index, hb]

/-- A middle part is sliced out by the lengths before and of it. -/
theorem slice_append (front part rest : Bytes) {i j : ℕ} (hi : front.length = i)
    (hj : i + part.length = j) : slice (front ++ (part ++ rest)) i j = pure part := by
  subst hi hj
  rw [slice_eq (by omega) (by simp only [List.length_append]; omega), List.take_length_add_append,
    List.take_left', List.drop_left']
  · rfl
  · rfl

namespace Datagram

variable {d : Datagram}

/-- The fields of a datagram stand one after the other. -/
theorem bytes_eq (d : Datagram) :
    d.bytes = d.rsv ++ (d.frag :: d.atyp :: (d.dstAddr ++ (d.dstPort ++ d.data))) := by
  simp [bytes]

/-- The length of a datagram is that of its header, address, port and payload. -/
theorem length_bytes (d : Datagram) : d.bytes.length =
    d.rsv.length + 2 + d.dstAddr.length + d.dstPort.length + d.data.length := by
  rw [bytes_eq]
  simp only [List.length_append, List.length_cons]
  omega

/-- Once the address is out, the port and the data follow it. -/
theorem WellFormed.rest (hd : d.WellFormed) :
    datagramRest d.bytes d.dstAddr (4 + d.dstAddr.length) = pure d := by
  obtain ⟨rsv, frag, atyp, addr, port, data⟩ := d
  obtain ⟨hrsv, _, hport, hdata⟩ := hd
  obtain ⟨r0, r1, rfl⟩ := List.length_eq_two.mp hrsv
  have hbytes : bytes ⟨[r0, r1], frag, atyp, addr, port, data⟩ =
      r0 :: r1 :: frag :: atyp :: addr ++ (port ++ data) := by simp [bytes]
  have hpos := List.length_pos_iff.mpr hdata
  have hlength := length_bytes ⟨[r0, r1], frag, atyp, addr, port, data⟩
  dsimp only at hport hlength hpos
  have hsliced : slice (bytes ⟨[r0, r1], frag, atyp, addr, port, data⟩)
      (4 + addr.length + 2 - 2) (4 + addr.length + 2) = pure port := by
    rw [hbytes]
    exact slice_append _ port data (by simp; omega) (by omega)
  have hdata' : slice (bytes ⟨[r0, r1], frag, atyp, addr, port, data⟩) (4 + addr.length + 2)
      (bytes ⟨[r0, r1], frag, atyp, addr, port, data⟩).length = pure data := by
    have hcut := slice_append (r0 :: r1 :: frag :: atyp :: addr ++ port) data []
      (i := 4 + addr.length + 2) (by simp; omega) rfl
    rw [hlength, hport]
    rw [List.append_nil, List.append_assoc, ← hbytes] at hcut
    convert hcut using 2
    simp
  rw [datagramRest, if_neg (by rw [hlength, hport]; simp; omega), hsliced, pure_bind_go, hdata']
  rfl

/-- The decoder gives back every well-formed datagram. -/
theorem WellFormed.decode (hd : d.WellFormed) : newDatagramFromBytes d.bytes = pure d := by
  have hlength := length_bytes d
  have hrsv := hd.rsv
  have hport := hd.dstPort
  have hatyp : index d.bytes 3 = pure d.atyp := by
    obtain ⟨r0, r1, hr⟩ := List.length_eq_two.mp hd.rsv
    apply index_eq
    rw [bytes_eq, hr]
    rfl
  have haddr : slice d.bytes 4 (4 + d.dstAddr.length) = pure d.dstAddr := by
    have hcut := slice_append (d.rsv ++ [d.frag, d.atyp]) d.dstAddr (d.dstPort ++ d.data)
      (i := 4) (by simp [hrsv]) rfl
    rw [bytes_eq]
    simpa using hcut
  have hrest := hd.rest
  rw [newDatagramFromBytes, if_neg (by omega), hatyp, pure_bind_go]
  rcases hd.dstAddr with ⟨hform, hfour⟩ | ⟨hform, hsixteen⟩ | ⟨hform, name, hname, _⟩
  · rw [hfour] at haddr hrest
    rw [hform, if_pos rfl, if_neg (by omega), haddr, pure_bind_go, hrest]
  · rw [hsixteen] at haddr hrest
    rw [hform, if_neg (by decide), if_pos rfl, if_neg (by omega), haddr, pure_bind_go, hrest]
  · obtain ⟨hl, hlen⟩ : byteLen name ≠ 0 ∧ name.length = (byteLen name).toNat := by
      have haddress := hd.dstAddr
      rw [hform, hname] at haddress
      exact addressOf_name_iff.mp haddress
    generalize byteLen name = l at hname hl hlen
    have hcut := slice_append (d.rsv ++ [d.frag, d.atyp, l]) name (d.dstPort ++ d.data)
      (i := 5) (j := 5 + l.toNat) (by simp [hrsv]) (by omega)
    have hbytes : d.bytes = d.rsv ++ [d.frag, d.atyp, l] ++ (name ++ (d.dstPort ++ d.data)) := by
      rw [bytes_eq, hname]
      simp
    have hindex : index d.bytes 4 = pure l := by
      obtain ⟨r0, r1, hr⟩ := List.length_eq_two.mp hd.rsv
      apply index_eq
      rw [hbytes, hr]
      rfl
    have haddrLength : d.dstAddr.length = l.toNat + 1 := by rw [hname, List.length_cons, hlen]
    have hused : 4 + (l.toNat + 1) = 5 + l.toNat := by omega
    rw [← hbytes] at hcut
    rw [haddrLength, hname, hused] at hrest
    rw [hform, if_neg (by decide), if_neg (by decide), if_pos rfl, if_neg (by omega), hindex,
      pure_bind_go, if_neg hl, if_neg (by omega), hcut, pure_bind_go, hrest]

/-- The datagram with these first four bytes whose address takes `k` of the following ones. -/
def split (r0 r1 frag atyp : UInt8) (tail : Bytes) (k : ℕ) : Datagram :=
  ⟨[r0, r1], frag, atyp, tail.take k, (tail.drop k).take 2, tail.drop (k + 2)⟩

/-- Splitting a buffer loses none of it. -/
theorem bytes_split (r0 r1 frag atyp : UInt8) (tail : Bytes) (k : ℕ) :
    (split r0 r1 frag atyp tail k).bytes = r0 :: r1 :: frag :: atyp :: tail := by
  have hdrop : tail.drop (k + 2) = (tail.drop k).drop 2 := List.drop_drop.symm
  rw [bytes_eq, split, hdrop]
  simp

/-- What is split behind a well-formed address, with payload left, is well formed. -/
theorem wellFormed_split {r0 r1 frag atyp : UInt8} {tail : Bytes} {k : ℕ}
    (hform : AddressOf atyp (tail.take k)) (hlength : k + 2 < tail.length) :
    (split r0 r1 frag atyp tail k).WellFormed where
  rsv := rfl
  dstAddr := hform
  dstPort := by
    simp only [split, List.length_take, List.length_drop]
    omega
  data := by
    rw [split, ← List.length_pos_iff]
    simp only [List.length_drop]
    omega

end Datagram

/-- Once the type is known, only the length decides: there must be room for the address, the
port and some data. -/
theorem sliced_cases (bb : Bytes) {i j : ℕ} (hij : i ≤ j) (f : Bytes → Bytes) :
    (if bb.length < j then throw .badRequest
      else do
        let addr ← slice bb i j
        datagramRest bb (f addr) j) = (throw .badRequest : Go Datagram) ∨ j + 2 < bb.length := by
  by_cases hshort : bb.length < j
  · exact Or.inl (if_pos hshort)
  · rw [if_neg hshort, slice_eq hij (by omega), pure_bind_go]
    by_cases hrest : bb.length ≤ j + 2
    · exact Or.inl (if_pos hrest)
    · exact Or.inr (by omega)

/-- The decoder either refuses its input or was given the bytes of a well-formed datagram. -/
theorem newDatagramFromBytes_cases (bb : Bytes) :
    newDatagramFromBytes bb = throw .badRequest ∨ ∃ d : Datagram, d.WellFormed ∧ d.bytes = bb := by
  rw [newDatagramFromBytes]
  match bb with
  | [] | [_] | [_, _] | [_, _, _] => exact Or.inl rfl
  | r0 :: r1 :: frag :: atyp :: tail =>
    have hfour : ¬(r0 :: r1 :: frag :: atyp :: tail).length < 4 := by simp
    have hatyp : index (r0 :: r1 :: frag :: atyp :: tail) 3 = pure atyp := rfl
    have hlength : (r0 :: r1 :: frag :: atyp :: tail).length = tail.length + 4 := rfl
    have hwell {k : ℕ} (hform : AddressOf atyp (tail.take k)) (hk : k + 2 < tail.length) :
        ∃ d : Datagram, d.WellFormed ∧ d.bytes = r0 :: r1 :: frag :: atyp :: tail :=
      ⟨_, Datagram.wellFormed_split hform hk, Datagram.bytes_split r0 r1 frag atyp tail k⟩
    rw [if_neg hfour, hatyp, pure_bind_go]
    split
    case isTrue hv4 =>
      refine (sliced_cases _ (by omega) id).imp_right fun hlong => ?_
      rw [hlength] at hlong
      exact hwell (k := 4) (Or.inl ⟨hv4, by rw [List.length_take]; omega⟩) (by omega)
    case isFalse =>
      split
      case isTrue hv6 =>
        refine (sliced_cases _ (by omega) id).imp_right fun hlong => ?_
        rw [hlength] at hlong
        refine hwell (k := 16) (Or.inr (Or.inl ⟨hv6, ?_⟩)) (by omega)
        rw [List.length_take]
        omega
      case isFalse =>
        split
        case isTrue hdomain =>
          cases tail with
          | nil => exact Or.inl rfl
          | cons l name =>
            have hfive : ¬(r0 :: r1 :: frag :: atyp :: l :: name).length < 5 := by simp
            have hindex : index (r0 :: r1 :: frag :: atyp :: l :: name) 4 = pure l := rfl
            rw [if_neg hfive, hindex, pure_bind_go]
            by_cases hl : l = 0
            · exact Or.inl (if_pos hl)
            rw [if_neg hl]
            refine (sliced_cases _ (by omega) (l :: ·)).imp_right fun hlong => ?_
            rw [hlength, List.length_cons] at hlong
            have hform : AddressOf atyp (l :: name.take l.toNat) := by
              rw [hdomain]
              apply addressOf_name_iff.mpr ⟨hl, ?_⟩
              rw [List.length_take]
              omega
            apply hwell (k := l.toNat + 1) hform
            rw [List.length_cons]
            omega
        case isFalse => exact Or.inl rfl

/-- A returned value is no error. -/
theorem pure_ne_throw {α : Type} {a : α} {e : GoError} : (pure a : Go α) ≠ throw e := by
  intro h
  cases h

/-- Programs that return the same return the same value. -/
theorem pure_inj {α : Type} {a b : α} (h : (pure a : Go α) = pure b) : a = b := by
  cases h
  rfl

/-- The decoder never panics, and it returns a datagram exactly for its bytes when it is
well formed: two bytes, a fragment byte, a type byte, an address of its form, two bytes of a
port and some data. -/
theorem newDatagramFromBytes_exact (bb : Bytes) :
    newDatagramFromBytes bb ≠ throw .panic ∧
      ∀ d, newDatagramFromBytes bb = pure d ↔ d.WellFormed ∧ d.bytes = bb := by
  have hdecode {d : Datagram} (hd : d.WellFormed) (hbytes : d.bytes = bb) :
      newDatagramFromBytes bb = pure d := by
    rw [← hbytes]
    exact hd.decode
  rcases newDatagramFromBytes_cases bb with hbad | ⟨d, hd, hbytes⟩
  · refine ⟨?_, fun d => ⟨fun hpure => ?_, fun ⟨hd, hbytes⟩ => hdecode hd hbytes⟩⟩
    · rw [hbad]
      intro h
      cases h
    · rw [hbad] at hpure
      exact absurd hpure.symm pure_ne_throw
  · refine ⟨?_, fun d' => ⟨fun hpure => ?_, fun ⟨hd', hbytes'⟩ => hdecode hd' hbytes'⟩⟩
    · rw [hdecode hd hbytes]
      exact pure_ne_throw
    · rw [hdecode hd hbytes] at hpure
      obtain rfl := pure_inj hpure
      exact ⟨hd, hbytes⟩

/-! ## Datagrams of the client -/

variable {atyp : UInt8} {addr port data : Bytes}

/-- An address of the right shape takes its form in a datagram. -/
theorem AddressShape.form (h : AddressShape atyp addr) :
    AddressOf atyp (newDatagram atyp addr port data).dstAddr := by
  rcases h with ⟨rfl, hlength⟩ | ⟨rfl, hlength⟩ | ⟨rfl, hpos, hle⟩
  · exact Or.inl ⟨rfl, hlength⟩
  · exact Or.inr (Or.inl ⟨rfl, hlength⟩)
  · exact Or.inr (Or.inr ⟨rfl, addr, rfl, hpos, hle⟩)

/-- A datagram for an address of the right shape is well formed if it has a payload. -/
theorem wellFormed_newDatagram (hshape : AddressShape atyp addr) (hport : port.length = 2)
    (hdata : data ≠ []) : (newDatagram atyp addr port data).WellFormed :=
  ⟨rfl, hshape.form, hport, hdata⟩

/-- What `NewDatagram` builds is decoded to itself if and only if it carries some data. -/
theorem newDatagramFromBytes_bytes_iff (hshape : AddressShape atyp addr) (hport : port.length = 2)
    (data : Bytes) :
    newDatagramFromBytes (newDatagram atyp addr port data).bytes =
      pure (newDatagram atyp addr port data) ↔ data ≠ [] := by
  constructor
  · intro hpure hdata
    rcases newDatagramFromBytes_cases (newDatagram atyp addr port data).bytes with
      hbad | ⟨d, hd, hbytes⟩
    · rw [hbad] at hpure
      exact pure_ne_throw hpure.symm
    · rw [← hbytes, hd.decode] at hpure
      obtain rfl := pure_inj hpure
      exact hd.data hdata
  · intro hdata
    exact (wellFormed_newDatagram hshape hport hdata).decode

/-- An instance: two bytes for port 80 of a host with a name. -/
theorem newDatagramFromBytes_bytes_name :
    AddressShape atypDomain [97] ∧ [0, 80].length = 2 ∧
      (newDatagramFromBytes (newDatagram atypDomain [97] [0, 80] [1, 2]).bytes =
        pure (newDatagram atypDomain [97] [0, 80] [1, 2]) ↔ ([1, 2] : Bytes) ≠ []) :=
  have hshape : AddressShape atypDomain [97] := Or.inr (Or.inr (by decide))
  ⟨hshape, rfl, newDatagramFromBytes_bytes_iff hshape rfl [1, 2]⟩

/-- An empty payload is encoded to bytes that the decoder refuses. -/
theorem newDatagramFromBytes_bytes_empty :
    AddressShape atypIPv4 [127, 0, 0, 1] ∧ [0, 80].length = 2 ∧
      newDatagramFromBytes (newDatagram atypIPv4 [127, 0, 0, 1] [0, 80] []).bytes =
        throw .badRequest :=
  ⟨Or.inl ⟨rfl, rfl⟩, rfl, rfl⟩

/-! ## Reading a datagram -/

/-- A UDP socket with the datagrams that have arrived at it: a read takes the first one, of
which a shorter buffer keeps the first bytes. A read into an empty buffer leaves the socket
alone. -/
def udpSocket (replies : (op : NetOp) → op.Reply) : Handler Net (List Bytes) where
  reply
    | _, .read _ 0 => .ok []
    | b :: _, .read _ len => .ok (b.take len)
    | _, op => replies op
  after
    | arrived, .read _ 0 => arrived
    | _ :: arrived, .read .. => arrived
    | arrived, _ => arrived

namespace Client

/-- A read decodes what the buffer keeps of the first datagram. -/
theorem exec_read {c : Client} {conn : ℕ} (hudp : c.udpConn = some conn)
    (replies : (op : NetOp) → op.Reply) (b : Bytes) (arrived : List Bytes) (len : ℕ) :
    (Failing.exec (udpSocket replies) (c.read len) (b :: arrived)) =
      Failing.exec (udpSocket replies) (do
        let d ← newDatagramFromBytes (b.take len)
        pure (d.data.take len)) (if len = 0 then b :: arrived else arrived) := by
  rw [read, hudp]
  cases len with
  | zero => rfl
  | succ len => rfl

/-- A datagram that was cut off is not read as one with the same data: with what was cut off
put back it would be another reading of the same bytes. -/
theorem data_ne_of_cut {d d' : Datagram} (hd : d.WellFormed) (hd' : d'.WellFormed) {rest : Bytes}
    (hrest : rest ≠ []) (hbytes : d'.bytes ++ rest = d.bytes) : d'.data ≠ d.data := by
  intro hdata
  let whole : Datagram := { d' with data := d'.data ++ rest }
  have hwhole : whole.WellFormed :=
    ⟨hd'.rsv, hd'.dstAddr, hd'.dstPort, List.append_ne_nil_of_right_ne_nil _ hrest⟩
  have hbytes' : whole.bytes = d.bytes := by
    rw [← hbytes]
    simp [whole, Datagram.bytes]
  have hsame : whole = d := by
    apply pure_inj
    rw [← hwhole.decode, hbytes', hd.decode]
  have hlength : (d'.data ++ rest).length = d.data.length := by rw [← hsame]
  rw [List.length_append, hdata] at hlength
  have hpos := List.length_pos_iff.mpr hrest
  omega

/-- A read gives the payload of a datagram if and only if the whole datagram, its header
included, fits into the buffer. -/
theorem read_eq_ok_iff {c : Client} {conn : ℕ} (hudp : c.udpConn = some conn)
    (replies : (op : NetOp) → op.Reply) (hshape : AddressShape atyp addr)
    (hport : port.length = 2) (hdata : data ≠ []) (arrived : List Bytes) (len : ℕ) :
    (Failing.exec (udpSocket replies) (c.read len)
        ((newDatagram atyp addr port data).bytes :: arrived)).1 = .ok data ↔
      (newDatagram atyp addr port data).bytes.length ≤ len := by
  have hd := wellFormed_newDatagram hshape hport hdata
  have hlength := (newDatagram atyp addr port data).length_bytes
  have hpayload : (newDatagram atyp addr port data).data = data := rfl
  rw [hpayload] at hlength
  rw [exec_read hudp]
  constructor
  · intro hread
    by_contra hcut
    rcases newDatagramFromBytes_cases ((newDatagram atyp addr port data).bytes.take len) with
      hbad | ⟨d', hd', hbytes⟩
    · rw [hbad] at hread
      cases hread
    · rw [← hbytes, hd'.decode] at hread
      have hread' : d'.data.take len = data := Except.ok.inj hread
      have hfits : d'.data.length ≤ len := by
        have hlength' := d'.length_bytes
        rw [hbytes, List.length_take] at hlength'
        omega
      rw [List.take_of_length_le hfits] at hread'
      have hrest : (newDatagram atyp addr port data).bytes.drop len ≠ [] := by
        rw [Ne, List.drop_eq_nil_iff]
        exact hcut
      apply data_ne_of_cut hd hd' hrest
      · rw [hbytes, List.take_append_drop]
      · exact hread'
  · intro hfits
    rw [List.take_of_length_le hfits, hd.decode]
    have htake : data.take len = data := List.take_of_length_le (by omega)
    exact congrArg Except.ok htake

/-- A client that has dialled over UDP. -/
def udpClient : Client := { newClient [] [] [] 0 0 with tcpConn := some 3, udpConn := some 4 }

/-- An instance: a datagram that just fits into the buffer. -/
theorem read_eq_ok_fits :
    udpClient.udpConn = some 4 ∧ AddressShape atypIPv4 [127, 0, 0, 1] ∧ [0, 80].length = 2 ∧
      ([1, 2] : Bytes) ≠ [] ∧
      ((Failing.exec (udpSocket (agreeable [] 0)) (udpClient.read 12)
          [(newDatagram atypIPv4 [127, 0, 0, 1] [0, 80] [1, 2]).bytes]).1 = .ok [1, 2] ↔
        (newDatagram atypIPv4 [127, 0, 0, 1] [0, 80] [1, 2]).bytes.length ≤ 12) :=
  have hshape : AddressShape atypIPv4 [127, 0, 0, 1] := Or.inl ⟨rfl, rfl⟩
  have hdata : ([1, 2] : Bytes) ≠ [] := by decide
  ⟨rfl, hshape, rfl, hdata, read_eq_ok_iff rfl (agreeable [] 0) hshape rfl hdata [] 12⟩

/-- Of three bytes read into a buffer of twelve only two arrive, without an error. -/
theorem read_cut :
    udpClient.udpConn = some 4 ∧ AddressShape atypIPv4 [127, 0, 0, 1] ∧ [0, 80].length = 2 ∧
      ([1, 2, 3] : Bytes).length ≤ 12 ∧
      (Failing.exec (udpSocket (agreeable [] 0)) (udpClient.read 12)
        [(newDatagram atypIPv4 [127, 0, 0, 1] [0, 80] [1, 2, 3]).bytes]).1 = .ok [1, 2] :=
  ⟨rfl, Or.inl ⟨rfl, rfl⟩, rfl, by decide, rfl⟩

end Client

end HeptaVcn.Socks5
