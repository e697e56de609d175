import HeptaVcn.Socks5.Datagrams

/-!
# An address and its text

`Reply.Address` and `Datagram.Address` write an address as text, `ParseAddress` reads
one. Reading back what was written gives the same address except in three cases: an IPv6
address that holds an IPv4 one, a name with a bracket, and a name that is an IP address.
-/

namespace HeptaVcn.Socks5

open Machine

/-- `Datagram.Address` -/
def Datagram.address (lib : NetLib) (d : Datagram) : Bytes :=
  let s := if d.atyp = atypDomain then d.dstAddr.drop 1 else lib.ipString d.dstAddr
  joinHostPort s (itoa (uint16 (d.dstPort.getD 0 0) (d.dstPort.getD 1 0)))

/-! ## The number of a port -/

/-- A decimal digit is one byte. -/
theorem toNat_digit {c : Char} (hc : c.isDigit = true) :
    (UInt8.ofNat c.toNat).toNat = c.toNat ∧ 48 ≤ c.toNat ∧ c.toNat ≤ 57 := by
  simp only [Char.isDigit, Bool.and_eq_true, decide_eq_true_eq, ge_iff_le,
    UInt32.le_iff_toNat_le] at hc
  have hlow : 48 ≤ c.toNat := hc.1
  have hhigh : c.toNat ≤ 57 := hc.2
  rw [UInt8.toNat_ofNat']
  omega

/-- `Itoa` writes decimal digits. -/
theorem digit_of_mem_itoa {n : ℕ} {b : UInt8} (hb : b ∈ itoa n) :
    48 ≤ b.toNat ∧ b.toNat ≤ 57 := by
  obtain ⟨c, hc, rfl⟩ := List.mem_map.mp hb
  obtain ⟨hbyte, hdigit⟩ := toNat_digit (Nat.isDigit_of_mem_toDigits (by decide) (by decide) hc)
  rwa [hbyte]

/-- No other byte is in the text of a number. -/
theorem notMem_itoa {n : ℕ} {b : UInt8} (hb : b.toNat < 48 ∨ 57 < b.toNat) : b ∉ itoa n := by
  intro hmem
  have hdigit := digit_of_mem_itoa hmem
  omega

/-- One digit more. -/
def addDigit (n : ℕ) (b : UInt8) : ℕ := 10 * n + (b.toNat - 48)

/-- Further digits never make a value smaller. -/
theorem le_foldl_addDigit (digits : Bytes) (n : ℕ) : n ≤ digits.foldl addDigit n := by
  induction digits generalizing n with
  | nil => exact le_rfl
  | cons b rest ih =>
    have hstep : n ≤ addDigit n b := by
      unfold addDigit
      omega
    exact hstep.trans (ih (addDigit n b))

/-- The loop reads digits to their end when their value has 64 bits. -/
theorem parseUintFrom_eq {digits : Bytes} {n : ℕ} (hdigits : ∀ b ∈ digits, 48 ≤ b ∧ b ≤ 57)
    (hle : digits.foldl addDigit n ≤ 18446744073709551615) :
    parseUintFrom n digits = some (digits.foldl addDigit n) := by
  induction digits generalizing n with
  | nil => rfl
  | cons b rest ih =>
    have hfits : ¬18446744073709551615 < 10 * n + (b.toNat - 48) :=
      not_lt.mpr ((le_foldl_addDigit rest (addDigit n b)).trans hle)
    rw [parseUintFrom, if_pos (hdigits b List.mem_cons_self), if_neg hfits]
    exact ih (fun c hc => hdigits c (List.mem_cons_of_mem b hc)) hle

/-- The digits that `Itoa` writes have the value of the number. -/
theorem parseUint_itoa {n : ℕ} (hn : n ≤ 18446744073709551615) : parseUint (itoa n) = some n := by
  have hne : itoa n ≠ [] := by simp [itoa, Nat.toDigits_ne_nil]
  have hdigits : ∀ b ∈ itoa n, 48 ≤ b ∧ b ≤ 57 := by
    intro b hb
    have hdigit := digit_of_mem_itoa hb
    simpa [UInt8.le_iff_toNat_le] using hdigit
  have hvalue : (itoa n).foldl addDigit 0 = n := by
    have htext := Nat.ofDigitChars_toDigits (b := 10) (n := n) (by decide) (by decide)
    rw [Nat.ofDigitChars_eq_foldl] at htext
    rw [itoa, List.foldl_map]
    refine Eq.trans (List.foldl_ext _ _ _ fun value c hc => ?_) htext
    rw [addDigit, (toNat_digit (Nat.isDigit_of_mem_toDigits (by decide) (by decide) hc)).1]
    rfl
  rw [parseUint, if_neg hne, parseUintFrom_eq hdigits (hvalue.le.trans hn), hvalue]

/-- The text of a port is read back as its number. -/
theorem atoi_itoa {n : ℕ} (hn : n ≤ 65535) : atoi (itoa n) = ((n : ℤ), true) := by
  have hnumber : parseUint (itoa n) = some n := parseUint_itoa (by omega)
  have hhead (b : UInt8) : b.toNat < 48 → b ∉ itoa n := fun hb => notMem_itoa (Or.inl hb)
  have hlow : ¬(n : ℤ) < -9223372036854775808 := by omega
  have hhigh : ¬9223372036854775807 < (n : ℤ) := by omega
  unfold atoi
  split
  case h_1 digits heq => exact absurd (heq ▸ List.mem_cons_self) (hhead 45 (by decide))
  case h_2 digits heq => exact absurd (heq ▸ List.mem_cons_self) (hhead 43 (by decide))
  case h_3 => simp [hnumber, hlow, hhigh]

/-- The two bytes of a port are put back. -/
theorem putUint16_uint16 (hi lo : UInt8) : putUint16 (uint16 hi lo) = [hi, lo] := by
  have hhi := hi.toNat_lt
  have hlo := lo.toNat_lt
  have hmod : ((uint16 hi lo : ℤ) % 65536).toNat = hi.toNat * 256 + lo.toNat := by
    simp only [uint16]
    omega
  simp only [putUint16, hmod, List.cons.injEq, and_true, ← UInt8.toNat_inj, UInt8.toNat_ofNat']
  omega

/-! ## A host and a port -/

/-- The host has no bracket. -/
def Unbracketed (host : Bytes) : Prop := 91 ∉ host ∧ 93 ∉ host

instance (host : Bytes) : Decidable (Unbracketed host) := inferInstanceAs (Decidable (_ ∧ _))

/-- The last colon stands before a port that has none. -/
theorem rtakeWhile_colon (front : Bytes) {port : Bytes} (hport : 58 ∉ port) :
    (front ++ 58 :: port).rtakeWhile (· ≠ 58) = port ∧
      (front ++ 58 :: port).rdropWhile (· ≠ 58) = front ++ [58] := by
  have hall : ∀ b ∈ port.reverse, decide (b ≠ 58) = true := by
    intro b hb
    rw [List.mem_reverse] at hb
    exact decide_eq_true fun heq => hport (heq ▸ hb)
  have hreverse : (front ++ 58 :: port).reverse = port.reverse ++ 58 :: front.reverse := by simp
  constructor
  · rw [List.rtakeWhile, hreverse, List.takeWhile_append_of_pos hall]
    simp
  · rw [List.rdropWhile, hreverse, List.dropWhile_append_of_pos hall]
    simp

section Split

variable {front host port : Bytes}

/-- A text that does not start with a bracket is split at its only colon. -/
theorem splitHostPort_plain (hcolon : 58 ∉ port) (hfront : ∀ rest, front ≠ 91 :: rest) :
    splitHostPort (front ++ 58 :: port) =
      if 58 ∈ front ∨ 91 ∈ front ++ 58 :: port ∨ 93 ∈ front ++ 58 :: port then none
      else some (front, port) := by
  obtain ⟨htake, hdrop⟩ := rtakeWhile_colon front hcolon
  have hmem : ¬(58 : UInt8) ∉ front ++ 58 :: port := by simp
  dsimp only [splitHostPort]
  rw [htake, hdrop, List.dropLast_concat, if_neg hmem]
  split
  case h_1 rest heq =>
    cases front with
    | nil => cases heq
    | cons b front =>
      obtain ⟨rfl, _⟩ := List.cons.inj heq
      exact absurd rfl (hfront front)
  case h_2 => rfl

/-- A text that starts with a bracket must have the other one before its last colon. -/
theorem splitHostPort_bracketed (hcolon : 58 ∉ port) :
    splitHostPort (91 :: front ++ 58 :: port) =
      if 91 :: front = 91 :: (front ++ 58 :: port).takeWhile (· ≠ 93) ++ [93] ∧
          91 ∉ front ++ 58 :: port ∧ 93 ∉ port then
        some ((front ++ 58 :: port).takeWhile (· ≠ 93), port)
      else none := by
  obtain ⟨htake, hdrop⟩ := rtakeWhile_colon (91 :: front) hcolon
  have hmem : ¬(58 : UInt8) ∉ 91 :: front ++ 58 :: port := by simp
  dsimp only [splitHostPort]
  rw [htake, hdrop, List.dropLast_concat, if_neg hmem]
  rfl

/-- What was joined is split again exactly when the host has no bracket. -/
theorem splitHostPort_joinHostPort (hcolon : 58 ∉ port) (hport : Unbracketed port) :
    splitHostPort (joinHostPort host port) = some (host, port) ↔ Unbracketed host := by
  obtain ⟨hopening, hclosing⟩ := hport
  unfold joinHostPort
  by_cases hhost : (58 : UInt8) ∈ host
  · have hjoined : ascii "[" ++ host ++ ascii "]:" ++ port =
        91 :: (host ++ [93]) ++ 58 :: port := by simp [ascii]
    rw [if_pos hhost, hjoined, splitHostPort_bracketed hcolon]
    constructor
    · intro h
      split at h
      case isFalse => cases h
      case isTrue hsplit =>
        obtain ⟨htaken, _⟩ := Prod.mk.inj (Option.some.inj h)
        refine ⟨fun hmem => hsplit.2.1 (by simp [hmem]), fun hmem => ?_⟩
        rw [← htaken] at hmem
        simpa using List.mem_takeWhile_imp hmem
    · rintro ⟨hno, hnc⟩
      have hall : ∀ b ∈ host, decide (b ≠ 93) = true := fun b hb =>
        decide_eq_true fun heq => hnc (heq ▸ hb)
      have htaken : (host ++ [93] ++ 58 :: port).takeWhile (· ≠ 93) = host := by
        rw [List.append_assoc, List.takeWhile_append_of_pos hall]
        simp
      rw [htaken, if_pos ⟨rfl, by simp [hno, hopening], hclosing⟩]
  · have hjoined : host ++ ascii ":" ++ port = host ++ 58 :: port := by simp [ascii]
    rw [if_neg hhost, hjoined]
    by_cases hfirst : ∃ rest, host = 91 :: rest
    · obtain ⟨rest, rfl⟩ := hfirst
      have hno : ¬Unbracketed (91 :: rest) := fun h => h.1 List.mem_cons_self
      rw [splitHostPort_bracketed hcolon]
      refine iff_of_false (fun h => ?_) hno
      split at h
      case isFalse => cases h
      case isTrue hsplit =>
        obtain ⟨htaken, _⟩ := Prod.mk.inj (Option.some.inj h)
        have hsubset := (List.takeWhile_prefix (l := rest ++ 58 :: port) (· ≠ 93)).subset
        rw [htaken] at hsubset
        exact hsplit.2.1 (hsubset List.mem_cons_self)
    · rw [splitHostPort_plain hcolon (not_exists.mp hfirst)]
      simp [hhost, hopening, hclosing, Unbracketed]

/-- The port is what stands behind the last colon. -/
theorem port_of_splitHostPort (hcolon : 58 ∉ port) {parts : Bytes × Bytes}
    (h : splitHostPort (joinHostPort host port) = some parts) : parts.2 = port := by
  obtain ⟨front, hjoined⟩ : ∃ front, joinHostPort host port = front ++ 58 :: port := by
    unfold joinHostPort
    split
    · exact ⟨ascii "[" ++ host ++ ascii "]", by simp [ascii]⟩
    · exact ⟨host, by simp [ascii]⟩
  rw [hjoined] at h
  by_cases hfirst : ∃ rest, front = 91 :: rest
  · obtain ⟨rest, rfl⟩ := hfirst
    rw [splitHostPort_bracketed hcolon] at h
    split at h
    case isTrue => rw [← Option.some.inj h]
    case isFalse => cases h
  · rw [splitHostPort_plain hcolon (not_exists.mp hfirst)] at h
    split at h
    case isTrue => cases h
    case isFalse => rw [← Option.some.inj h]

end Split

/-! ## An address -/

/-- The text of an address of the given type, as replies and datagrams write theirs. -/
def addressText (lib : NetLib) (atyp : UInt8) (addr port : Bytes) : Bytes :=
  joinHostPort (if atyp = atypDomain then addr.drop 1 else lib.ipString addr)
    (itoa (uint16 (port.getD 0 0) (port.getD 1 0)))

/-- A reply prints the address and port that it carries. -/
theorem Reply.address_eq (lib : NetLib) (r : Reply) :
    r.address lib = addressText lib r.atyp r.bndAddr r.bndPort := rfl

/-- A datagram prints the address and port that it carries. -/
theorem Datagram.address_eq (lib : NetLib) (d : Datagram) :
    d.address lib = addressText lib d.atyp d.dstAddr d.dstPort := rfl

/-- The library writes an IP address without brackets and reads it back. -/
structure NetLib.Prints (lib : NetLib) (addr : Bytes) : Prop where
  unbracketed : Unbracketed (lib.ipString addr)
  parsed : ∃ ip, lib.parseIP (lib.ipString addr) = some ip ∧
    (ip.bytes = addr ∨ ip.bytes = v4InV6Prefix ++ addr)

/-- The address is read back from its text. -/
def ParsesBack (lib : NetLib) (atyp : UInt8) (addr port : Bytes) : Prop :=
  parseAddress lib (addressText lib atyp addr port) = .ok (atyp, addr, port)

/-- The text of the address means nothing else. -/
def Unambiguous (lib : NetLib) (atyp : UInt8) (addr : Bytes) : Prop :=
  (atyp = atypIPv6 → addr.take 12 ≠ v4InV6Prefix) ∧
    (atyp = atypDomain → Unbracketed (addr.drop 1) ∧ lib.parseIP (addr.drop 1) = none)

section Address

variable {lib : NetLib} {atyp : UInt8} {addr : Bytes}

/-- The number of a port, written and read. -/
theorem atoi_port (hi lo : UInt8) :
    putUint16 (atoi (itoa (uint16 hi lo))).1 = [hi, lo] := by
  have hhi := hi.toNat_lt
  have hlo := lo.toNat_lt
  have hle : uint16 hi lo ≤ 65535 := by
    unfold uint16
    omega
  rw [atoi_itoa hle, putUint16_uint16]

/-- A printed number has neither a colon nor a bracket. -/
theorem unbracketed_itoa (n : ℕ) : 58 ∉ itoa n ∧ Unbracketed (itoa n) :=
  ⟨notMem_itoa (by decide), notMem_itoa (by decide), notMem_itoa (by decide)⟩

/-- A name is read back exactly when it has no bracket and is no IP address. -/
theorem parsesBack_name_iff {name : Bytes} (hi lo : UInt8) :
    ParsesBack lib atypDomain (byteLen name :: name) [hi, lo] ↔
      Unbracketed name ∧ lib.parseIP name = none := by
  obtain ⟨hcolon, hport⟩ := unbracketed_itoa (uint16 hi lo)
  have hsplit : splitHostPort (addressText lib atypDomain (byteLen name :: name) [hi, lo]) =
      some (name, itoa (uint16 hi lo)) ↔ Unbracketed name :=
    splitHostPort_joinHostPort hcolon hport
  unfold ParsesBack parseAddress
  constructor
  · intro h
    split at h
    case h_1 => cases h
    case h_2 host p hparts =>
      obtain rfl : p = itoa (uint16 hi lo) := port_of_splitHostPort hcolon hparts
      split at h
      case h_1 ip hip => split at h <;> cases h
      case h_2 hip =>
        have hname : host = name := by
          injection h with h
          injection h with _ h
          injection h with h _
          exact (List.cons.inj h).2
        rw [hname] at hparts hip
        exact ⟨hsplit.mp hparts, hip⟩
  · rintro ⟨hname, hip⟩
    rw [hsplit.mpr hname]
    simp only [hip, atoi_port]

/-- An IP address is read back exactly when it is no IPv4 address in IPv6 form. -/
theorem parsesBack_ip_iff (hform : AddressOf atyp addr) (hatyp : atyp ≠ atypDomain)
    (hlib : lib.Prints addr) (hi lo : UInt8) :
    ParsesBack lib atyp addr [hi, lo] ↔ (atyp = atypIPv6 → addr.take 12 ≠ v4InV6Prefix) := by
  obtain ⟨hcolon, hport⟩ := unbracketed_itoa (uint16 hi lo)
  obtain ⟨hhost, ip, hip, hbytes⟩ := hlib
  have hsplit : splitHostPort (addressText lib atyp addr [hi, lo]) =
      some (lib.ipString addr, itoa (uint16 hi lo)) := by
    rw [addressText, if_neg hatyp]
    exact (splitHostPort_joinHostPort hcolon hport).mpr hhost
  have hlength := ip.length_eq
  unfold ParsesBack parseAddress
  simp only [hsplit, hip, atoi_port]
  rcases hform with ⟨rfl, hfour⟩ | ⟨rfl, hsixteen⟩ | ⟨hdomain, _⟩
  · have hmapped : ip.bytes = v4InV6Prefix ++ addr := by
      rcases hbytes with h | h
      · rw [h] at hlength
        omega
      · exact h
    have hto4 : ip.to4 = some addr := by simp [IP.to4, hmapped, v4InV6Prefix]
    have hne : atypIPv4 ≠ atypIPv6 := by decide
    simp [hto4, hne]
  · have hsame : ip.bytes = addr := by
      rcases hbytes with h | h
      · exact h
      · rw [h, List.length_append] at hlength
        simp only [v4InV6Prefix, List.length_cons] at hlength
        omega
    have hne : atypIPv4 ≠ atypIPv6 := by decide
    by_cases hv4 : addr.take 12 = v4InV6Prefix
    · simp [IP.to4, hsame, hv4, hne]
    · simp [IP.to4, hsame, hv4]
  · exact absurd hdomain hatyp

/-- The text of an address is read back as that address exactly when it means nothing else. -/
theorem parsesBack_iff (hform : AddressOf atyp addr)
    (hlib : atyp ≠ atypDomain → lib.Prints addr) {port : Bytes} (hport : port.length = 2) :
    ParsesBack lib atyp addr port ↔ Unambiguous lib atyp addr := by
  obtain ⟨hi, lo, rfl⟩ := List.length_eq_two.mp hport
  by_cases hatyp : atyp = atypDomain
  · subst hatyp
    rcases hform with ⟨hwrong, _⟩ | ⟨hwrong, _⟩ | ⟨_, name, rfl, _⟩
    · cases hwrong
    · cases hwrong
    · rw [parsesBack_name_iff]
      have hne : atypDomain ≠ atypIPv6 := by decide
      simp [Unambiguous, hne]
  · rw [parsesBack_ip_iff hform hatyp (hlib hatyp)]
    simp [Unambiguous, hatyp]

end Address

/-- `ParseAddress` gives back the address of every reply and of every datagram that the client
accepts from its text, exactly when the text means nothing else. -/
theorem parseAddress_address_iff (lib : NetLib) :
    (∀ r : Reply, r.WellFormed → (r.atyp ≠ atypDomain → lib.Prints r.bndAddr) →
      (parseAddress lib (r.address lib) = .ok (r.atyp, r.bndAddr, r.bndPort) ↔
        Unambiguous lib r.atyp r.bndAddr)) ∧
    ∀ d : Datagram, d.WellFormed → (d.atyp ≠ atypDomain → lib.Prints d.dstAddr) →
      (parseAddress lib (d.address lib) = .ok (d.atyp, d.dstAddr, d.dstPort) ↔
        Unambiguous lib d.atyp d.dstAddr) := by
  constructor
  · intro r hr hlib
    rw [r.address_eq]
    exact parsesBack_iff hr.address hlib hr.port
  · intro d hd hlib
    rw [d.address_eq]
    exact parsesBack_iff hd.dstAddr hlib hd.dstPort

/-- A library that knows one IPv4 address. -/
def oneAddress : NetLib where
  parseIP text :=
    if text = ascii "10.0.0.1" then some ⟨v4InV6Prefix ++ [10, 0, 0, 1], rfl⟩ else none
  ipString bytes := if bytes = [10, 0, 0, 1] then ascii "10.0.0.1" else ascii "?"

/-- An instance: the one address that the library knows. -/
theorem parseAddress_address_iff_oneAddress :
    parseAddress oneAddress
          (Reply.address oneAddress ⟨ver, 0, 0, atypIPv4, [10, 0, 0, 1], [1, 2]⟩) =
        .ok (atypIPv4, [10, 0, 0, 1], [1, 2]) ↔ Unambiguous oneAddress atypIPv4 [10, 0, 0, 1] := by
  have hprints : oneAddress.Prints [10, 0, 0, 1] := ⟨by decide, _, rfl, Or.inr rfl⟩
  exact (parseAddress_address_iff oneAddress).1 ⟨ver, 0, 0, atypIPv4, [10, 0, 0, 1], [1, 2]⟩
    ⟨rfl, Or.inl ⟨rfl, rfl⟩, rfl⟩ fun _ => hprints

end HeptaVcn.Socks5
