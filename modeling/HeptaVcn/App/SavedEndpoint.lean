import HeptaVcn.App.Screens
import HeptaVcn.Native.Entry

/-!
# The endpoint of a saved server

The address and the port typed into the configuration screen travel through the stored
configuration to a `sockaddr_in` or to the URL of a proxy. The port is cut to sixteen
bits on the one way, and the address is read as a piece of URL syntax on the other.
-/

namespace HeptaVcn

open Machine

/-! ## The IP tunnel -/

/-- The address is the first that the program can pass to `connect`. -/
def FirstConnect {α : Type} : Program Sys α → SockAddrIn → Prop
  | .done _, _ => False
  | .call op next, addr => (∃ fd, op = .connect fd addr) ∨
      (∀ fd other, op ≠ .connect fd other) ∧ ∃ r, FirstConnect (next r) addr

/-- `INADDR_NONE`, which `inet_addr` returns for a text that is not an address, is the
broadcast address, and `connect` refuses it. -/
def inaddrNone : BitVec 32 := 0xffffffff

/-- `inet_addr`, given which texts are the address of a host. -/
def inetAddr (inetAton : String → Option (BitVec 32)) (text : String) : BitVec 32 :=
  (inetAton text).getD inaddrNone

/-- The native part of a start of an IP tunnel. -/
def IPreflectorTunnel.native (inetAton : String → Option (BitVec 32)) (fd : ℤ)
    (config : ServerConfig) : Program Sys ℤ :=
  Entry.nativeStartVpn (inetAddr inetAton) fd config.ipaddr (BitVec.ofInt 32 config.port)

/-! ## The proxy tunnels -/

namespace Tun2sockTunnel

/-- The `proxy` of the constructor. -/
def proxy (config : ServerConfig) : List Char :=
  if config.netType = 1 then
    "socks5://".toList ++ config.ipaddr.toList ++ ':' :: Java.intText config.port
  else if config.netType = 2 then
    "http://".toList ++ config.ipaddr.toList ++ ':' :: Java.intText config.port
  else
    []

end Tun2sockTunnel

namespace Url

/-- What follows the first `://`. -/
def afterScheme : List Char → List Char
  | ':' :: '/' :: '/' :: rest => rest
  | _ :: rest => afterScheme rest
  | [] => []

/-- The characters at which the authority of a URL ends, and the one after the user. -/
def delimiters : List Char := ['/', '?', '#', '@']

/-- The characters that a URL does not take as they stand. -/
def reserved : List Char := '%' :: delimiters

/-- The authority without its user: it ends at the first `/`, `?` or `#`. -/
def hostPort (url : List Char) : List Char :=
  ((afterScheme url).takeWhile (· ∉ ['/', '?', '#'])).rtakeWhile (· ≠ '@')

/-- What stands before the first `:`. -/
def scheme (url : List Char) : List Char := url.takeWhile (· ≠ ':')

/-- The path: it begins at the first `/` after the authority. -/
def path (url : List Char) : List Char :=
  ((afterScheme url).takeWhile (· ∉ ['?', '#'])).dropWhile (· ≠ '/')

/-- The bytes of a text. -/
def utf8 (text : List Char) : List UInt8 := text.flatMap String.utf8EncodeChar

/-- The value of a hexadecimal digit. -/
def hexDigit (c : Char) : Option ℕ :=
  if '0' ≤ c ∧ c ≤ '9' then some (c.toNat - 48)
  else if 'a' ≤ c ∧ c ≤ 'f' then some (c.toNat - 87)
  else if 'A' ≤ c ∧ c ≤ 'F' then some (c.toNat - 55)
  else none

/-- The bytes of a part of a URL: `%` and two hexadecimal digits stand for one byte, and `%`
before anything else is an error. -/
def unescape : List Char → Option (List UInt8)
  | '%' :: hi :: lo :: rest => do
    let h ← hexDigit hi
    let l ← hexDigit lo
    let bytes ← unescape rest
    return UInt8.ofNat (16 * h + l) :: bytes
  | c :: rest => if c = '%' then none else (unescape rest).map (String.utf8EncodeChar c ++ ·)
  | [] => some []

/-- What the proxy engine connects to: the port of a host, or a socket in the file system. -/
inductive Endpoint where
  | tcp (host : List UInt8) (port : ℕ)
  | unix (path : List UInt8)
  deriving DecidableEq

/-- What the engine connects to for the URL of a proxy. A SOCKS5 URL without a host is about the
socket at its path; an empty port is port 0. The URLs that the engine takes are a parameter. -/
def endpoint (accepts : List Char → Bool) (url : List Char) : Option Endpoint :=
  let port := (hostPort url).rtakeWhile (· ≠ ':')
  let host := ((hostPort url).rdropWhile (· ≠ ':')).dropLast
  if ¬accepts url then none
  else if hostPort url = [] then
    if scheme url = "socks5".toList ∧ path url ≠ [] then (unescape (path url)).map .unix
    else none
  else if ':' ∈ hostPort url ∧ port.all Char.isDigit ∧ Nat.ofDigitChars 10 port 0 ≤ 65535 then
    (unescape host).map (.tcp · (Nat.ofDigitChars 10 port 0))
  else none

end Url

/-! ## What a start contacts -/

/-- A start of the configured server contacts the given address and port and nothing else,
or it ends with an error. The texts that are host addresses and the URLs that the proxy engine
takes are parameters. -/
def ServerConfig.ContactsOnly (inetAton : String → Option (BitVec 32))
    (accepts : List Char → Bool) (config : ServerConfig) (address : String) (port : ℤ) : Prop :=
  if config.netType = 0 then
    ∀ fd remote, FirstConnect (IPreflectorTunnel.native inetAton fd config) remote →
      remote.sinAddr ≠ inaddrNone →
      inetAton address = some remote.sinAddr ∧ (remote.sinPort.toNat : ℤ) = port
  else
    ∀ e, Url.endpoint accepts (Tun2sockTunnel.proxy config) = some e →
      ∃ n : ℕ, e = .tcp (Url.utf8 address.toList) n ∧ (n : ℤ) = port

/-- The kinds of tunnel that the spinner of the configuration screen offers. -/
def ConfigActivity.netTypes : List ℤ := [0, 1, 2]

/-- The texts that are contacted as they stand. For an IP tunnel the port has sixteen bits,
unless the address is refused anyway; for a proxy the address has none of the characters
`/ ? # @ %`, unless the engine finds nothing to connect to in the URL. -/
def ConfigActivity.Form.Contactable (inetAton : String → Option (BitVec 32))
    (accepts : List Char → Bool) (form : Form) (port : ℤ) : Prop :=
  if form.spNettype = 0 then
    inetAddr inetAton form.etAddress = inaddrNone ∨ 0 ≤ port ∧ port ≤ 65535
  else
    (∀ c ∈ form.etAddress.toList, c ∉ Url.reserved) ∨
      Url.endpoint accepts (Tun2sockTunnel.proxy
        ⟨form.etRemarks, form.etAddress, port, form.spNettype, 0⟩) = none

/-! ## The IP tunnel contacts one address -/

/-- A program that begins with `connect` connects first to its address. -/
@[simp] theorem firstConnect_connect {α : Type} {fd : ℤ} {addr remote : SockAddrIn}
    {next : ℤ → Program Sys α} :
    FirstConnect (.call (.connect fd addr) next) remote ↔ remote = addr := by
  simp [FirstConnect, eq_comm]

/-- Other calls than `connect` are passed over. -/
theorem firstConnect_call {α : Type} {op : Syscall} {remote : SockAddrIn}
    {next : Sys.Reply op → Program Sys α} (hop : ∀ fd addr, op ≠ .connect fd addr) :
    FirstConnect (.call op next) remote ↔ ∃ r, FirstConnect (next r) remote := by
  simp [FirstConnect, hop]

/-- The one address that a session first connects to. -/
theorem firstConnect_native_iff {inetAton : String → Option (BitVec 32)} {fd : ℤ}
    {config : ServerConfig} {remote : SockAddrIn} :
    FirstConnect (IPreflectorTunnel.native inetAton fd config) remote ↔
      remote = ⟨inetAddr inetAton config.ipaddr, htons (BitVec.ofInt 32 config.port)⟩ := by
  unfold IPreflectorTunnel.native Entry.nativeStartVpn IpReflect.ipReflectStart
  simp only [sys, Program.perform, Program.bind_eq, Program.call_bind, Program.done_bind]
  rw [firstConnect_call (by simp)]
  constructor
  · rintro ⟨sock, h⟩
    obtain ⟨_, h⟩ := (firstConnect_call (by simp)).mp h
    by_cases hsock : sock < (0 : ℤ)
    · -- without a socket the session ends at the label `out1`
      rw [if_pos hsock] at h
      simp [FirstConnect, IpReflect.out1, IpReflect.ipReflectStop, sys, Program.perform] at h
    · rw [if_neg hsock] at h
      obtain ⟨_, h⟩ := (firstConnect_call (by simp)).mp h
      exact firstConnect_connect.mp h
  · rintro rfl
    refine ⟨(0 : ℤ), (firstConnect_call (by simp)).mpr ⟨(), ?_⟩⟩
    rw [if_neg (by decide)]
    exact (firstConnect_call (by simp)).mpr ⟨(0 : ℤ), firstConnect_connect.mpr rfl⟩

/-- Cutting a port to sixteen bits keeps exactly those that have no more. -/
theorem toNat_htons_eq_iff (port : ℤ) :
    ((htons (BitVec.ofInt 32 port)).toNat : ℤ) = port ↔ 0 ≤ port ∧ port ≤ 65535 := by
  have hvalue : ((htons (BitVec.ofInt 32 port)).toNat : ℤ) = port % 4294967296 % 65536 := by
    simp [htons, BitVec.toNat_setWidth, BitVec.toNat_ofInt]
    omega
  omega

/-! ## What a URL keeps of an address -/

namespace Url

/-- What follows the last character that ends a search from the right is what the search takes. -/
theorem rtakeWhile_append_cons {p : Char → Bool} {a t : List Char} {c : Char} (hc : p c = false)
    (ht : ∀ x ∈ t, p x = true) : (a ++ c :: t).rtakeWhile p = t := by
  have ht' : ∀ x ∈ t.reverse, p x = true := by simpa using ht
  simp [List.rtakeWhile, List.takeWhile_append_of_pos ht', hc]

/-- The rest is what stands up to that character. -/
theorem rdropWhile_append_cons {p : Char → Bool} {a t : List Char} {c : Char} (hc : p c = false)
    (ht : ∀ x ∈ t, p x = true) : (a ++ c :: t).rdropWhile p = a ++ [c] := by
  have ht' : ∀ x ∈ t.reverse, p x = true := by simpa using ht
  simp [List.rdropWhile, List.dropWhile_append_of_pos ht', hc]

/-- Every character has a byte of its own. -/
theorem length_le_utf8 (text : List Char) : text.length ≤ (utf8 text).length := by
  induction text with
  | nil => simp
  | cons c rest ih =>
    have hpos := c.utf8Size_pos
    simp only [utf8, List.flatMap_cons, List.length_append, String.length_utf8EncodeChar,
      List.length_cons] at ih ⊢
    omega

/-- Every character left out of a text takes a byte away at least. -/
theorem length_utf8_of_infix {part text : List Char} (h : part <:+: text) :
    (utf8 part).length + text.length ≤ (utf8 text).length + part.length := by
  obtain ⟨l, r, rfl⟩ := h
  have hl := length_le_utf8 l
  have hr := length_le_utf8 r
  have hlength : (utf8 (l ++ part ++ r)).length =
      (utf8 l).length + (utf8 part).length + (utf8 r).length := by
    simp only [utf8, List.flatMap_append, List.length_append]
  simp only [List.length_append, hlength]
  omega

/-- Without escapes a text stands for its own bytes. -/
theorem unescape_of_not_mem {text : List Char} (h : '%' ∉ text) :
    unescape text = some (utf8 text) := by
  fun_induction unescape text with
  | case1 hi lo rest ih => simp at h
  | case2 rest _ => simp at h
  | case3 c rest _ _ ih =>
    rw [ih (fun hrest => h (List.mem_cons_of_mem c hrest))]
    rfl
  | case4 => rfl

/-- Decoding never lengthens a text, and an escape shortens it. -/
theorem length_unescape {text : List Char} {bytes : List UInt8} (h : unescape text = some bytes) :
    bytes.length ≤ (utf8 text).length ∧ ('%' ∈ text → bytes.length < (utf8 text).length) := by
  fun_induction unescape text generalizing bytes with
  | case1 hi lo rest ih =>
    simp only [Option.bind_eq_bind, Option.bind_eq_some_iff, Option.pure_def] at h
    obtain ⟨_, _, _, _, decoded, hrest, hbytes⟩ := h
    obtain rfl := Option.some.inj hbytes
    have hle := (ih hrest).1
    have hpos := hi.utf8Size_pos
    have hlength : (utf8 ('%' :: hi :: lo :: rest)).length =
        1 + hi.utf8Size + lo.utf8Size + (utf8 rest).length := by
      simp only [utf8, List.flatMap_cons, List.length_append, String.length_utf8EncodeChar]
      have hone : '%'.utf8Size = 1 := rfl
      omega
    rw [hlength]
    refine ⟨?_, fun _ => ?_⟩ <;> · rw [List.length_cons]; omega
  | case2 rest _ => cases h
  | case3 c rest _ hc ih =>
    obtain ⟨decoded, hrest, rfl⟩ := Option.map_eq_some_iff.mp h
    obtain ⟨hle, hlt⟩ := ih hrest
    have hlength : (utf8 (c :: rest)).length = c.utf8Size + (utf8 rest).length := by
      simp [utf8]
    rw [hlength, List.length_append, String.length_utf8EncodeChar]
    refine ⟨by omega, fun hmem => ?_⟩
    rcases List.mem_cons.mp hmem with rfl | hmem
    · exact absurd rfl hc
    · have hlt := hlt hmem
      omega
  | case4 =>
    obtain rfl := Option.some.inj h
    simp

/-- A character of a text has a last place. -/
theorem exists_last {text : List Char} {c : Char} (h : c ∈ text) :
    ∃ front back, text = front ++ c :: back ∧ c ∉ back := by
  obtain ⟨back, front, htext, hback⟩ :=
    List.eq_append_cons_of_mem (List.mem_reverse.mpr h)
  refine ⟨front.reverse, back.reverse, ?_, by simpa using hback⟩
  rw [← List.reverse_reverse text, htext]
  simp

/-- No place of a character comes after its last. -/
theorem prefix_of_append_cons_eq {a b t p : List Char} {c : Char}
    (h : a ++ c :: t = b ++ c :: p) (hp : c ∉ p) : a <+: b := by
  rcases List.append_eq_append_iff.mp h with ⟨m, rfl, _⟩ | ⟨m, rfl, hm⟩
  · exact List.prefix_append a m
  · cases m with
    | nil => simp
    | cons d m =>
      obtain ⟨rfl, rfl⟩ := List.cons.inj hm
      simp at hp

/-- No character that ends a part of the authority is in the host or the port. -/
theorem not_mem_delimiters_of_mem_hostPort {url : List Char} {c : Char} (hc : c ∈ hostPort url) :
    c ∉ delimiters := by
  have hat : c ≠ '@' := by
    have h := List.mem_rtakeWhile_imp hc
    simpa using h
  have hcut : c ∉ ['/', '?', '#'] := by
    have h := List.mem_takeWhile_imp ((List.rtakeWhile_suffix _ _).mem hc)
    simpa using h
  simp only [delimiters, List.mem_cons, List.not_mem_nil, or_false, not_or] at hcut ⊢
  exact ⟨hcut.1, hcut.2.1, hcut.2.2, hat⟩

/-- The scheme of a SOCKS5 proxy is passed over. -/
theorem afterScheme_socks5 (rest : List Char) : afterScheme ("socks5://".toList ++ rest) = rest :=
  rfl

/-- The scheme of an HTTP proxy is passed over. -/
theorem afterScheme_http (rest : List Char) : afterScheme ("http://".toList ++ rest) = rest := rfl

/-- The authority is a piece of what follows the scheme. -/
theorem hostPort_infix (url : List Char) : hostPort url <:+: afterScheme url :=
  (List.rtakeWhile_suffix _ _).isInfix.trans (List.takeWhile_prefix _).isInfix

variable {accepts : List Char → Bool} {url : List Char}

/-- A host and a port stand around the last `:` of the authority. -/
theorem endpoint_eq_tcp {bytes : List UInt8} {n : ℕ}
    (h : endpoint accepts url = some (.tcp bytes n)) :
    ∃ host port, hostPort url = host ++ ':' :: port ∧ ':' ∉ port ∧ port.all Char.isDigit ∧
      unescape host = some bytes ∧ n = Nat.ofDigitChars 10 port 0 := by
  simp only [endpoint] at h
  split at h
  · cases h
  · split at h
    · split at h
      · obtain ⟨_, _, hunix⟩ := Option.map_eq_some_iff.mp h
        cases hunix
      · cases h
    · split at h
      case isTrue hport =>
        obtain ⟨host, port, htext, hlast⟩ := exists_last hport.1
        have hcolon : ∀ c ∈ port, decide (c ≠ ':') = true := fun c hc =>
          decide_eq_true (ne_of_mem_of_not_mem hc hlast)
        rw [htext, rtakeWhile_append_cons (c := ':') (by decide) hcolon,
          rdropWhile_append_cons (c := ':') (by decide) hcolon, List.dropLast_concat] at h
        rw [htext, rtakeWhile_append_cons (c := ':') (by decide) hcolon] at hport
        obtain ⟨_, hhost, htcp⟩ := Option.map_eq_some_iff.mp h
        obtain ⟨rfl, rfl⟩ := Endpoint.tcp.inj htcp
        exact ⟨host, port, htext, hlast, hport.2.1, hhost, rfl⟩
      case isFalse => cases h

/-- Only a URL without a host is about a socket in the file system. -/
theorem endpoint_eq_unix {file : List UInt8} (h : endpoint accepts url = some (.unix file)) :
    hostPort url = [] := by
  simp only [endpoint] at h
  split at h
  · cases h
  · split at h
    case isTrue hempty => exact hempty
    case isFalse =>
      split at h
      · obtain ⟨_, _, htcp⟩ := Option.map_eq_some_iff.mp h
        cases htcp
      · cases h

end Url

namespace Tun2sockTunnel

variable {config : ServerConfig}

/-- The URL of a proxy is about the address followed by the port. -/
theorem afterScheme_proxy (htype : config.netType = 1 ∨ config.netType = 2) :
    Url.afterScheme (proxy config) =
      config.ipaddr.toList ++ ':' :: Java.intText config.port := by
  unfold proxy
  rcases htype with htype | htype
  · rw [if_pos htype, List.append_assoc, Url.afterScheme_socks5]
  · rw [if_neg (by omega), if_pos htype, List.append_assoc, Url.afterScheme_http]

/-- The text of a number has digits and a sign only. -/
theorem ne_of_mem_intText {n : ℤ} {c d : Char} (hc : c ∈ Java.intText n) (hd : d.isDigit = false)
    (hsign : d ≠ '-') : c ≠ d := by
  rintro rfl
  rcases Java.mem_intText hc with rfl | hdigit
  · exact hsign rfl
  · simp [hd] at hdigit

/-- An address without URL syntax is kept whole. -/
theorem hostPort_proxy (htype : config.netType = 1 ∨ config.netType = 2)
    (haddress : ∀ c ∈ config.ipaddr.toList, c ∉ Url.delimiters) :
    Url.hostPort (proxy config) = config.ipaddr.toList ++ ':' :: Java.intText config.port := by
  have hall : ∀ c ∈ config.ipaddr.toList ++ ':' :: Java.intText config.port,
      c ∉ Url.delimiters := by
    intro c hc
    rcases List.mem_append.mp hc with hc | hc
    · exact haddress c hc
    rcases List.mem_cons.mp hc with rfl | hc
    · decide
    · have hne : ∀ d ∈ Url.delimiters, d.isDigit = false ∧ d ≠ '-' := by simp [Url.delimiters]
      exact fun hmem => ne_of_mem_intText hc (hne c hmem).1 (hne c hmem).2 rfl
  rw [Url.hostPort, afterScheme_proxy htype, List.takeWhile_eq_self_iff.mpr,
    List.rtakeWhile_eq_self_iff.mpr]
  · intro c hc
    have h := hall c hc
    simp only [Url.delimiters, List.mem_cons, not_or] at h
    simp [h]
  · intro c hc
    have h := hall c hc
    simp only [Url.delimiters, List.mem_cons, not_or] at h
    simp [h]

/-- The last `:` of the URL is the one before the port. -/
theorem colon_not_mem_intText (n : ℤ) : ':' ∉ Java.intText n := fun h =>
  ne_of_mem_intText h (by decide) (by decide) rfl

variable {accepts : List Char → Bool}

/-- Then the endpoint is the address and the port as they were written, if there is one. -/
theorem endpoint_proxy {e : Url.Endpoint} (htype : config.netType = 1 ∨ config.netType = 2)
    (haddress : ∀ c ∈ config.ipaddr.toList, c ∉ Url.reserved)
    (h : Url.endpoint accepts (proxy config) = some e) :
    ∃ n : ℕ, e = .tcp (Url.utf8 config.ipaddr.toList) n ∧ (n : ℤ) = config.port := by
  have hwhole := hostPort_proxy htype fun c hc hmem =>
    haddress c hc (List.mem_cons_of_mem '%' hmem)
  cases e with
  | tcp bytes n =>
    obtain ⟨host, port, htext, hlast, hdigits, hhost, rfl⟩ := Url.endpoint_eq_tcp h
    rw [hwhole] at htext
    have hforth := Url.prefix_of_append_cons_eq htext hlast
    have hback := Url.prefix_of_append_cons_eq htext.symm (colon_not_mem_intText config.port)
    obtain rfl := hback.eq_of_length (le_antisymm hback.length_le hforth.length_le)
    obtain rfl := (List.cons.inj (List.append_cancel_left htext)).2
    rw [Url.unescape_of_not_mem fun hmem => haddress '%' hmem List.mem_cons_self] at hhost
    obtain rfl := Option.some.inj hhost
    exact ⟨_, rfl, Java.ofDigitChars_intText hdigits⟩
  | unix file =>
    rw [Url.endpoint_eq_unix h] at hwhole
    simp at hwhole

/-- The host of an endpoint is a part of the address. -/
theorem infix_of_hostPort_proxy {host port : List Char}
    (htype : config.netType = 1 ∨ config.netType = 2)
    (h : Url.hostPort (proxy config) = host ++ ':' :: port) : host <:+: config.ipaddr.toList := by
  obtain ⟨l, r, hparts⟩ := Url.hostPort_infix (proxy config)
  rw [afterScheme_proxy htype, h] at hparts
  have hbefore : l ++ host <+: config.ipaddr.toList := by
    apply Url.prefix_of_append_cons_eq (t := port ++ r) _ (colon_not_mem_intText config.port)
    simpa using hparts
  exact (List.suffix_append l host).isInfix.trans hbefore.isInfix

/-- An address that is contacted as it stands has no character that a URL reserves: an escape
or a character that is cut off costs bytes. -/
theorem not_mem_reserved_of_endpoint {n : ℕ} (htype : config.netType = 1 ∨ config.netType = 2)
    (h : Url.endpoint accepts (proxy config) = some (.tcp (Url.utf8 config.ipaddr.toList) n)) :
    ∀ c ∈ config.ipaddr.toList, c ∉ Url.reserved := by
  intro c hc hreserved
  obtain ⟨host, port, htext, _, _, hhost, _⟩ := Url.endpoint_eq_tcp h
  have hpart := infix_of_hostPort_proxy htype htext
  have hbytes := Url.length_utf8_of_infix hpart
  obtain ⟨hdecoded, hescaped⟩ := Url.length_unescape hhost
  have hle := hpart.length_le
  by_cases hmem : c ∈ host
  · rcases List.mem_cons.mp hreserved with rfl | hdelimiter
    · have hlt := hescaped hmem
      omega
    · have hkept : c ∈ Url.hostPort (proxy config) := htext ▸ List.mem_append_left _ hmem
      exact Url.not_mem_delimiters_of_mem_hostPort hkept hdelimiter
  · have hne : host.length ≠ config.ipaddr.toList.length := fun heq =>
      hmem (hpart.eq_of_length heq ▸ hc)
    omega

end Tun2sockTunnel

/-! ## From the screen to the endpoint -/

/-- A configuration just saved under a key is read back. -/
theorem Store.config_put_self {s : Store} {key : String} {config stored : ServerConfig}
    (h : (s.put key config).config key = some stored) : stored = config := by
  unfold Store.config at h
  split at h
  · cases h
  · unfold Store.put at h
    split at h <;> simpa [eq_comm] using h

/-- What `saveServer` stores when it returns `true`. -/
theorem ConfigActivity.exec_saveServer_saved {uuid editGuid : String} {form : Form} {s t : Store}
    (h : (saveServer uuid editGuid form).exec storages s = (.saved, t)) :
    ∃ port filterType, toInt form.etPort = some port ∧
      t = s.put (if isBlank editGuid then uuid else editGuid)
        ⟨form.etRemarks, form.etAddress, port, form.spNettype, filterType⟩ := by
  simp only [saveServer, Program.bind_eq, Program.exec_bind, MmkvManager.exec_decodeServerConfig]
    at h
  split at h
  · cases h
  · cases hport : toInt form.etPort with
    | none =>
      rw [hport] at h
      cases h
    | some port =>
      rw [hport] at h
      simp only [Program.exec_bind, MmkvManager.exec_encodeServerConfig] at h
      obtain ⟨_, rfl⟩ := Prod.mk.inj h
      exact ⟨port, _, rfl, rfl⟩

namespace ConfigActivity

variable {inetAton : String → Option (BitVec 32)} {accepts : List Char → Bool}

/-- An IP tunnel contacts the port that was saved when it has sixteen bits. -/
theorem contactsOnly_ip_iff {config : ServerConfig} (htype : config.netType = 0) :
    config.ContactsOnly inetAton accepts config.ipaddr config.port ↔
      inetAddr inetAton config.ipaddr = inaddrNone ∨ 0 ≤ config.port ∧ config.port ≤ 65535 := by
  rw [ServerConfig.ContactsOnly, if_pos htype, ← toNat_htons_eq_iff]
  simp only [firstConnect_native_iff, forall_eq, forall_const]
  cases haton : inetAton config.ipaddr with
  | none => simp [inetAddr, haton]
  | some address => simp [inetAddr, haton, or_iff_not_imp_left]

/-- A proxy is contacted at the address that was saved when no character of it is reserved. -/
theorem contactsOnly_proxy_iff {config : ServerConfig}
    (htype : config.netType = 1 ∨ config.netType = 2) :
    config.ContactsOnly inetAton accepts config.ipaddr config.port ↔
      (∀ c ∈ config.ipaddr.toList, c ∉ Url.reserved) ∨
        Url.endpoint accepts (Tun2sockTunnel.proxy config) = none := by
  rw [ServerConfig.ContactsOnly, if_neg (by omega)]
  constructor
  · intro h
    cases hendpoint : Url.endpoint accepts (Tun2sockTunnel.proxy config) with
    | none => exact Or.inr rfl
    | some e =>
      obtain ⟨n, rfl, _⟩ := h e hendpoint
      exact Or.inl (Tun2sockTunnel.not_mem_reserved_of_endpoint htype hendpoint)
  · rintro (haddress | hnone) e hendpoint
    · exact Tun2sockTunnel.endpoint_proxy htype haddress hendpoint
    · rw [hnone] at hendpoint
      cases hendpoint

/-- A start of a server just saved contacts the address and the port that were typed in, or
fails, exactly when the texts are contactable as they stand. -/
theorem contactsOnly_iff {uuid editGuid : String} {form : Form} {s t : Store} {port : ℤ}
    {config : ServerConfig} (htype : form.spNettype ∈ netTypes)
    (hsave : (saveServer uuid editGuid form).exec storages s = (.saved, t))
    (hport : toInt form.etPort = some port)
    (hconfig : t.config (if isBlank editGuid then uuid else editGuid) = some config) :
    config.ContactsOnly inetAton accepts form.etAddress port ↔
      form.Contactable inetAton accepts port := by
  obtain ⟨port', filterType, hport', rfl⟩ := exec_saveServer_saved hsave
  obtain rfl : port = port' := Option.some.inj (hport.symm.trans hport')
  obtain rfl := Store.config_put_self hconfig
  simp only [netTypes, List.mem_cons, List.not_mem_nil, or_false] at htype
  unfold Form.Contactable
  rcases htype with htype | htype
  · rw [if_pos htype]
    exact contactsOnly_ip_iff htype
  · rw [if_neg (by omega)]
    exact contactsOnly_proxy_iff htype

/-- Only one text is the address of a host. -/
def oneHost (text : String) : Option (BitVec 32) :=
  if text = "10.0.0.1" then some 0x0a000001 else none

/-- A server with a port of sixteen bits. -/
theorem contactsOnly_port80 : ∃ t config,
    (saveServer "guid" "" ⟨"10.0.0.1", "80", "home", 0⟩).exec storages .empty = (.saved, t) ∧
    t.config "guid" = some config ∧
    (config.ContactsOnly oneHost (fun _ => true) "10.0.0.1" 80 ↔
      Form.Contactable oneHost (fun _ => true) ⟨"10.0.0.1", "80", "home", 0⟩ 80) :=
  ⟨_, _, rfl, rfl, @contactsOnly_iff _ _ "guid" "" ⟨"10.0.0.1", "80", "home", 0⟩ .empty _ _ _
    (by decide) rfl (by decide) rfl⟩

/-- The port 65616 is saved, and port 80 is contacted. -/
theorem not_contactsOnly_port65616 : ∃ t config,
    (saveServer "guid" "" ⟨"10.0.0.1", "65616", "home", 0⟩).exec storages .empty = (.saved, t) ∧
    t.config "guid" = some config ∧
    ¬config.ContactsOnly oneHost (fun _ => true) "10.0.0.1" 65616 := by
  refine ⟨_, _, rfl, rfl, fun h => ?_⟩
  have hcontact := h 0 ⟨0x0a000001, 80⟩ (firstConnect_native_iff.mpr (by decide)) (by decide)
  exact absurd hcontact.2 (by decide)

end ConfigActivity

end HeptaVcn
