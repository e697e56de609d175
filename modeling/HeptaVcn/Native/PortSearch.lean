import HeptaVcn.Machine.Play
import HeptaVcn.Native.TunnelServer
import Mathlib.Order.Interval.Set.Basic

/-!
# The port search, `create_socket_bind`

The search is played against a host whose ports, sockets and refusals may change with
every attempt. A host shows its connections as lines of text, and `grep` finds `:5000`
in the line of port 50000. What the search returns is always bound, but whether it can
still end depends on the descriptor and on what is free besides the port.
-/

namespace HeptaVcn.TunnelServer

open Machine

/-- The largest value of `rand`. -/
def randMax : ℕ := 2147483647

/-- What a host looks like during one attempt: its open internet sockets, the ports in use,
the lines of `netstat -an`, and the ports that `bind` refuses though they are not in use. -/
structure Host where
  socket : ℤ → Bool
  inUse : ℕ → Bool
  netstat : List (List Char)
  refused : ℕ → Bool
  /-- A negative integer is no descriptor. -/
  nonneg : ∀ {fd}, socket fd = true → 0 ≤ fd

/-- `grep :port` finds a line. -/
def Host.Lists (host : Host) (port : CInt) : Prop :=
  ∃ line ∈ host.netstat, ':' :: (toString port.toInt).toList <:+: line

instance (host : Host) (port : CInt) : Decidable (host.Lists port) :=
  inferInstanceAs (Decidable (∃ line ∈ host.netstat, _ <:+: line))

/-- A search in progress: what `rand` returns and what the host looks like at each attempt,
the number of attempts that failed, and the port each descriptor is bound to. -/
structure Search where
  draws : ℕ → ℕ
  hosts : ℕ → Host
  attempt : ℕ
  bound : ℤ → Option (BitVec 16)

namespace Search

variable (w : Search)

/-- The host during the current attempt. -/
def host : Host := w.hosts w.attempt

/-- The attempt failed. -/
def next : Search := { w with attempt := w.attempt + 1 }

/-- The search, had the current attempt drawn `r`. -/
def withDraw (r : ℕ) : Search := { w with draws := Function.update w.draws w.attempt r }

/-- The port the current attempt draws. -/
def drawn : CInt :=
  BitVec.ofNat 32 (w.draws w.attempt % (portEnd - portStart + 1) + portStart)

/-- A port of the range that is not in use. -/
def Free (port : ℕ) : Prop := port ∈ Set.Icc portStart portEnd ∧ w.host.inUse port = false

/-- An open socket that is not bound yet. -/
def Unbound (fd : ℤ) : Prop := w.host.socket fd = true ∧ w.bound fd = none

instance (fd : ℤ) : Decidable (w.Unbound fd) := inferInstanceAs (Decidable (_ ∧ _))

/-- `bind` succeeds. -/
def Binds (fd : ℤ) (port : ℕ) : Prop :=
  w.Unbound fd ∧ w.host.inUse port = false ∧ w.host.refused port = false

instance (fd : ℤ) (port : ℕ) : Decidable (w.Binds fd port) :=
  inferInstanceAs (Decidable (_ ∧ _ ∧ _))

/-- The descriptor is bound to the port. -/
def bind (fd : ℤ) (port : BitVec 16) : Search :=
  { w with bound := Function.update w.bound fd (some port) }

/-- The draw put in is the one of the current attempt. -/
@[simp] theorem withDraw_draws (r : ℕ) :
    (w.withDraw r).draws (w.withDraw r).attempt = r := Function.update_self ..

/-- A successful `bind` binds its own descriptor to the given port. -/
@[simp] theorem bind_bound (fd : ℤ) (port : BitVec 16) : (w.bind fd port).bound fd = some port :=
  Function.update_self ..

/-- A drawn port lies in the range. -/
theorem drawn_toNat :
    w.drawn.toNat = w.draws w.attempt % (portEnd - portStart + 1) + portStart := by
  have h := Nat.mod_lt (w.draws w.attempt) (show 0 < portEnd - portStart + 1 by decide)
  simp only [drawn, BitVec.toNat_ofNat, portEnd, portStart] at h ⊢
  omega

/-- A drawn port lies in the range that the code draws from. -/
theorem drawn_mem : w.drawn.toNat ∈ Set.Icc portStart portEnd := by
  have h := Nat.mod_lt (w.draws w.attempt) (show 0 < portEnd - portStart + 1 by decide)
  rw [drawn_toNat]
  simp only [Set.mem_Icc, portEnd, portStart] at h ⊢
  omega

/-- Some value of `rand` draws any port of the range. -/
theorem exists_drawn {port : ℕ} (h : port ∈ Set.Icc portStart portEnd) :
    ∃ r ≤ randMax, (w.withDraw r).drawn.toNat = port := by
  obtain ⟨hstart, hend⟩ := h
  have hmax : portEnd ≤ randMax := by decide
  refine ⟨port - portStart, (Nat.sub_le ..).trans (hend.trans hmax), ?_⟩
  rw [drawn_toNat, withDraw_draws, Nat.mod_eq_of_lt (by omega)]
  omega

/-- What the host answers. `rand` and a `netstat` that finds nothing belong to the attempt
going on; a `netstat` that finds a line and a `bind` that fails end it. -/
def answers : Answers Sys Search
  | w, .rand => some (w.draws w.attempt, w)
  | w, .netstat port => some (if w.host.Lists port then (0, w.next) else (256, w))
  | w, .bind fd addr =>
    some (if w.Binds fd addr.sinPort.toNat then (0, w.bind fd addr.sinPort) else (-1, w.next))
  | _, _ => none

end Search

/-- A port number is not changed by `htons`. -/
theorem htons_toNat {port : CInt} (h : port.toNat < 65536) : (htons port).toNat = port.toNat := by
  simp only [htons, BitVec.toNat_setWidth]
  omega

section Attempts

variable {α : Type} {retFd : ℤ} {sinAddr : BitVec 32} {rounds : ℕ} {w w' : Search}
  {defaultPort p : CInt}

/-- `system` replies zero when `grep` finds a line. -/
theorem play_netstat {port : CInt} {next : ℤ → Program Sys α} :
    (Program.call (E := Sys) (.netstat port) next).play Search.answers w =
      if w.host.Lists port then (next 0).play Search.answers w.next
      else (next 256).play Search.answers w :=
  Program.play_call_ite rfl

/-- `bind` replies zero when the descriptor is bound. -/
theorem play_bind {port : BitVec 16} {next : ℤ → Program Sys α} :
    (Program.call (E := Sys) (.bind retFd ⟨sinAddr, port⟩) next).play Search.answers w =
      if w.Binds retFd port.toNat then (next 0).play Search.answers (w.bind retFd port)
      else (next (-1)).play Search.answers w.next :=
  Program.play_call_ite rfl

/-- The loop goes round once more. -/
theorem play_drawPort_zero :
    (drawPort retFd sinAddr 0).play Search.answers w = .stuck .spin w := rfl

/-- One attempt: the loop ends when no line shows the port and `bind` succeeds, and
starts over in every other case. -/
theorem play_drawPort_succ : (drawPort retFd sinAddr (rounds + 1)).play Search.answers w =
    if w.host.Lists w.drawn then (drawPort retFd sinAddr rounds).play Search.answers w.next
    else if w.Binds retFd (htons w.drawn).toNat then
      .returned w.drawn (w.bind retFd (htons w.drawn))
    else (drawPort retFd sinAddr rounds).play Search.answers w.next := by
  refine (Program.play_call (t := w) (r := w.draws w.attempt) rfl).trans ?_
  refine play_netstat.trans ?_
  by_cases hlists : w.host.Lists w.drawn
  · rw [if_pos hlists]
    exact if_pos hlists
  · rw [if_neg hlists]
    exact (if_neg hlists).trans play_bind

/-- The whole search: the default port is tried first. -/
theorem play_createSocketBind :
    (createSocketBind rounds retFd sinAddr defaultPort).play Search.answers w =
    if defaultPort = 0 then (drawPort retFd sinAddr rounds).play Search.answers w
    else if w.Binds retFd (htons defaultPort).toNat then
      .returned defaultPort (w.bind retFd (htons defaultPort))
    else (drawPort retFd sinAddr rounds).play Search.answers w.next := by
  by_cases hzero : defaultPort = 0
  · subst hzero
    rfl
  · rw [if_neg hzero, createSocketBind, if_pos hzero]
    exact play_bind

/-- What a search that ends does to its descriptor. -/
def Search.BoundTo (w : Search) (fd : ℤ) (port : CInt) : Prop :=
  ∃ bound, w.bound fd = some bound ∧ bound.toNat = port.toNat

/-- Binding to a port in network byte order binds to that port. -/
theorem bind_boundTo (h : p.toNat < 65536) : (w.bind retFd (htons p)).BoundTo retFd p :=
  ⟨htons p, w.bind_bound retFd (htons p), htons_toNat h⟩

/-- A drawn port is a 16-bit number. -/
theorem drawn_lt (w : Search) : w.drawn.toNat < 65536 :=
  w.drawn_mem.2.trans_lt (by decide)

/-- A draw that ends the loop is bound and lies in the range. -/
theorem boundTo_of_drawPort
    (h : (drawPort retFd sinAddr rounds).play Search.answers w = .returned p w') :
    w'.BoundTo retFd p ∧ p.toNat ∈ Set.Icc portStart portEnd := by
  induction rounds generalizing w with
  | zero => cases h
  | succ rounds ih =>
    rw [play_drawPort_succ] at h
    split_ifs at h with hlists hbinds
    · exact ih h
    · obtain ⟨rfl, rfl⟩ := Outcome.returned.inj h
      exact ⟨bind_boundTo (drawn_lt w), w.drawn_mem⟩
    · exact ih h

/-- What the search announces it has bound. -/
theorem boundTo_of_createSocketBind (hdefault : defaultPort.toNat < 65536)
    (h : (createSocketBind rounds retFd sinAddr defaultPort).play Search.answers w =
      .returned p w') :
    w'.BoundTo retFd p ∧ (p = defaultPort ∨ p.toNat ∈ Set.Icc portStart portEnd) := by
  rw [play_createSocketBind] at h
  split_ifs at h with hzero hbinds
  · exact (boundTo_of_drawPort h).imp_right Or.inr
  · obtain ⟨rfl, rfl⟩ := Outcome.returned.inj h
    exact ⟨bind_boundTo hdefault, Or.inl rfl⟩
  · exact (boundTo_of_drawPort h).imp_right Or.inr

/-- A negative descriptor is never bound. -/
theorem not_binds_of_negative (hfd : retFd < 0) (port : ℕ) : ¬w.Binds retFd port := by
  intro hbinds
  have hnonneg := w.host.nonneg hbinds.1.1
  omega

/-- On a negative descriptor no `bind` succeeds, so the search never ends. -/
theorem drawPort_negative (hfd : retFd < 0) :
    ∃ w', (drawPort retFd sinAddr rounds).play Search.answers w = .stuck .spin w' := by
  induction rounds generalizing w with
  | zero => exact ⟨w, rfl⟩
  | succ rounds ih =>
    rw [play_drawPort_succ, if_neg (not_binds_of_negative hfd _), ite_self]
    exact ih

/-- On a negative descriptor the search never ends, whatever is free and whatever is drawn. -/
theorem createSocketBind_negative (hfd : retFd < 0) :
    ∃ w', (createSocketBind rounds retFd sinAddr defaultPort).play Search.answers w =
      .stuck .spin w' := by
  rw [play_createSocketBind, if_neg (not_binds_of_negative hfd _)]
  split_ifs
  · exact drawPort_negative hfd
  · exact drawPort_negative hfd

/-- One attempt ends the loop exactly with a port that is not shown and can be bound. -/
theorem play_drawPort_one :
    (drawPort retFd sinAddr 1).play Search.answers w = .returned p w' ↔
      ¬w.host.Lists w.drawn ∧ w.Binds retFd w.drawn.toNat ∧ p = w.drawn ∧
        w' = w.bind retFd (htons w.drawn) := by
  rw [play_drawPort_succ, play_drawPort_zero, htons_toNat (drawn_lt w)]
  split_ifs with hlists hbinds
  · simp [hlists]
  · simp [hlists, hbinds, eq_comm]
  · simp [hbinds]

/-- The next draw ends the loop. -/
def Search.Ends (w : Search) (retFd : ℤ) (sinAddr : BitVec 32) : Prop :=
  ∃ p w', (drawPort retFd sinAddr 1).play Search.answers w = .returned p w'

/-- The call gets to another attempt, in the state `w'`. -/
def Reached (retFd : ℤ) (sinAddr : BitVec 32) (defaultPort : CInt) (w w' : Search) : Prop :=
  ∃ rounds, (createSocketBind rounds retFd sinAddr defaultPort).play Search.answers w =
    .stuck .spin w'

/-- What the search promises: it binds the port it returns, and whenever it makes another
attempt while a port of the range is free, some value of `rand` ends it. -/
structure Searches (retFd : ℤ) (sinAddr : BitVec 32) (defaultPort : CInt) (w : Search) : Prop where
  announces : ∀ rounds p w',
    (createSocketBind rounds retFd sinAddr defaultPort).play Search.answers w = .returned p w' →
      w'.BoundTo retFd p ∧ (p = defaultPort ∨ p.toNat ∈ Set.Icc portStart portEnd)
  escapes : ∀ w', Reached retFd sinAddr defaultPort w w' → (∃ port, w'.Free port) →
    ∃ r ≤ randMax, (w'.withDraw r).Ends retFd sinAddr

/-- A draw can end the loop exactly when the socket is unbound and a free port is neither
shown nor refused. -/
theorem exists_ends_iff : (∃ r ≤ randMax, (w.withDraw r).Ends retFd sinAddr) ↔
    w.Unbound retFd ∧ ∃ port, w.Free port ∧
      ¬w.host.Lists (BitVec.ofNat 32 port) ∧ w.host.refused port = false := by
  constructor
  · rintro ⟨r, -, p, w', hplay⟩
    obtain ⟨hlists, ⟨hunbound, hfree, hrefused⟩, -, -⟩ := play_drawPort_one.mp hplay
    have hdrawn : BitVec.ofNat 32 (w.withDraw r).drawn.toNat = (w.withDraw r).drawn := by simp
    rw [← hdrawn] at hlists
    exact ⟨hunbound, (w.withDraw r).drawn.toNat, ⟨(w.withDraw r).drawn_mem, hfree⟩, hlists,
      hrefused⟩
  · rintro ⟨hunbound, port, ⟨hrange, hfree⟩, hlists, hrefused⟩
    obtain ⟨r, hr, hdrawn⟩ := w.exists_drawn hrange
    have hport : BitVec.ofNat 32 port = (w.withDraw r).drawn := by simp [← hdrawn]
    have hbinds : (w.withDraw r).Binds retFd (w.withDraw r).drawn.toNat := by
      rw [hdrawn]
      exact ⟨hunbound, hfree, hrefused⟩
    rw [hport] at hlists
    exact ⟨r, hr, (w.withDraw r).drawn, _, play_drawPort_one.mpr ⟨hlists, hbinds, rfl, rfl⟩⟩

/-- The search keeps its promise exactly when every attempt it gets to while a port is free
still has an unbound socket and a free port that is neither shown nor refused. -/
theorem searches_iff (hdefault : defaultPort.toNat < 65536) :
    Searches retFd sinAddr defaultPort w ↔ ∀ w', Reached retFd sinAddr defaultPort w w' →
      (∃ port, w'.Free port) → w'.Unbound retFd ∧ ∃ port, w'.Free port ∧
        ¬w'.host.Lists (BitVec.ofNat 32 port) ∧ w'.host.refused port = false := by
  constructor
  · intro hsearches w' hreached hfree
    exact exists_ends_iff.mp (hsearches.escapes w' hreached hfree)
  · intro hports
    constructor
    · intro rounds p w' hplay
      exact boundTo_of_createSocketBind hdefault hplay
    · intro w' hreached hfree
      exact exists_ends_iff.mpr (hports w' hreached hfree)

/-- Attempts that fail leave the descriptors and the host as they are. -/
theorem drawPort_unchanged
    (h : (drawPort retFd sinAddr rounds).play Search.answers w = .stuck .spin w') :
    w'.hosts = w.hosts ∧ w'.bound = w.bound := by
  induction rounds generalizing w with
  | zero =>
    obtain ⟨-, rfl⟩ := Outcome.stuck.inj h
    exact ⟨rfl, rfl⟩
  | succ rounds ih =>
    rw [play_drawPort_succ] at h
    split_ifs at h
    · exact ih (w := w.next) h
    · exact ih (w := w.next) h

/-- The attempts before another one have changed neither the hosts nor what is bound. -/
theorem Reached.unchanged (h : Reached retFd sinAddr defaultPort w w') :
    w'.hosts = w.hosts ∧ w'.bound = w.bound := by
  obtain ⟨rounds, hplay⟩ := h
  rw [play_createSocketBind] at hplay
  split_ifs at hplay
  · exact drawPort_unchanged hplay
  · exact drawPort_unchanged (w := w.next) hplay

end Attempts

/-- A host with one open socket on which nothing runs but a server on UDP port 55550. -/
def lonelyHost : Host where
  socket fd := fd = 3
  inUse port := port = 55550
  netstat := ["udp        0      0 0.0.0.0:55550           0.0.0.0:*".toList]
  refused _ := false
  nonneg {fd} h := by
    have hfd : fd = 3 := of_decide_eq_true h
    omega

/-- Port 5555 is free there, and `grep` finds it all the same. -/
example : lonelyHost.inUse 5555 = false ∧ lonelyHost.Lists 5555 := by decide

/-- A search on that host whose every draw is `0`. -/
def lonelySearch : Search := ⟨fun _ => 0, fun _ => lonelyHost, 0, fun _ => none⟩

/-- On a host without other sockets the port 5000 is free. -/
theorem lonelySearch_free : lonelySearch.Free 5000 := by
  constructor
  · constructor <;> decide
  · rfl

/-- On its socket the search keeps its promise: 5000 is free and not shown. -/
theorem searches_iff_lonelySearch : Searches 3 inaddrAny udpPort lonelySearch := by
  refine (searches_iff (by decide)).mpr fun w' hreached _ => ?_
  obtain ⟨hhosts, hbound⟩ := hreached.unchanged
  have hhost : w'.host = lonelyHost := by rw [Search.host, hhosts]; rfl
  have hunbound : w'.Unbound 3 := by
    rw [Search.Unbound, hhost, hbound]
    exact ⟨rfl, rfl⟩
  have hfree : w'.Free 5000 := by
    rw [Search.Free, hhost]
    exact lonelySearch_free
  have hlists : ¬w'.host.Lists (BitVec.ofNat 32 5000) := by
    rw [hhost]
    decide
  have hrefused : w'.host.refused 5000 = false := by
    rw [hhost]
    rfl
  exact ⟨hunbound, 5000, hfree, hlists, hrefused⟩

/-- Where `socket` failed the search is given `-1`. It gets to another attempt with port
5000 free, and no draw ends it. -/
theorem not_searches_negative : ¬Searches (-1) inaddrAny udpPort lonelySearch := by
  intro hsearches
  have hreached : Reached (-1) inaddrAny udpPort lonelySearch lonelySearch.next := by
    use 0
    rw [play_createSocketBind]
    rfl
  obtain ⟨r, -, p, w', hplay⟩ := hsearches.escapes _ hreached ⟨5000, lonelySearch_free⟩
  obtain ⟨-, hbinds, -⟩ := play_drawPort_one.mp hplay
  exact not_binds_of_negative (by decide) _ hbinds

end HeptaVcn.TunnelServer
