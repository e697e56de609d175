import HeptaVcn.Handshake.Agreement
import HeptaVcn.Machine.Copies

/-!
# Sessions do not share a socket

Any number of phones connect, each to a child of its own, and all the children search for
a port on one host. The kernel binds no two sockets to one port. So what a phone that
relays sends goes to the socket of its own session and to no other.
-/

namespace HeptaVcn

open Machine

/-- What a session starts with: the arguments of `ipReflect_start` on the phone and those of
`process` in the child. -/
structure SessionSetup where
  inetAddr : String → BitVec 32
  clientTun : ℤ
  ipaddrStr : String
  port : CInt
  rounds : ℕ
  garbage : TunnelServer.Uninitialized
  sockStatusFd : ℤ
  serverTun : ℤ

/-- A phone and its child of the server. -/
structure HostSession where
  ends : Rendezvous
  /-- The process of the child has ended, and its sockets are closed. -/
  ended : Bool

namespace HostSession

/-- Both ends before their first calls. -/
def start (s : SessionSetup) : HostSession where
  ends := .start s.inetAddr s.clientTun s.ipaddrStr s.port s.rounds s.garbage s.sockStatusFd
    s.serverTun
  ended := false

/-- The port that the UDP socket of the child keeps in use. -/
def holds (s : HostSession) : Option (BitVec 16) :=
  if s.ended then none else s.ends.server.progress.bound

end HostSession

/-- What can happen on the host: a phone connects and a child is forked for it, one of the
ends of a session takes a step, the process of a child ends. -/
inductive HostLabel where
  | accepted (setup : SessionSetup)
  | session (i : ℕ) (a : Handshake.Label)
  | ended (i : ℕ)

namespace ServerHost

/-- A `bind` that succeeds needs a port that no other session keeps in use. -/
def available (l : List HostSession) (i : ℕ) : Handshake.Label → Bool
  | .server (.call (.bind _ addr) r) =>
    r ≠ (0 : ℤ) || (l.eraseIdx i).all fun s => s.holds ≠ some addr.sinPort
  | _ => true

/-- One step on the host. -/
def step (l : List HostSession) : HostLabel → Option (List HostSession)
  | .accepted setup => some (l ++ [.start setup])
  | .session i a =>
    l[i]?.bind fun s =>
      match a with
      | .client _ => (s.ends.step a).map fun ends => l.set i { s with ends := ends }
      | .server _ =>
        if s.ended || !available l i a then none
        else (s.ends.step a).map fun ends => l.set i { s with ends := ends }
  | .ended i => l[i]?.map fun s => l.set i { s with ended := true }

end ServerHost

/-! ## Ports in use -/

/-- No port is held by both. -/
def HostSession.ApartFrom (s t : HostSession) : Prop :=
  ∀ port, s.holds = some port → t.holds ≠ some port

/-- Two sessions are apart in either order. -/
theorem HostSession.ApartFrom.symm {s t : HostSession} (h : s.ApartFrom t) : t.ApartFrom s :=
  fun port ht hs => h port hs ht

/-- A session that holds what it held is apart from what it was apart from. -/
theorem HostSession.ApartFrom.of_holds {s s' t : HostSession} (h : s.ApartFrom t)
    (hholds : ∀ port, s'.holds = some port → s.holds = some port) : s'.ApartFrom t :=
  fun port hs => h port (hholds port hs)

/-- Only a `bind` on the UDP socket that succeeds changes what the socket is bound to. -/
theorem Progress.bound_after (v : Progress) (op : Syscall) (r : op.Reply) :
    (v.after op r).bound = v.bound ∨
      ∃ fd addr, (⟨op, r⟩ : (op : Syscall) × op.Reply) = ⟨.bind fd addr, (0 : ℤ)⟩ ∧
        (v.after op r).bound = some addr.sinPort := by
  unfold after
  split
  case h_5 fd addr r =>
    split
    case isTrue h =>
      obtain ⟨_, rfl⟩ := h
      exact Or.inr ⟨fd, addr, rfl, rfl⟩
    case isFalse => exact Or.inl rfl
  case h_3 | h_4 | h_6 => split <;> exact Or.inl rfl
  all_goals exact Or.inl rfl

/-- A step of a party changes the port only by such a `bind`. -/
theorem Party.bound_step {α : Type} {cb : Callbacks} {incoming : List UInt8} {w w' : Party α}
    {a : Action} (hstep : w.step cb incoming a = some w') :
    w'.progress.bound = w.progress.bound ∨
      ∃ fd addr, a = .call (.bind fd addr) (0 : ℤ) ∧ w'.progress.bound = some addr.sinPort := by
  obtain ⟨thread, v⟩ := w
  cases thread with
  | running p =>
    cases a with
    | call op r =>
      simp only [step, Option.ite_none_right_eq_some, Option.map_eq_some_iff] at hstep
      obtain ⟨_, q, _, rfl⟩ := hstep
      rcases v.bound_after op r with hsame | ⟨fd, addr, hbind, hbound⟩
      · exact Or.inl hsame
      · obtain ⟨rfl, hr⟩ := Sigma.mk.inj hbind
        obtain rfl := eq_of_heq hr
        exact Or.inr ⟨fd, addr, rfl, hbound⟩
    | dispatch =>
      simp only [step] at hstep
      split at hstep
      case h_1 =>
        cases hstep
        exact Or.inl rfl
      case h_2 => cases hstep
    | _ => simp [step] at hstep
  | dispatching l next =>
    cases a with
    | relay e =>
      obtain ⟨l', _, rfl⟩ := Option.map_eq_some_iff.mp hstep
      exact Or.inl rfl
    | leave code =>
      simp only [step, Option.ite_none_right_eq_some, Option.some.injEq] at hstep
      obtain ⟨_, rfl⟩ := hstep
      exact Or.inl rfl
    | _ => simp [step] at hstep

namespace ServerHost

variable {l m : List HostSession} {tr : List HostLabel}

/-- Every session keeps its contracts, and no two hold one port. -/
structure Inv (l : List HostSession) : Prop where
  keeps : ∀ s ∈ l, ∃ ipaddr, s.ends.Inv ipaddr
  apart : Apart HostSession.ApartFrom l

/-- A session changes to one that holds no more than it did. -/
theorem Inv.set (h : Inv l) {i : ℕ} {s s' : HostSession} (hs : l[i]? = some s)
    (hkeeps : ∃ ipaddr, s'.ends.Inv ipaddr)
    (hholds : ∀ port, s'.holds = some port → s.holds = some port) : Inv (l.set i s') where
  keeps := forall_mem_set h.keeps hkeeps
  apart := by
    refine h.apart.set fun j t hj ht => ?_
    have hapart := (h.apart i j s t hj.symm hs ht).of_holds hholds
    exact ⟨hapart, hapart.symm⟩

/-- A session gets a port that no other one holds. -/
theorem Inv.bind (h : Inv l) {i : ℕ} {s' : HostSession} (port : BitVec 16)
    (hkeeps : ∃ ipaddr, s'.ends.Inv ipaddr) (hholds : s'.holds = some port)
    (hfree : ∀ s ∈ l.eraseIdx i, s.holds ≠ some port) : Inv (l.set i s') where
  keeps := forall_mem_set h.keeps hkeeps
  apart := by
    refine h.apart.set fun j t hj ht => ?_
    have hother : t ∈ l.eraseIdx i := List.mem_eraseIdx_iff_getElem?.mpr ⟨j, hj, ht⟩
    have hapart : s'.ApartFrom t := by
      intro port' hport' htport
      rw [hholds, Option.some.injEq] at hport'
      exact hfree t hother (hport' ▸ htport)
    exact ⟨hapart, hapart.symm⟩

/-- A step of one session keeps all of them agreed and apart. -/
theorem inv_step {a : HostLabel} (h : Inv l) (hstep : step l a = some m) : Inv m := by
  cases a with
  | accepted setup =>
    obtain rfl := Option.some.inj hstep
    refine ⟨forall_mem_concat h.keeps ⟨_, Rendezvous.inv_start⟩, h.apart.concat fun t _ => ?_⟩
    have hapart : (HostSession.start setup).ApartFrom t := fun port hport => by cases hport
    exact ⟨hapart, hapart.symm⟩
  | session i a =>
    obtain ⟨s, hs, hstep⟩ := Option.bind_eq_some_iff.mp hstep
    obtain ⟨ipaddr, hinv⟩ := h.keeps s (List.mem_of_getElem? hs)
    cases a with
    | client a =>
      obtain ⟨ends, hends, rfl⟩ := Option.map_eq_some_iff.mp hstep
      refine h.set hs ⟨ipaddr, Rendezvous.inv_step hinv hends⟩ fun port hport => ?_
      obtain ⟨w, _, rfl⟩ := Option.map_eq_some_iff.mp hends
      exact hport
    | server a =>
      simp only [Option.ite_none_left_eq_some] at hstep
      obtain ⟨havailable, hstep⟩ := hstep
      obtain ⟨ends, hends, rfl⟩ := Option.map_eq_some_iff.mp hstep
      have hkeeps := Rendezvous.inv_step hinv hends
      obtain ⟨w, hw, rfl⟩ := Option.map_eq_some_iff.mp hends
      simp only [Bool.or_eq_true, Bool.not_eq_true', not_or, Bool.not_eq_true,
        Bool.not_eq_false] at havailable
      obtain ⟨hended, havailable⟩ := havailable
      rcases Party.bound_step hw with hsame | ⟨fd, addr, rfl, hbound⟩
      · refine h.set hs ⟨ipaddr, hkeeps⟩ fun port hport => ?_
        rw [HostSession.holds, hended] at hport ⊢
        rw [← hsame]
        exact hport
      · refine h.bind addr.sinPort ⟨ipaddr, hkeeps⟩ ?_ ?_
        · rw [HostSession.holds, hended]
          exact hbound
        · simpa [available] using havailable
  | ended i =>
    obtain ⟨s, hs, rfl⟩ := Option.map_eq_some_iff.mp hstep
    exact h.set hs (h.keeps s (List.mem_of_getElem? hs)) fun port hport => by cases hport

/-- Without a session there is nothing to keep apart. -/
theorem inv_nil : Inv [] := ⟨fun _ hmem => absurd hmem List.not_mem_nil, apart_nil _⟩

/-- However any number of sessions interleave on the host: what a phone that relays sends
goes to the socket of its own child, as long as that runs, and to no other child's. -/
theorem isolated_of_run (hrun : run step [] tr = some l) {i : ℕ} {s : HostSession}
    (hs : l[i]? = some s) (hdispatching : s.ends.client.thread.isDispatching)
    (hended : s.ended = false) :
    ∃ peer, s.ends.client.progress.peer = some peer ∧
      ∀ j t, l[j]? = some t → (t.holds = some peer.sinPort ↔ j = i) := by
  have hinv : Inv l := invariant (fun _ _ _ => inv_step) inv_nil hrun
  obtain ⟨ipaddr, hkeeps⟩ := hinv.keeps s (List.mem_of_getElem? hs)
  obtain ⟨n, port, _, _, _, _, hbound, hpeer⟩ := hkeeps.agreed hdispatching
  have hholds : s.holds = some (htons port) := by
    rw [HostSession.holds, hended]
    exact hbound.1
  refine ⟨_, hpeer, fun j t ht => ⟨fun hport => ?_, ?_⟩⟩
  · by_contra hj
    exact hinv.apart i j s t (Ne.symm hj) hs ht _ hholds hport
  · rintro rfl
    obtain rfl := Option.some.inj (hs.symm.trans ht)
    exact hholds

/-- A phone connects whose uninitialized variables of `process` are zero. -/
def phoneConnects : HostLabel :=
  .accepted ⟨fun _ => Handshake.serverAddr, 6, "192.168.0.1", 55540, 1, ⟨0, ⟨0, 0⟩⟩, 4, 3⟩

/-- The second phone's child finds the default port in use and draws port 5000. -/
def secondRelays : List Handshake.Label :=
  [.client (.call (.socket .stream) (3 : ℤ)), .client (.call (.setControlSock 3) ()),
    .client (.call .getControlSock (3 : ℤ)),
    .client (.call (.connect 3 ⟨Handshake.serverAddr, 55540⟩) (0 : ℤ)),
    .client (.call .rand (9 : ℕ)), .client (.call .getControlSock (3 : ℤ)),
    .client (.call (.write 3 [9, 0, 0, 0]) (4 : ℤ)),
    .server (.call (.read 4 4) (some [9, 0, 0, 0])),
    .server (.call (.write 4 [9, 0, 0, 0]) (4 : ℤ)), .server (.call (.socket .dgram) (5 : ℤ)),
    .server (.call (.bind 5 ⟨0, 55550⟩) (-1 : ℤ)), .server (.call .rand (0 : ℕ)),
    .server (.call (.netstat 5000) (1 : ℤ)), .server (.call (.bind 5 ⟨0, 5000⟩) (0 : ℤ)),
    .server (.call (.write 4 [136, 19, 0, 0]) (4 : ℤ)),
    .client (.call .getControlSock (3 : ℤ)), .client (.call (.read 3 4) (some [9, 0, 0, 0])),
    .client (.call (.log "tcp successful") ()), .client (.call .getControlSock (3 : ℤ)),
    .client (.call (.read 3 4) (some [136, 19, 0, 0])), .client (.call (.socket .dgram) (5 : ℤ)),
    .client (.call (.connect 5 ⟨Handshake.serverAddr, 5000⟩) (0 : ℤ)),
    .client (.call (.write 5 [9, 0, 0, 0]) (4 : ℤ)), .client .dispatch]

/-- Two phones connect, and both relay. -/
def bothRelay : List HostLabel :=
  [phoneConnects, phoneConnects] ++ Rendezvous.clientRelays.map (.session 0) ++
    secondRelays.map (.session 1)

/-- Two clients relay, each with a socket of its own session. -/
theorem isolated_of_run_bothRelay : ∃ l s, run step [] bothRelay = some l ∧ l[1]? = some s ∧
    ∃ peer, s.ends.client.progress.peer = some peer ∧
      ∀ j t, l[j]? = some t → (t.holds = some peer.sinPort ↔ j = 1) := by
  have hrun : ∃ l s, run step [] bothRelay = some l ∧ l[1]? = some s ∧
      s.ends.client.thread.isDispatching ∧ s.ended = false := ⟨_, _, rfl, rfl, rfl, rfl⟩
  obtain ⟨l, s, hrun, hs, hdispatching, hended⟩ := hrun
  exact ⟨l, s, hrun, hs, isolated_of_run hrun hs hdispatching hended⟩

end ServerHost

end HeptaVcn
