import Mathlib.Order.GameAdd
import HeptaVcn.Handshake.Deadlock

/-!
# The handshake completes

Only a call that fails or that transfers fewer bytes than it was asked to can keep the
client from relaying, and the server from waiting for the hello at least. As long as
there is no such call, one of the ends can always go on, whatever they did before; and
neither can go on forever, since each call leaves less of its program. After that the
server needs one datagram to relay, which need not be the hello.
-/

namespace HeptaVcn

open Machine

/-- The call does not fail, and it transfers as many bytes as it was asked to. What
`recvfrom` takes for the hello does not matter, and the relay loop does not return. -/
def Syscall.GoesWell : (op : Syscall) → op.Reply → Prop
  | .socket _, r => (0 : ℤ) ≤ r
  | .connect .., r | .bind .., r => r = (0 : ℤ)
  | .read _ len, some bytes => bytes.length = len
  | .read .., none => False
  | .write _ bytes, r => r = (bytes.length : ℤ)
  | .eventBaseDispatch _, _ => False
  | _, _ => True

/-- The action is not a failure, and no end of the relay loop. -/
def Action.GoesWell : Action → Prop
  | .call op r => op.GoesWell r
  | .leave _ => False
  | _ => True

/-- A step of the handshake that goes well. -/
def Action.Advances : Action → Prop
  | .call op r => op.GoesWell r
  | .dispatch => True
  | _ => False

/-- A step of the handshake that goes well, and for which no datagram is needed. -/
def Action.Unaided : Action → Prop
  | .call (.recvfrom ..) _ => False
  | a => a.Advances

/-- A step without a datagram is a step of the handshake. -/
theorem Action.Unaided.advances {a : Action} (h : a.Unaided) : a.Advances := by
  unfold Unaided at h
  split at h
  case h_1 => exact h.elim
  case h_2 => exact h

/-- A step of the handshake is no failure. -/
theorem Action.Advances.goesWell {a : Action} (h : a.Advances) : a.GoesWell := by
  cases a with
  | call op r => exact h
  | leave code => exact h
  | _ => trivial

namespace Handshake.Label

/-- What one of the ends does goes well. -/
def GoesWell : Label → Prop
  | .client a | .server a => a.GoesWell

/-- One of the ends takes a step of its handshake that goes well. -/
def Advances : Label → Prop
  | .client a | .server a => a.Advances

/-- One of the ends takes such a step without a datagram. -/
def Unaided : Label → Prop
  | .client a | .server a => a.Unaided

/-- A step of the handshake is no failure, whichever end takes it. -/
theorem Advances.goesWell {a : Label} (h : a.Advances) : a.GoesWell := by
  cases a with
  | client a => exact Action.Advances.goesWell h
  | server a => exact Action.Advances.goesWell h

/-- A step without a datagram is one of the handshake, whichever end takes it. -/
theorem Unaided.advances {a : Label} (h : a.Unaided) : a.Advances := by
  cases a with
  | client a => exact Action.Unaided.advances h
  | server a => exact Action.Unaided.advances h

end Handshake.Label

/-! ## A party on course -/

/-- The contract of a party whose calls all go well, with the descriptor of its control
connection. All it reads and writes are integers, and it does not exit. -/
def onCourse : Program.Contract Sys ℤ where
  demand control
    | .read fd len => fd = control ∧ len = 4
    | .write _ bytes => bytes.length = 4
    | .bind fd _ => 0 ≤ fd
    | .exit _ | .spin => False
    | _ => True
  admits control
    | .getControlSock, r => r = control
    | op, r => op.GoesWell r
  after control
    | .setControlSock fd, _ => fd
    | _, _ => control

section OnCourse

variable {α : Type} {control : ℤ}

/-- Where all calls go well `read_int` returns some integer. -/
theorem readInt_onCourse {post : ℤ → CInt → Prop} (h : ∀ n, post control n) :
    (readInt control).wp onCourse post control := by
  refine ⟨⟨rfl, rfl⟩, fun r hr => ?_⟩
  match r with
  | none => exact hr.elim
  | some bytes =>
    have hlength : bytes.length = 4 := hr
    simp only [Program.done_bind, hlength]
    exact h _

/-- Where all calls go well `write_int` returns. -/
theorem writeInt_onCourse {fd : ℤ} {n : CInt} {post : ℤ → Unit → Prop} (h : post control ()) :
    (writeInt fd n).wp onCourse post control := by
  refine ⟨rfl, fun r hr => ?_⟩
  obtain rfl : r = (4 : ℤ) := hr
  exact h

/-- The global variable holds the descriptor of the control connection. -/
theorem getControlSock_onCourse {next : ℤ → Program Sys α} {post : ℤ → α → Prop}
    (h : (next control).wp onCourse post control) :
    (Program.call (E := Sys) .getControlSock next).wp onCourse post control := by
  refine ⟨trivial, fun r hr => ?_⟩
  obtain rfl : r = control := hr
  exact h

/-- `process` relays when all its calls go well, whatever it takes for the hello. -/
theorem process_onCourse (rounds : ℕ) (garbage : TunnelServer.Uninitialized)
    (sockStatusFd tunFd : ℤ) :
    (TunnelServer.process rounds garbage sockStatusFd tunFd).wp onCourse (fun _ _ => False)
      sockStatusFd := by
  simp only [TunnelServer.process, Program.bind_eq, Program.wp_bind]
  refine readInt_onCourse fun n => writeInt_onCourse ⟨trivial, fun udpSockfd hudp => ?_⟩
  -- `udpPort` is not zero, so the first `bind` is of that port
  refine ⟨hudp, fun bound hbound => ?_⟩
  obtain rfl : bound = (0 : ℤ) := hbound
  refine writeInt_onCourse ⟨trivial, fun received _ => ?_⟩
  simp only [Program.wp_done]
  have hdispatch : (Program.call (.eventBaseDispatch (TunnelServer.eventLoop udpSockfd tunFd))
      fun _ => Program.done () : Program Sys Unit).wp onCourse (fun _ _ => False) sockStatusFd :=
    ⟨trivial, fun _ hr => hr.elim⟩
  split
  case isFalse => exact hdispatch
  case isTrue =>
    refine ⟨trivial, fun connected hconnected => ?_⟩
    obtain rfl : connected = (0 : ℤ) := hconnected
    exact ⟨trivial, fun _ _ => hdispatch⟩

/-- Where all calls go well the client enters its relay loop. -/
theorem openTunnel_onCourse (inetAddr : String → BitVec 32) (tunFd : ℤ) (ipaddrStr : String)
    (flagSrandom : CInt) (err : ℤ) :
    (IpReflect.openTunnel inetAddr tunFd ipaddrStr flagSrandom err).wp onCourse
      (fun _ _ => False) control := by
  simp only [IpReflect.openTunnel, Program.bind_eq, Program.wp_bind]
  refine getControlSock_onCourse (readInt_onCourse fun port => ?_)
  refine ⟨trivial, fun udpTunnelFd _ => ⟨trivial, fun failed hfailed => ?_⟩⟩
  obtain rfl : failed = (0 : ℤ) := hfailed
  exact ⟨rfl, fun written hwritten => by
    obtain rfl : written = (4 : ℤ) := hwritten
    exact ⟨trivial, fun _ hr => hr.elim⟩⟩

/-- `ipReflect_start` relays when all its calls go well, whatever it reads. -/
theorem ipReflectStart_onCourse (inetAddr : String → BitVec 32) (tunFd : ℤ) (ipaddrStr : String)
    (tcpPort : CInt) :
    (IpReflect.ipReflectStart inetAddr tunFd ipaddrStr tcpPort).wp onCourse (fun _ _ => False)
      control := by
  simp only [IpReflect.ipReflectStart, Program.bind_eq, Program.wp_bind]
  refine ⟨trivial, fun sock hsock => ⟨trivial, fun _ _ => ?_⟩⟩
  have hnonneg : ¬sock < (0 : ℤ) := Int.not_lt.mpr hsock
  simp only [Program.wp_done, if_neg hnonneg, Program.wp_bind]
  refine getControlSock_onCourse ⟨trivial, fun err herr => ?_⟩
  obtain rfl : err = (0 : ℤ) := herr
  refine ⟨trivial, fun r _ => getControlSock_onCourse ?_⟩
  change Program.wp onCourse _ _ sock
  simp only [Program.done_bind, Program.wp_bind]
  refine writeInt_onCourse (getControlSock_onCourse (readInt_onCourse fun echo => ?_))
  have hopen : (IpReflect.openTunnel inetAddr tunFd ipaddrStr (BitVec.ofNat 32 r) 0).wp onCourse
      (fun _ _ => False) sock := openTunnel_onCourse inetAddr tunFd ipaddrStr _ 0
  split
  · exact ⟨trivial, fun _ _ => hopen⟩
  · exact hopen

end OnCourse

/-- Both streams are cut between two integers. -/
def Progress.Aligned (v : Progress) : Prop := 4 ∣ v.read.length ∧ 4 ∣ v.written.length

/-- There is an integer to read unless everything has been read. -/
theorem exists_integer {read incoming : List UInt8} (hbegins : read <+: incoming)
    (hread : 4 ∣ read.length) (hincoming : 4 ∣ incoming.length) (hne : read ≠ incoming) :
    ∃ bytes : List UInt8, bytes.length = 4 ∧ read ++ bytes <+: incoming := by
  obtain ⟨rest, rfl⟩ := hbegins
  have hrest : rest ≠ [] := fun h => hne (by simp [h])
  have hpos := List.length_pos_of_ne_nil hrest
  rw [List.length_append] at hincoming
  refine ⟨rest.take 4, ?_, (List.prefix_append_right_inj read).mpr (List.take_prefix 4 rest)⟩
  rw [List.length_take]
  omega

namespace Party

variable {α : Type} {cb : Callbacks} {incoming : List UInt8} {w w' : Party α} {a : Action}

/-- Everything a party has still to call goes well, up to its relay loop. -/
def OnCourse (w : Party α) : Prop :=
  match w.thread with
  | .running p => p.wp onCourse (fun _ _ => False) w.progress.control
  | .dispatching .. => True

/-- The party reads an integer that the other end has not written yet. -/
def Starves (incoming : List UInt8) (w : Party α) : Prop :=
  ∃ len next, w.thread = .running (.call (.read w.progress.control len) next) ∧
    w.progress.read = incoming

/-- The party waits for a datagram. -/
def AwaitsHello (w : Party α) : Prop :=
  ∃ fd len next, w.thread = .running (.call (.recvfrom fd len) next)

/-- A party that starves waits for the other end. -/
theorem Starves.waits (h : w.Starves incoming) : w.Waits incoming := by
  obtain ⟨len, next, hthread, hread⟩ := h
  unfold Waits
  rw [hthread]
  exact ⟨rfl, hread⟩

/-- A reply that goes well is one that the contract expects. -/
theorem onCourse_admits {v : Progress} {op : Syscall} {r : op.Reply}
    (hadmits : v.admits incoming op r) (hwell : op.GoesWell r) :
    onCourse.admits v.control op r := by
  cases op with
  | getControlSock =>
    show r = v.control
    simpa [Progress.admits] using hadmits
  | _ => exact hwell

/-- The contract follows the descriptor of the control connection. -/
theorem onCourse_after (v : Progress) (op : Syscall) (r : op.Reply) :
    onCourse.after v.control op r = (v.after op r).control := by
  cases op with
  | socket type => cases type <;> rfl
  | read fd len =>
    cases r with
    | none => rfl
    | some bytes =>
      simp only [Progress.after]
      split <;> rfl
  | write | bind | connect =>
    simp only [Progress.after]
    split <;> rfl
  | _ => rfl

/-- An integer is read or written as a whole. -/
theorem aligned_after {v : Progress} {op : Syscall} {r : op.Reply}
    (hdemand : onCourse.demand v.control op) (hwell : op.GoesWell r) (h : v.Aligned) :
    (v.after op r).Aligned := by
  obtain ⟨hread, hwritten⟩ := h
  unfold Progress.after
  split
  case h_3 fd len bytes =>
    have hlength : bytes.length = 4 := Eq.trans hwell hdemand.2
    split
    · exact ⟨by simpa [hlength] using hread, hwritten⟩
    · exact ⟨hread, hwritten⟩
  case h_4 fd bytes r =>
    have hlength : bytes.length = 4 := hdemand
    obtain rfl : r = (bytes.length : ℤ) := hwell
    split
    · exact ⟨hread, by simpa [hlength] using hwritten⟩
    · exact ⟨hread, hwritten⟩
  case h_5 | h_6 =>
    split
    · exact ⟨hread, hwritten⟩
    · exact ⟨hread, hwritten⟩
  all_goals exact ⟨hread, hwritten⟩

/-- A step that goes well keeps a party on course. -/
theorem onCourse_step (h : w.OnCourse) (haligned : w.progress.Aligned) (hwell : a.GoesWell)
    (hstep : w.step cb incoming a = some w') : w'.OnCourse ∧ w'.progress.Aligned := by
  obtain ⟨thread, v⟩ := w
  cases thread with
  | running p =>
    cases a with
    | call op r =>
      simp only [step, Option.ite_none_right_eq_some, Option.map_eq_some_iff] at hstep
      obtain ⟨hadmits, q, hresume, rfl⟩ := hstep
      obtain ⟨hdemand, hq⟩ := Program.wp_resume h hresume (onCourse_admits hadmits hwell)
      rw [onCourse_after] at hq
      exact ⟨hq, aligned_after hdemand hwell haligned⟩
    | dispatch =>
      simp only [step] at hstep
      split at hstep
      case h_1 =>
        cases hstep
        exact ⟨trivial, haligned⟩
      case h_2 => cases hstep
    | _ => simp [step] at hstep
  | dispatching l next =>
    cases a with
    | relay e =>
      obtain ⟨l', _, rfl⟩ := Option.map_eq_some_iff.mp hstep
      exact ⟨trivial, haligned⟩
    | leave code => exact hwell.elim
    | _ => simp [step] at hstep

/-- Every call that does not wait can go well. -/
theorem exists_reply (incoming : List UInt8) {v : Progress} {op : Syscall}
    (hdemand : onCourse.demand v.control op) (hwaiting : ¬op.Waiting) :
    ∃ r, op.GoesWell r ∧ v.admits incoming op r := by
  cases op with
  | read | recvfrom | eventBaseDispatch => exact absurd trivial hwaiting
  | exit | spin => exact hdemand.elim
  | write fd bytes => exact ⟨(bytes.length : ℤ), rfl, rfl⟩
  | bind fd addr =>
    have hfd : 0 ≤ fd := hdemand
    exact ⟨(0 : ℤ), rfl, by simpa [Progress.admits] using hfd⟩
  | getControlSock => exact ⟨v.control, trivial, by simp [Progress.admits]⟩
  | rand => exact ⟨(0 : ℕ), trivial, rfl⟩
  | log | setControlSock => exact ⟨(), trivial, rfl⟩
  | socket => exact ⟨(0 : ℤ), Int.le_refl 0, rfl⟩
  | connect => exact ⟨(0 : ℤ), rfl, rfl⟩
  | _ => exact ⟨(0 : ℤ), trivial, rfl⟩

/-- A call that is answered. -/
theorem call_step {v : Progress} {op : Syscall} {next : op.Reply → Program Sys α} {r : op.Reply}
    (hadmits : v.admits incoming op r) :
    step cb incoming ⟨.running (.call op next), v⟩ (.call op r) =
      some ⟨.running (next r), v.after op r⟩ := by
  simp only [step, if_pos hadmits, Program.resume]
  rfl

/-- Whatever `recvfrom` takes, or if it fails, the party goes on. -/
theorem AwaitsHello.exists_advance (cb : Callbacks) (incoming : List UInt8)
    (h : w.AwaitsHello) : ∃ a w', a.Advances ∧ w.step cb incoming a = some w' := by
  obtain ⟨thread, v⟩ := w
  obtain ⟨fd, len, next, rfl⟩ := h
  exact ⟨.call (.recvfrom fd len) none, _, trivial, call_step rfl⟩

/-- A party on course that does not relay can go on by itself, unless it waits for an
integer or for a datagram. -/
theorem exists_unaided (cb : Callbacks) (h : w.OnCourse) (hbegins : w.progress.read <+: incoming)
    (hread : 4 ∣ w.progress.read.length) (hincoming : 4 ∣ incoming.length)
    (hrunning : w.thread.isDispatching = false) :
    w.Starves incoming ∨ w.AwaitsHello ∨
      ∃ a w', a.Unaided ∧ w.step cb incoming a = some w' := by
  obtain ⟨thread, v⟩ := w
  match thread with
  | .dispatching .. => cases hrunning
  | .running (.done result) => exact h.elim
  | .running (.call op next) =>
    obtain ⟨hdemand, -⟩ := h
    by_cases hwaiting : op.Waiting
    case neg =>
      obtain ⟨r, hwell, hadmits⟩ := exists_reply incoming hdemand hwaiting
      refine Or.inr (Or.inr ⟨.call op r, _, ?_, call_step hadmits⟩)
      cases op with
      | recvfrom => exact absurd trivial hwaiting
      | _ => exact hwell
    case pos =>
      cases op with
      | eventBaseDispatch l => exact Or.inr (Or.inr ⟨.dispatch, _, trivial, rfl⟩)
      | recvfrom fd len => exact Or.inr (Or.inl ⟨fd, len, next, rfl⟩)
      | read fd len =>
        obtain ⟨rfl, rfl⟩ : fd = v.control ∧ len = 4 := hdemand
        by_cases hall : v.read = incoming
        case pos => exact Or.inl ⟨4, next, rfl, hall⟩
        case neg =>
          obtain ⟨bytes, hlength, hbytes⟩ := exists_integer hbegins hread hincoming hall
          have hadmits : v.admits incoming (.read v.control 4) (some bytes) := by
            simpa [Progress.admits, hlength] using hbytes
          exact Or.inr (Or.inr ⟨.call (.read v.control 4) (some bytes), _, hlength,
            call_step hadmits⟩)
      | _ => exact hwaiting.elim

end Party

/-! ## What is left of a program -/

/-- The first thread is what a call of the second one leaves. -/
inductive Thread.LeftBy {α : Type} : Thread α → Thread α → Prop
  | reply (op : Syscall) (next : op.Reply → Program Sys α) (r : op.Reply) :
    LeftBy (.running (next r)) (.running (.call op next))
  | enter (l : EventLoop) (next : ℤ → Program Sys α) :
    LeftBy (.dispatching l next) (.running (.call (.eventBaseDispatch l) next))

/-- A thread makes finitely many calls. -/
theorem Thread.wellFounded_leftBy (α : Type) : WellFounded (Thread.LeftBy (α := α)) := by
  have hdispatching (l : EventLoop) (next : ℤ → Program Sys α) :
      Acc Thread.LeftBy (.dispatching l next) := ⟨_, fun _ h => nomatch h⟩
  refine ⟨fun thread => ?_⟩
  cases thread with
  | dispatching l next => exact hdispatching l next
  | running p =>
    induction p with
    | done a => exact ⟨_, fun _ h => nomatch h⟩
    | call op next ih =>
      refine ⟨_, fun _ h => ?_⟩
      cases h with
      | reply _ _ r => exact ih r
      | enter l next => exact hdispatching l next

/-- A step of the handshake leaves less of the program. -/
theorem Party.leftBy_step {α : Type} {cb : Callbacks} {incoming : List UInt8} {w w' : Party α}
    {a : Action} (ha : a.Advances) (hstep : w.step cb incoming a = some w') :
    w'.thread.LeftBy w.thread := by
  obtain ⟨thread, v⟩ := w
  cases thread with
  | running p =>
    cases a with
    | call op r =>
      simp only [step, Option.ite_none_right_eq_some, Option.map_eq_some_iff] at hstep
      obtain ⟨_, q, hresume, rfl⟩ := hstep
      obtain ⟨next, rfl, rfl⟩ := (Program.resume_eq_some (E := Sys)).mp hresume
      exact .reply op next r
    | dispatch =>
      simp only [step] at hstep
      split at hstep
      case h_1 l next hthread =>
        cases hthread
        cases hstep
        exact .enter l next
      case h_2 => cases hstep
    | _ => exact ha.elim
  | dispatching l next =>
    cases a with
    | call op r => cases hstep
    | dispatch => cases hstep
    | _ => exact ha.elim

/-! ## Both ends -/

namespace Rendezvous

variable {inetAddr : String → BitVec 32} {clientTun : ℤ} {ipaddrStr : String} {port : CInt}
  {rounds : ℕ} {garbage : TunnelServer.Uninitialized} {sockStatusFd serverTun : ℤ}
  {ipaddr : BitVec 32} {t u : Rendezvous} {tr : List Handshake.Label}

/-- The client relays, the server relays or waits for the hello, and they agree. -/
def Settled (ipaddr : BitVec 32) (t : Rendezvous) : Prop :=
  t.client.thread.isDispatching ∧
    (t.server.thread.isDispatching ∨ t.server.AwaitsHello) ∧ t.Agreed ipaddr

/-- Both ends relay, and they agree. -/
def Complete (ipaddr : BitVec 32) (t : Rendezvous) : Prop :=
  t.client.thread.isDispatching ∧ t.server.thread.isDispatching ∧ t.Agreed ipaddr

/-- Nothing has failed so far. -/
structure OnCourse (ipaddr : BitVec 32) (t : Rendezvous) : Prop where
  inv : t.Inv ipaddr
  inTurn : t.InTurn
  client : t.client.OnCourse
  server : t.server.OnCourse
  clientAligned : t.client.progress.Aligned
  serverAligned : t.server.progress.Aligned

/-- Before the first call nothing has failed. -/
theorem onCourse_start : (start inetAddr clientTun ipaddrStr port rounds garbage sockStatusFd
    serverTun).OnCourse (inetAddr ipaddrStr) where
  inv := inv_start
  inTurn := inTurn_start
  client := ipReflectStart_onCourse inetAddr clientTun ipaddrStr port
  server := process_onCourse rounds garbage sockStatusFd serverTun
  clientAligned := ⟨Nat.dvd_zero 4, Nat.dvd_zero 4⟩
  serverAligned := ⟨Nat.dvd_zero 4, Nat.dvd_zero 4⟩

/-- Nothing has failed after a step that goes well. -/
theorem onCourse_step {a : Handshake.Label} (h : t.OnCourse ipaddr) (hwell : a.GoesWell)
    (hstep : t.step a = some u) : u.OnCourse ipaddr := by
  have hinv := inv_step h.inv hstep
  have hturn := inTurn_step h.inTurn hstep
  cases a with
  | client a =>
    obtain ⟨w, hw, rfl⟩ := Option.map_eq_some_iff.mp hstep
    obtain ⟨hclient, haligned⟩ := Party.onCourse_step h.client h.clientAligned hwell hw
    exact ⟨hinv, hturn, hclient, h.server, haligned, h.serverAligned⟩
  | server a =>
    obtain ⟨w, hw, rfl⟩ := Option.map_eq_some_iff.mp hstep
    obtain ⟨hserver, haligned⟩ := Party.onCourse_step h.server h.serverAligned hwell hw
    exact ⟨hinv, hturn, h.client, hserver, h.clientAligned, haligned⟩

/-- A server that waits for an integer has read none. -/
theorem InTurn.read_of_server_starves (h : t.InTurn)
    (hstarves : t.server.Starves t.client.progress.written) : t.server.progress.read = [] := by
  obtain ⟨len, next, hthread, _⟩ := hstarves
  have hturn := h.server
  rw [Party.Follows, hthread] at hturn
  exact hturn.1

/-- The client waits for no datagram. -/
theorem InTurn.not_client_awaitsHello (h : t.InTurn) : ¬t.client.AwaitsHello := by
  rintro ⟨fd, len, next, hthread⟩
  have hturn := h.client
  rw [Party.Follows, hthread] at hturn
  exact hturn.1

/-- Where the client relays, or waits for an integer, the server has one to read. -/
theorem OnCourse.not_server_starves (h : t.OnCourse ipaddr)
    (hclient : t.client.thread.isDispatching ∨ t.client.Starves t.server.progress.written) :
    ¬t.server.Starves t.client.progress.written := by
  intro hstarves
  have hread := h.inTurn.read_of_server_starves hstarves
  rcases hclient with hdispatching | hclient
  case inl =>
    obtain ⟨n, _, _, hnonce, _⟩ := h.inv.agreed hdispatching
    have hlength := congrArg List.length hnonce
    simp [hread] at hlength
  case inr =>
    obtain ⟨_, _, _, hall⟩ := hstarves
    have hwritten := (h.inTurn.client_waits hclient.waits).1
    exact hwritten (by rw [← hall, hread])

/-- Where the client waits for an integer, the server has not announced its port. -/
theorem InTurn.server_of_client_starves (h : t.InTurn)
    (hclient : t.client.Starves t.server.progress.written) :
    t.server.thread.isDispatching = false ∧ ¬t.server.AwaitsHello := by
  have hshort := (h.client_waits hclient.waits).2
  refine ⟨Bool.eq_false_iff.mpr fun hrelays => ?_, ?_⟩
  · have hannounced := h.server_dispatching hrelays
    omega
  · rintro ⟨fd, len, next, hthread⟩
    have hturn := h.server
    rw [Party.Follows, hthread] at hturn
    have hannounced : t.server.progress.written.length = 8 := hturn.1
    omega

/-- The server goes on where the client cannot. -/
theorem OnCourse.server_unaided (h : t.OnCourse ipaddr)
    (hclient : t.client.thread.isDispatching ∨ t.client.Starves t.server.progress.written)
    (hrunning : t.server.thread.isDispatching = false) (hawaits : ¬t.server.AwaitsHello) :
    ∃ a u, a.Unaided ∧ t.step a = some u := by
  have hcases := Party.exists_unaided TunnelServer.callbacks h.server h.inv.inOrder.2
    h.serverAligned.1 h.clientAligned.2 hrunning
  rcases hcases with hstarves | hhello | ⟨a, w, ha, hw⟩
  · exact absurd hstarves (h.not_server_starves hclient)
  · exact absurd hhello hawaits
  · exact ⟨.server a, _, ha, by rw [step, hw]; rfl⟩

/-- Until the handshake is settled one of the ends can go on without a datagram. -/
theorem OnCourse.exists_unaided (h : t.OnCourse ipaddr) (hsettled : ¬t.Settled ipaddr) :
    ∃ a u, a.Unaided ∧ t.step a = some u := by
  cases hdispatching : t.client.thread.isDispatching with
  | true =>
    have hagreed := h.inv.agreed hdispatching
    refine h.server_unaided (Or.inl hdispatching) (Bool.eq_false_iff.mpr fun hserver => ?_)
      fun hserver => ?_
    · exact hsettled ⟨hdispatching, Or.inl hserver, hagreed⟩
    · exact hsettled ⟨hdispatching, Or.inr hserver, hagreed⟩
  | false =>
    have hcases := Party.exists_unaided IpReflect.callbacks h.client h.inv.inOrder.1
      h.clientAligned.1 h.serverAligned.2 hdispatching
    rcases hcases with hstarves | hhello | ⟨a, w, ha, hw⟩
    · obtain ⟨hrunning, hawaits⟩ := h.inTurn.server_of_client_starves hstarves
      exact h.server_unaided (Or.inr hstarves) hrunning hawaits
    · exact absurd hhello h.inTurn.not_client_awaitsHello
    · exact ⟨.client a, _, ha, by rw [step, hw]; rfl⟩

/-- Until both ends relay one of them can go on, with a datagram if need be. -/
theorem OnCourse.exists_advance (h : t.OnCourse ipaddr) (hcomplete : ¬t.Complete ipaddr) :
    ∃ a u, a.Advances ∧ t.step a = some u := by
  by_cases hsettled : t.Settled ipaddr
  case neg =>
    obtain ⟨a, u, ha, hstep⟩ := h.exists_unaided hsettled
    exact ⟨a, u, ha.advances, hstep⟩
  case pos =>
    obtain ⟨hclient, hserver | hhello, hagreed⟩ := hsettled
    · exact absurd ⟨hclient, hserver, hagreed⟩ hcomplete
    · obtain ⟨a, w, ha, hw⟩ :=
        hhello.exists_advance TunnelServer.callbacks t.client.progress.written
      exact ⟨.server a, _, ha, by rw [step, hw]; rfl⟩

/-- A step of the handshake leaves less of the two programs. -/
theorem gameAdd_step {a : Handshake.Label} (ha : a.Advances) (hstep : t.step a = some u) :
    Prod.GameAdd Thread.LeftBy Thread.LeftBy (u.client.thread, u.server.thread)
      (t.client.thread, t.server.thread) := by
  cases a with
  | client a =>
    obtain ⟨w, hw, rfl⟩ := Option.map_eq_some_iff.mp hstep
    exact .fst (Party.leftBy_step ha hw)
  | server a =>
    obtain ⟨w, hw, rfl⟩ := Option.map_eq_some_iff.mp hstep
    exact .snd (Party.leftBy_step ha hw)

/-- What every kind of step of the handshake leads to, under which one can go on until it is
reached. -/
theorem OnCourse.inevitably {L : Handshake.Label → Prop} {P : Rendezvous → Prop}
    (hL : ∀ a, L a → a.Advances)
    (hprogress : ∀ s : Rendezvous, s.OnCourse ipaddr → ¬P s → ∃ a u, L a ∧ s.step a = some u)
    (h : t.OnCourse ipaddr) : Inevitably step L P t := by
  have hwf := (Thread.wellFounded_leftBy ℤ).prod_gameAdd (Thread.wellFounded_leftBy Unit)
  refine inevitably_of_progress (I := OnCourse ipaddr)
    (InvImage.wf (fun t : Rendezvous => (t.client.thread, t.server.thread)) hwf) ?_ ?_ hprogress h
  · intro s a u hs ha hstep
    exact onCourse_step hs (hL a ha).goesWell hstep
  · intro s a u ha hstep
    exact gameAdd_step (hL a ha) hstep

/-- Wherever a run has got to in which nothing has failed so far, and whichever end makes
the next call: as long as nothing fails the handshake goes on without a datagram until the
client relays and the server relays or waits for the hello, and with whatever is taken for
the hello until both relay. The ends agree then. -/
theorem complete_of_goesWell
    (hrun : run step
      (start inetAddr clientTun ipaddrStr port rounds garbage sockStatusFd serverTun) tr = some t)
    (hwell : ∀ a ∈ tr, a.GoesWell) :
    Inevitably step Handshake.Label.Unaided (Settled (inetAddr ipaddrStr)) t ∧
      Inevitably step Handshake.Label.Advances (Complete (inetAddr ipaddrStr)) t := by
  have hcourse : t.OnCourse (inetAddr ipaddrStr) :=
    invariant_of_meets (fun _ _ _ h ha hstep => onCourse_step h ha hstep) onCourse_start
      (meets_of_mem hwell) hrun
  constructor
  · exact hcourse.inevitably (fun _ => Handshake.Label.Unaided.advances)
      fun _ h hsettled => h.exists_unaided hsettled
  · exact hcourse.inevitably (fun _ => id) fun _ h hcomplete => h.exists_advance hcomplete

/-- The client waits for the echo while the server has read the nonce. -/
theorem complete_of_goesWell_nonceRead : ∃ t, run step session nonceRead = some t ∧
    Inevitably step Handshake.Label.Unaided (Settled Handshake.serverAddr) t ∧
    Inevitably step Handshake.Label.Advances (Complete Handshake.serverAddr) t := by
  have hrun : ∃ t, run step session nonceRead = some t := ⟨_, rfl⟩
  obtain ⟨t, hrun⟩ := hrun
  refine ⟨t, hrun, complete_of_goesWell hrun ?_⟩
  simp [nonceRead, Handshake.Label.GoesWell, Action.GoesWell, Syscall.GoesWell]

end Rendezvous

end HeptaVcn
