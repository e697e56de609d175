import HeptaVcn.Machine.Play
import HeptaVcn.Native.IpReflect

/-!
# Failures of the client's handshake

A failing `socket` or `connect` is reported by `ipReflect_start` and its sockets are
closed, but a short `read` or `write` ends the whole process, and a call that never
returns keeps the handshake from ending. Nothing else goes wrong.
-/

namespace HeptaVcn.IpReflect

open Machine

/-- What the environment answers to the calls, counted from zero; `none` is a call that
never returns. -/
abbrev Environment := ℕ → (op : Syscall) → Option op.Reply

/-- The application's process around one call of `ipReflect_start`. -/
structure Process where
  /-- The calls answered so far. -/
  clock : ℕ
  tcpControlSockFd : ℤ
  /-- The sockets that were opened and not closed since. -/
  openSockets : List ℤ
  /-- The relay loop was entered. -/
  relayed : Bool

namespace Process

/-- The reply to a call. The global variable is the process's own, and `exit` has none. -/
def reply (env : Environment) (p : Process) : (op : Syscall) → Option op.Reply
  | .getControlSock => some p.tcpControlSockFd
  | .setControlSock _ | .log _ => some ()
  | op => env p.clock op

/-- The process after the reply to a call. -/
def after (p : Process) (op : Syscall) (r : op.Reply) : Process where
  clock := p.clock + 1
  tcpControlSockFd := match op with
    | .setControlSock fd => fd
    | _ => p.tcpControlSockFd
  openSockets := match op, r with
    | .socket _, fd => if fd < 0 then p.openSockets else fd :: p.openSockets
    | .close fd, _ => p.openSockets.filter (· ≠ fd)
    | _, _ => p.openSockets
  relayed := match op with
    | .eventBaseDispatch _ => true
    | _ => p.relayed

def answers (env : Environment) : Answers Sys Process := fun p op =>
  (p.reply env op).map fun r => (r, p.after op r)

/-- The process before the call. -/
def start (tcpControlSockFd : ℤ) : Process := ⟨0, tcpControlSockFd, [], false⟩

end Process

/-- The failure is reported: the process has not ended, and when `ipReflect_start` returns it
returns an error unless it has relayed, with its sockets closed. It need not return from the
relay loop. -/
def Reported : Outcome Sys Process ℤ → Prop
  | .returned err p => (err ≠ 0 ∨ p.relayed) ∧ p.openSockets = []
  | .stuck op _ => ∃ loop, op = .eventBaseDispatch loop

/-- The call returns, and a `read` or a `write` reads or writes all of its bytes. The relay
loop may run forever. -/
def Complete : (op : Syscall) → Option op.Reply → Prop
  | .read _ len, r => ∃ bytes, r = some (some bytes) ∧ bytes.length = len
  | .write _ bytes, r => r = some (bytes.length : ℤ)
  | .eventBaseDispatch _, _ => True
  | _, r => r.isSome

/-! ## Playing the handshake -/

section Playing

variable {env : Environment} {p : Process}

/-- From here on, the outcome is as it should be exactly when all calls are complete. -/
def Exact (env : Environment) (p : Process) (prog : Program Sys ℤ) : Prop :=
  Reported (prog.play (Process.answers env) p) ↔ prog.Answered (Process.answers env) Complete p

/-- Returning an error, or after the relay, with every socket closed is as it should be. -/
theorem exact_done {err : ℤ} (h : err ≠ 0 ∨ p.relayed) (hopen : p.openSockets = []) :
    Exact env p (.done err) :=
  iff_of_true ⟨h, hopen⟩ trivial

/-- A call after which an incomplete reply is never a report. -/
theorem exact_call {op : Syscall} {next : op.Reply → Program Sys ℤ}
    (hop : ∀ loop, op ≠ .eventBaseDispatch loop) (hnone : ¬Complete op none)
    (hincomplete : ∀ r, ¬Complete op (some r) →
      ¬Reported ((next r).play (Process.answers env) (p.after op r)))
    (hcomplete : ∀ r, p.reply env op = some r → Complete op (some r) →
      Exact env (p.after op r) (next r)) :
    Exact env p (.call op next) := by
  unfold Exact
  cases hreply : p.reply env op with
  | none =>
    have hanswer : Process.answers env p op = none := by simp [Process.answers, hreply]
    rw [Program.play_unanswered hanswer, Program.answered_unanswered hanswer]
    exact iff_of_false (fun ⟨loop, h⟩ => hop loop h) hnone
  | some r =>
    have hanswer : Process.answers env p op = some (r, p.after op r) := by
      simp [Process.answers, hreply]
    rw [Program.play_call hanswer, Program.answered_call hanswer]
    by_cases hr : Complete op (some r)
    · rw [and_iff_right hr]
      exact hcomplete r hreply hr
    · exact iff_of_false (hincomplete r hr) fun h => hr h.1

/-- A call that need only return. -/
def Plain : Syscall → Prop
  | .read .. | .write .. | .eventBaseDispatch _ => False
  | _ => True

/-- A call that need only return, and what follows it. -/
theorem exact_plain {op : Syscall} {next : op.Reply → Program Sys ℤ} (hop : Plain op)
    (hnext : ∀ r, p.reply env op = some r → Exact env (p.after op r) (next r)) :
    Exact env p (.call op next) := by
  have hcomplete : ∀ r, Complete op r ↔ r.isSome = true := by
    intro r
    cases op <;> first | exact hop.elim | exact Iff.rfl
  apply exact_call
  · rintro loop rfl
    exact hop
  · simp [hcomplete]
  · intro r hr
    simp [hcomplete] at hr
  · exact fun r hreply _ => hnext r hreply

/-- `ERR_EXIT` ends the process, which is never a report. -/
theorem not_reported_errExit {α : Type} (m : String) (f : α → Program Sys ℤ) (p : Process) :
    ¬Reported (((errExit m).bind f).play (Process.answers env) p) := by
  have hnone : Process.answers env (p.after (.log m) ()) (.exit 1) = none := by
    cases h : Process.answers env (p.after (.log m) ()) (.exit 1) with
    | none => rfl
    | some answer => nomatch answer.1
  have hlog : Process.answers env p (.log m) = some ((), p.after (.log m) ()) := rfl
  have hplay : ((errExit m).bind f).play (Process.answers env) p =
      .stuck (.exit 1) (p.after (.log m) ()) :=
    (Program.play_call hlog).trans (Program.play_unanswered hnone)
  rw [hplay]
  rintro ⟨loop, hexit⟩
  cases hexit

/-- An integer is read, and what follows it. -/
theorem exact_readInt {fd : ℤ} {f : CInt → Program Sys ℤ}
    (hnext : ∀ bytes v, Exact env (p.after (.read fd 4) (some bytes)) (f v)) :
    Exact env p ((readInt fd).bind f) := by
  apply exact_call (fun _ => by simp) (by simp [Complete])
  · rintro (_ | bytes) hr
    · exact not_reported_errExit _ _ _
    · have hlength : bytes.length ≠ 4 := by simpa [Complete] using hr
      change ¬Reported (Program.play _ (Program.bind (if bytes.length ≠ 4 then _ else _) f) _)
      rw [if_pos hlength]
      exact not_reported_errExit _ _ _
  · rintro r - ⟨bytes, hr, hlength⟩
    obtain rfl := Option.some.inj hr
    change Exact env _ (Program.bind (if bytes.length ≠ 4 then _ else _) f)
    rw [if_neg (not_not.mpr hlength)]
    exact hnext bytes _

/-- An integer is written, and what follows it. -/
theorem exact_writeInt {fd : ℤ} {v : CInt} {f : Unit → Program Sys ℤ}
    (hnext : Exact env (p.after (.write fd (intBytes v)) (4 : ℤ)) (f ())) :
    Exact env p ((writeInt fd v).bind f) := by
  apply exact_call (fun _ => by simp) (by simp [Complete])
  · intro written hr
    have hshort : written ≠ 4 := fun h => hr (by rw [h]; rfl)
    change ¬Reported (Program.play _ (Program.bind (if written ≠ 4 then _ else _) f) _)
    rw [if_pos hshort]
    exact not_reported_errExit _ _ _
  · intro written _ hr
    obtain rfl : written = 4 := Option.some.inj hr
    exact hnext

/-- Entering the relay loop is the end of the handshake. -/
theorem exact_dispatch {loop : EventLoop} {next : ℤ → Program Sys ℤ}
    (hnext : ∀ r, Exact env (p.after (.eventBaseDispatch loop) r) (next r)) :
    Exact env p (.call (.eventBaseDispatch loop) next) := by
  unfold Exact
  cases hreply : p.reply env (.eventBaseDispatch loop) with
  | none =>
    have hanswer : Process.answers env p (.eventBaseDispatch loop) = none := by
      simp [Process.answers, hreply]
    rw [Program.play_unanswered hanswer, Program.answered_unanswered hanswer]
    exact iff_of_true ⟨loop, rfl⟩ trivial
  | some r =>
    have hanswer : Process.answers env p (.eventBaseDispatch loop) =
        some (r, p.after (.eventBaseDispatch loop) r) := by
      simp [Process.answers, hreply]
    rw [Program.play_call hanswer, Program.answered_call hanswer]
    exact (hnext r).trans (iff_and_self.mpr fun _ => trivial)

/-- The global variable is read. -/
theorem exact_getControlSock {next : ℤ → Program Sys ℤ}
    (hnext : Exact env (p.after .getControlSock p.tcpControlSockFd) (next p.tcpControlSockFd)) :
    Exact env p (.call .getControlSock next) := by
  refine exact_plain (by trivial) ?_
  intro r hr
  obtain rfl := Option.some.inj hr
  exact hnext

/-- What was opened and is neither closed here nor the last descriptor is closed. -/
theorem exact_out1 {err : ℤ} (herr : err ≠ 0 ∨ p.relayed)
    (hopen : ∀ fd ∈ p.openSockets, fd = p.tcpControlSockFd) : Exact env p (out1 err) := by
  apply exact_getControlSock
  refine exact_plain (by trivial) ?_
  intro r _
  refine exact_done herr ?_
  simpa [Process.after] using hopen

/-- From the label `out2` on, the outcome is as it should be. -/
theorem exact_out2 {udpTunnelFd err : ℤ} (herr : err ≠ 0 ∨ p.relayed)
    (hopen : ∀ fd ∈ p.openSockets, fd = udpTunnelFd ∨ fd = p.tcpControlSockFd) :
    Exact env p (out2 udpTunnelFd err) := by
  refine exact_plain (by trivial) ?_
  intro r _
  refine exact_out1 herr ?_
  intro fd hfd
  obtain ⟨hfd, hne⟩ := List.mem_filter.mp hfd
  exact (hopen fd hfd).resolve_left (by simpa using hne)

/-- A socket that was opened is among those to be closed. -/
theorem mem_openSockets_socket {type : SocketType} {fd r : ℤ}
    (h : fd ∈ (p.after (.socket type) r).openSockets) : fd = r ∨ fd ∈ p.openSockets := by
  simp only [Process.after] at h
  split at h
  · exact Or.inr h
  · exact List.mem_cons.mp h

/-- So it is from the second half of the session on. -/
theorem exact_openTunnel {inetAddr : String → BitVec 32} {tunFd : ℤ} {ipaddrStr : String}
    {flagSrandom : CInt} {err : ℤ} (hopen : ∀ fd ∈ p.openSockets, fd = p.tcpControlSockFd) :
    Exact env p (openTunnel inetAddr tunFd ipaddrStr flagSrandom err) := by
  apply exact_getControlSock
  apply exact_readInt
  intro bytes port
  refine exact_plain (by trivial) ?_
  intro udpTunnelFd _
  refine exact_plain (by trivial) ?_
  intro failed _
  have hsockets : ∀ fd ∈ ((p.after .getControlSock p.tcpControlSockFd).after
      (.read p.tcpControlSockFd 4) (some bytes) |>.after (.socket .dgram) udpTunnelFd).openSockets,
      fd = udpTunnelFd ∨ fd = p.tcpControlSockFd := by
    intro fd hfd
    exact (mem_openSockets_socket hfd).imp_right (hopen fd)
  change Exact env _ (if failed ≠ 0 then _ else _)
  split
  case isTrue =>
    refine exact_plain (by trivial) ?_
    intro _ _
    exact exact_out2 (Or.inl (by decide)) hsockets
  case isFalse =>
    apply exact_writeInt
    apply exact_dispatch
    intro dispatched
    refine exact_plain (by trivial) ?_
    intro _ _
    refine exact_plain (by trivial) ?_
    intro _ _
    refine exact_out2 (Or.inr rfl) ?_
    intro fd hfd
    exact hsockets fd (List.mem_of_mem_filter (List.mem_of_mem_filter hfd))

end Playing

/-- The failures of the handshake are reported exactly when every call returns, and every
integer is read and written in full: no refused or broken connection is fatal by itself, but a
short read or write is, and one that never returns is never reported. -/
theorem reported_iff (env : Environment) (inetAddr : String → BitVec 32) (tunFd : ℤ)
    (ipaddrStr : String) (tcpPort : CInt) (tcpControlSockFd : ℤ) :
    Reported ((ipReflectStart inetAddr tunFd ipaddrStr tcpPort).play (Process.answers env)
        (.start tcpControlSockFd)) ↔
      (ipReflectStart inetAddr tunFd ipaddrStr tcpPort).Answered (Process.answers env) Complete
        (.start tcpControlSockFd) := by
  change Exact env _ _
  refine exact_plain (by trivial) ?_
  intro sock _
  refine exact_plain (by trivial) ?_
  intro _ _
  have hsockets : ∀ fd ∈ ((Process.start tcpControlSockFd).after
      (.socket .stream) sock).openSockets, fd = sock := by
    intro fd hfd
    exact (mem_openSockets_socket hfd).resolve_right (by simp [Process.start])
  change Exact env _ (if sock < 0 then _ else _)
  split
  case isTrue =>
    refine exact_plain (by trivial) ?_
    intro _ _
    exact exact_out1 (Or.inl (by decide)) hsockets
  case isFalse =>
    apply exact_getControlSock
    refine exact_plain (by trivial) ?_
    intro err _
    change Exact env _ (if err < 0 then _ else _)
    split
    case isTrue =>
      refine exact_plain (by trivial) ?_
      intro _ _
      exact exact_out1 (Or.inl (by decide)) hsockets
    case isFalse =>
      refine exact_plain (by trivial) ?_
      intro r _
      apply exact_getControlSock
      apply exact_writeInt
      apply exact_getControlSock
      apply exact_readInt
      intro bytes v
      change Exact env _ (if BitVec.ofNat 32 r = v then _ else _)
      split
      · refine exact_plain (by trivial) ?_
        intro _ _
        exact exact_openTunnel hsockets
      · exact exact_openTunnel hsockets

/-- A server that accepts the connection, takes the nonce and closes. -/
def closingServer : Environment
  | _, .socket _ => some 5
  | _, .connect .. | _, .close _ => some 0
  | _, .rand => some 7
  | _, .write _ bytes => some (bytes.length : ℤ)
  | _, .read .. => some (some [])
  | _, _ => none

/-- The server closes the connection, and the application ends. -/
theorem not_reported_closingServer :
    ¬Reported ((ipReflectStart (fun _ => 0) 4 "10.0.0.1" 55540).play
      (Process.answers closingServer) (.start (-1))) := by
  rintro ⟨loop, h⟩
  cases h

end HeptaVcn.IpReflect
