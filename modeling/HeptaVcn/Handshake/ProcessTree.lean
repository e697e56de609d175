import Mathlib.Data.List.Forall2
import HeptaVcn.Handshake.Sessions

/-!
# The process tree of the server

The original process accepts connections and forks a child for each. A child goes on
from the `fork` with `process` for that connection and behind it the same `while (1)`:
what keeps it out of the accept loop is only that its event loop does not return.
-/

namespace HeptaVcn

open Machine

/-- The connection accepted last by the original process, and in the order of the forks
those that a child was forked for. -/
structure Connections where
  last : Option ℤ
  forked : List ℤ
  deriving DecidableEq, Repr

namespace Connections

/-- Nothing has been accepted. -/
def none : Connections := ⟨.none, []⟩

/-- What a label of the server adds. -/
def after (c : Connections) : Server.Label → Connections
  | .proc 0 (.call (.accept _) r) => { c with last := some r }
  | .proc 0 (.call .fork r) =>
    if (0 : ℤ) < r then { c with forked := c.forked ++ c.last.toList } else c
  | _ => c

/-- The connections of a run. -/
def of (tr : List Server.Label) : Connections := tr.foldl after none

/-- Each label adds to the connections of the run so far. -/
theorem of_append (tr : List Server.Label) (a : Server.Label) :
    of (tr ++ [a]) = (of tr).after a := by
  rw [of, List.foldl_append]
  rfl

/-- A process other than the original one adds nothing. -/
theorem after_child (c : Connections) (i : ℕ) (a : Action) : c.after (.proc (i + 1) a) = c := rfl

/-- A call that is neither `accept` nor `fork` adds nothing. -/
theorem after_sequential (c : Connections) {op : Syscall} (hop : op.Sequential) (r : op.Reply) :
    c.after (.proc 0 (.call op r)) = c := by
  cases op <;> first | rfl | exact hop.elim

/-- Whatever a child was forked for has been accepted. -/
theorem accepted_of_mem {tr : List Server.Label} {netFd : ℤ}
    (h : netFd ∈ (of tr).last ∨ netFd ∈ (of tr).forked) :
    ∃ fd, .proc 0 (.call (.accept fd) netFd) ∈ tr := by
  induction tr using List.reverseRecOn with
  | nil => simp [of, none] at h
  | append_singleton tr a ih =>
    have hold : netFd ∈ (of tr).last ∨ netFd ∈ (of tr).forked →
        ∃ fd, .proc 0 (.call (.accept fd) netFd) ∈ tr ++ [a] := by
      intro hold
      obtain ⟨fd, hmem⟩ := ih hold
      exact ⟨fd, List.mem_append_left _ hmem⟩
    rw [of_append] at h
    unfold after at h
    split at h
    case h_1 fd r =>
      rcases h with h | h
      · obtain rfl := Option.some.inj h
        exact ⟨fd, by simp⟩
      · exact hold (Or.inr h)
    case h_2 r =>
      split at h
      · rcases h with h | h
        · exact hold (Or.inl h)
        · rcases List.mem_append.mp h with h | h
          · exact hold (Or.inr h)
          · exact hold (Or.inl (Option.mem_toList.mp h))
      · exact hold h
    case h_3 => exact hold h

end Connections

section Threads

variable (rounds : ℕ) (garbage : TunnelServer.Uninitialized)

/-- The rest of the program of the original process: it makes sequential calls until it
reaches its accept loop, and forks with the connection that was accepted last. -/
inductive Original (last : Option ℤ) : Program Sys Unit → Prop where
  | loop (sockFd tunFd : ℤ) (connections : ℕ) :
    Original last (TunnelServer.acceptLoop rounds garbage sockFd tunFd connections)
  | sequential {op : Syscall} {next : op.Reply → Program Sys Unit} (hop : op.Sequential)
    (hnext : ∀ r, Original last (next r)) : Original last (.call op next)
  | forking (netFd sockFd tunFd : ℤ) (connections : ℕ) {next : ℤ → Program Sys Unit}
    (hlast : last = some netFd) (hnext : ∀ pid : ℤ, next pid =
      if pid = 0 then
        (TunnelServer.process rounds garbage netFd tunFd).bind fun _ =>
          TunnelServer.acceptLoop rounds garbage sockFd tunFd connections
      else TunnelServer.acceptLoop rounds garbage sockFd tunFd connections) :
    Original last (.call .fork next)

/-- In a session nothing is accepted and nothing forked before an event loop has returned. -/
def session : Program.Contract Sys Bool where
  demand returned
    | .accept _ | .fork => returned = true
    | _ => True
  admits _ _ _ := True
  after returned
    | .eventBaseDispatch _, _ => true
    | _, _ => returned

/-- The thread is in `process` for the connection: in front of its event loop, or in it. -/
def Thread.InSession (netFd : ℤ) : Thread Unit → Prop
  | .running p => ∃ (tunFd : ℤ) (q : Program Sys Unit) (k : Unit → Program Sys Unit), p = q.bind k ∧
      (TunnelServer.process rounds garbage netFd tunFd).Left q ∧
      q.wp session (fun returned _ => returned = true) false
  | .dispatching _ next => ∃ (tunFd : ℤ) (l : EventLoop) (next' : ℤ → Program Sys Unit)
      (k : Unit → Program Sys Unit), next = (fun code => (next' code).bind k) ∧
      (TunnelServer.process rounds garbage netFd tunFd).Left (.call (.eventBaseDispatch l) next')

end Threads

section Original

variable {rounds : ℕ} {garbage : TunnelServer.Uninitialized} {last : Option ℤ}

/-- Only sequential calls are made. -/
def sequentialOnly : Program.Contract Sys Unit where
  demand _ op := op.Sequential
  admits _ _ _ := True
  after _ _ _ := ()

/-- Such a contract takes any sequential call. -/
theorem sequentialOnly_sequential : SequentialContract sequentialOnly :=
  fun _ _ hop => ⟨hop, fun _ => rfl⟩

/-- Sequential calls in front of what the original process does are part of it. -/
theorem original_bind {α : Type} {p : Program Sys α} {f : α → Program Sys Unit}
    (hp : p.wp sequentialOnly (fun _ a => Original rounds garbage last (f a)) ()) :
    Original rounds garbage last (p.bind f) := by
  induction p with
  | done a => exact hp
  | call op next ih => exact .sequential hp.1 fun r => ih r (hp.2 r trivial)

/-- A process that exits after an error message reaches no accept loop. -/
theorem original_perrorExit (m : String) (status : ℤ) :
    Original rounds garbage last (perrorExit m status) :=
  .sequential trivial fun _ => .sequential trivial fun r => nomatch r

/-- `main` is the program of an original process. -/
theorem original_main (rounds connections : ℕ) (garbage : TunnelServer.Uninitialized)
    (last : Option ℤ) :
    Original rounds garbage last (TunnelServer.main rounds connections garbage) := by
  have hc := sequentialOnly_sequential
  apply original_bind
  refine wp_tunAlloc hc _ fun tunFd => ?_
  split
  · exact original_perrorExit _ _
  · refine .sequential trivial fun sockFd => ?_
    change Original rounds garbage last (if sockFd < (0 : ℤ) then _ else _)
    split
    · exact original_perrorExit _ _
    · apply original_bind
      refine wp_createSocketBind hc.quiet _ _ _ _ fun _ => ?_
      refine .sequential trivial fun listening => ?_
      change Original rounds garbage last (if listening < (0 : ℤ) then _ else _)
      split
      · exact original_perrorExit _ _
      · exact .loop sockFd tunFd connections

/-- After the last connection the accept loop waits for ever. -/
theorem acceptLoop_zero (sockFd tunFd : ℤ) :
    TunnelServer.acceptLoop rounds garbage sockFd tunFd 0 =
      .call (E := Sys) .spin fun r => nomatch r :=
  congrArg (Program.call (E := Sys) .spin) (funext fun r => nomatch r)

/-- One round of the accept loop: accept, fork, and serve the connection in the child. -/
theorem acceptLoop_succ (sockFd tunFd : ℤ) (connections : ℕ) :
    TunnelServer.acceptLoop rounds garbage sockFd tunFd (connections + 1) =
      .call (E := Sys) (.accept sockFd) fun netFd : ℤ =>
        if netFd < 0 then perrorExit "accept()" 1
        else .call (E := Sys) .fork fun pid : ℤ =>
          if pid = 0 then
            (TunnelServer.process rounds garbage netFd tunFd).bind fun _ =>
              TunnelServer.acceptLoop rounds garbage sockFd tunFd connections
          else TunnelServer.acceptLoop rounds garbage sockFd tunFd connections := rfl

/-- What the original process does next: a sequential call, an `accept` whose connection
it forks for unless it exits, or a `fork`, after which it goes on with its loop and the
child with the session of the connection. It enters no event loop. -/
theorem Original.cases {op : Syscall} {next : op.Reply → Program Sys Unit}
    (h : Original rounds garbage last (.call op next)) :
    (op.Sequential ∧ ∀ r, Original rounds garbage last (next r)) ∨
      (∃ (fd : ℤ) (next' : ℤ → Program Sys Unit),
        Program.call (E := Sys) op next = .call (.accept fd) next' ∧
          ∀ netFd, Original rounds garbage (some netFd) (next' netFd)) ∨
      ∃ (next' : ℤ → Program Sys Unit) (netFd tunFd : ℤ) (k : Unit → Program Sys Unit),
        Program.call (E := Sys) op next = .call .fork next' ∧ last = some netFd ∧
          (∀ pid ≠ 0, Original rounds garbage last (next' pid)) ∧
          next' 0 = (TunnelServer.process rounds garbage netFd tunFd).bind k := by
  generalize hp : Program.call (E := Sys) op next = p at h
  cases h with
  | loop sockFd tunFd connections =>
    cases connections with
    | zero =>
      rw [acceptLoop_zero] at hp
      cases hp
      exact Or.inl ⟨trivial, fun r => nomatch r⟩
    | succ connections =>
      refine Or.inr (Or.inl ⟨sockFd, _, acceptLoop_succ sockFd tunFd connections, fun netFd => ?_⟩)
      split
      · exact original_perrorExit _ _
      · exact .forking netFd sockFd tunFd connections rfl fun _ => rfl
  | sequential hop hnext =>
    cases hp
    exact Or.inl ⟨hop, hnext⟩
  | forking netFd sockFd tunFd connections hlast hnext =>
    refine Or.inr (Or.inr ⟨_, netFd, tunFd, _, rfl, hlast, fun pid hpid => ?_, hnext 0⟩)
    rw [hnext, if_neg hpid]
    exact .loop sockFd tunFd connections

end Original

section Session

variable {rounds : ℕ} {garbage : TunnelServer.Uninitialized} {netFd : ℤ} {w w' : ServerProcess}
  {a : Action}

/-- The contract of a session takes any sequential call. -/
theorem session_sequential : SequentialContract session := by
  intro returned op hop
  cases op <;> first | exact ⟨trivial, fun _ => rfl⟩ | exact hop.elim

/-- A child starts with its session. -/
theorem inSession_process (tunFd : ℤ) (k : Unit → Program Sys Unit) :
    Thread.InSession rounds garbage netFd
      (.running ((TunnelServer.process rounds garbage netFd tunFd).bind k)) :=
  ⟨tunFd, _, k, rfl, .start, process_wp_of_dispatch session_sequential rounds garbage netFd tunFd
    fun _ => ⟨trivial, fun _ _ => rfl⟩⟩

/-- The next call of a session is neither `accept` nor `fork`. -/
theorem Thread.InSession.demand {op : Syscall} {next : op.Reply → Program Sys Unit}
    (h : Thread.InSession rounds garbage netFd (.running (.call op next))) :
    ∃ (tunFd : ℤ) (next' : op.Reply → Program Sys Unit) (k : Unit → Program Sys Unit),
      next = (fun r => (next' r).bind k) ∧
      (TunnelServer.process rounds garbage netFd tunFd).Left (.call op next') ∧
      (Program.call op next' : Program Sys Unit).wp session (fun returned _ => returned = true)
        false := by
  obtain ⟨tunFd, q, k, hq, hleft, hwp⟩ := h
  cases q with
  | done u => cases hwp
  | call op' next' =>
    cases hq
    exact ⟨tunFd, next', k, rfl, hleft, hwp⟩

/-- As long as its event loop does not return, a child stays in its session. -/
theorem inSession_step (h : w.thread.InSession rounds garbage netFd)
    (hreturn : ∀ code, a ≠ .leave code) (hstep : w.step a = some w') :
    w'.thread.InSession rounds garbage netFd := by
  cases a with
  | call op r =>
    obtain ⟨next, hthread, hadmits, rfl⟩ := ServerProcess.step_call.mp hstep
    rw [hthread] at h
    obtain ⟨tunFd, next', k, rfl, hleft, _, hnext⟩ := h.demand
    have hafter : session.after false op r = false := by
      cases op with
      | eventBaseDispatch l => cases hadmits
      | _ => rfl
    have hwp := hnext r trivial
    rw [hafter] at hwp
    exact ⟨tunFd, next' r, k, rfl, .reply r hleft, hwp⟩
  | dispatch =>
    obtain ⟨l, next, hthread, rfl⟩ := ServerProcess.step_dispatch.mp hstep
    rw [hthread] at h
    obtain ⟨tunFd, next', k, rfl, hleft, _⟩ := h.demand
    exact ⟨tunFd, l, next', k, rfl, hleft⟩
  | receive d =>
    obtain ⟨l, next, l', hthread, _, _, rfl⟩ := ServerProcess.step_receive.mp hstep
    rwa [hthread] at h
  | relay e =>
    obtain ⟨l, next, l', hthread, _, _, rfl⟩ := ServerProcess.step_relay.mp hstep
    rwa [hthread] at h
  | leave code => exact absurd rfl (hreturn code)
  | arrive src payload =>
    obtain ⟨_, rfl⟩ := ServerProcess.step_arrive.mp hstep
    exact h

end Session

namespace Server

variable {rounds connections : ℕ} {garbage : TunnelServer.Uninitialized} {tr : List Label}
  {t u : Server}

/-- Only the original process has accepted or is about to, and the children in their order are
each in the session of an accepted connection, the one that they were forked for. -/
structure OneAcceptor (rounds : ℕ) (garbage : TunnelServer.Uninitialized) (tr : List Label)
    (t : Server) : Prop where
  accepts : ∀ i fd netFd, .proc i (.call (.accept fd) netFd) ∈ tr → i = 0
  accepting : ∀ i w fd next, t.processes[i]? = some w →
    w.thread = .running (.call (.accept fd) next) → i = 0
  accepted : ∀ netFd ∈ (Connections.of tr).forked, ∃ fd, .proc 0 (.call (.accept fd) netFd) ∈ tr
  sessions : List.Forall₂ (fun w netFd => w.thread.InSession rounds garbage netFd)
    t.processes.tail (Connections.of tr).forked

/-- No event loop returns. -/
def noneReturns (_ : Server) : Label → Bool
  | .proc _ (.leave _) => false
  | _ => true

/-- What is known of the process tree after the labels `tr`, as long as no event loop has
returned. -/
structure Family (rounds : ℕ) (garbage : TunnelServer.Uninitialized) (tr : List Label)
    (t : Server) : Prop where
  processes : ∃ w p children, t.processes = w :: children ∧ w.thread = .running p ∧
    Original rounds garbage (Connections.of tr).last p ∧
    List.Forall₂ (fun w netFd => w.thread.InSession rounds garbage netFd) children
      (Connections.of tr).forked
  accepts : ∀ i fd netFd, .proc i (.call (.accept fd) netFd) ∈ tr → i = 0

/-- Before the first call there is the original process alone. -/
theorem family_start : Family rounds garbage [] (start rounds connections garbage) where
  processes := ⟨_, _, [], rfl, rfl, original_main rounds connections garbage none, .nil⟩
  accepts _ _ _ h := by cases h

/-- A session neither accepts nor forks. -/
theorem sequential_of_inSession {netFd : ℤ} {w w' : ServerProcess} {op : Syscall} {r : op.Reply}
    (h : w.thread.InSession rounds garbage netFd) (hstep : w.step (.call op r) = some w') :
    op.Sequential := by
  obtain ⟨next, hthread, hadmits, rfl⟩ := ServerProcess.step_call.mp hstep
  rw [hthread] at h
  obtain ⟨_, _, _, _, _, hdemand, _⟩ := h.demand
  cases op with
  | accept fd => cases hdemand
  | fork => cases hdemand
  | eventBaseDispatch l => cases hadmits
  | _ => trivial

/-- Without a `fork` there is no new child. -/
theorem forked_eq_nil {w : ServerProcess} {a : Action} {children : List ServerProcess}
    (hfork : ∀ r, a ≠ .call .fork r) (hforked : forked w a = some children) : children = [] := by
  unfold forked at hforked
  split at hforked
  case h_1 r => exact absurd rfl (hfork r)
  case h_2 => exact (Option.some.inj hforked).symm

/-- A member of the first list is replaced by one that is related to all that it was. -/
theorem forall₂_set {α β : Type*} {R : α → β → Prop} {l₁ : List α} {l₂ : List β} {i : ℕ} {a b : α}
    (h : List.Forall₂ R l₁ l₂) (ha : l₁[i]? = some a) (hb : ∀ c, R a c → R b c) :
    List.Forall₂ R (l₁.set i b) l₂ := by
  induction h generalizing i with
  | nil => cases ha
  | cons hhead htail ih =>
    cases i with
    | zero =>
      obtain rfl := Option.some.inj ha
      exact .cons (hb _ hhead) htail
    | succ i => exact .cons hhead (ih ha)

/-- A step of a child changes nothing but its session. -/
theorem family_child {w w' : ServerProcess} {children forked' : List ServerProcess}
    {i : ℕ} {a : Action} {original : ServerProcess} {tunQueue : List (List UInt8)}
    (h : Family rounds garbage tr t) (hprocesses : t.processes = original :: children)
    (hw : children[i]? = some w) (hforked : forked w a = some forked')
    (hreturn : ∀ code, a ≠ .leave code) (hstep : w.step a = some w') :
    Family rounds garbage (tr ++ [.proc (i + 1) a])
      ⟨t.processes.set (i + 1) w' ++ forked', tunQueue⟩ := by
  obtain ⟨original', p, children', hlist, hthread, horiginal, hsessions⟩ := h.processes
  rw [hprocesses] at hlist
  obtain ⟨rfl, rfl⟩ := List.cons.inj hlist
  -- the session that the child is in
  have hsession : ∃ netFd, w.thread.InSession rounds garbage netFd := by
    obtain ⟨hlt, rfl⟩ := List.getElem?_eq_some_iff.mp hw
    exact ⟨_, hsessions.get hlt (hsessions.length_eq ▸ hlt)⟩
  obtain ⟨netFd, hsession⟩ := hsession
  have hcall : ∀ op r, a = .call op r → op.Sequential := by
    rintro op r rfl
    exact sequential_of_inSession hsession hstep
  have hnil : forked' = [] := by
    apply forked_eq_nil (fun r ha => ?_) hforked
    exact hcall _ _ ha
  subst hnil
  refine ⟨⟨original, p, children.set i w', ?_, hthread, ?_, ?_⟩, ?_⟩
  · rw [hprocesses, List.set_cons_succ, List.append_nil]
  · rwa [Connections.of_append, Connections.after_child]
  · rw [Connections.of_append, Connections.after_child]
    exact forall₂_set hsessions hw fun netFd hin => inSession_step hin hreturn hstep
  · intro j fd netFd hmem
    rcases List.mem_append.mp hmem with hmem | hmem
    · exact h.accepts j fd netFd hmem
    · obtain ⟨_, ha⟩ := by simpa using hmem
      exact (hcall _ _ ha.symm).elim

/-- The child of the original process is in the session of the connection accepted last. -/
theorem forked_original {w : ServerProcess} {next : ℤ → Program Sys Unit} {netFd tunFd pid : ℤ}
    {k : Unit → Program Sys Unit} {children : List ServerProcess}
    (hthread : w.thread = .running (.call .fork next))
    (hchild : next 0 = (TunnelServer.process rounds garbage netFd tunFd).bind k)
    (hforked : forked w (.call .fork pid) = some children) :
    List.Forall₂ (fun w netFd => w.thread.InSession rounds garbage netFd) children
      (if 0 < pid then [netFd] else []) := by
  simp only [forked] at hforked
  split at hforked
  · cases hforked
  split at hforked
  case isTrue hpos =>
    obtain ⟨child, hstep, rfl⟩ := Option.map_eq_some_iff.mp hforked
    obtain ⟨next', hthread', _, rfl⟩ := ServerProcess.step_call.mp hstep
    rw [hthread] at hthread'
    cases hthread'
    rw [if_pos hpos]
    refine .cons ?_ .nil
    change Thread.InSession rounds garbage netFd (.running (next 0))
    rw [hchild]
    exact inSession_process tunFd k
  case isFalse hneg =>
    obtain rfl := Option.some.inj hforked
    rw [if_neg hneg]
    exact .nil

/-- A call of the original process: only a `fork` has a child, and it is in the session of the
connection that is added. -/
theorem original_call {c : Connections} {w w' : ServerProcess} {p : Program Sys Unit}
    {op : Syscall} {r : op.Reply} {children : List ServerProcess} (hthread : w.thread = .running p)
    (horiginal : Original rounds garbage c.last p) (hforked : forked w (.call op r) = some children)
    (hstep : w.step (.call op r) = some w') :
    ∃ p' fds, w'.thread = .running p' ∧
      Original rounds garbage (c.after (.proc 0 (.call op r))).last p' ∧
      (c.after (.proc 0 (.call op r))).forked = c.forked ++ fds ∧
      List.Forall₂ (fun w netFd => w.thread.InSession rounds garbage netFd) children fds := by
  obtain ⟨next, hthread', _, rfl⟩ := ServerProcess.step_call.mp hstep
  obtain rfl := Thread.running.inj (hthread.symm.trans hthread')
  rcases horiginal.cases with ⟨hop, hnext⟩ | ⟨fd, next', hp, hnext⟩ |
    ⟨next', netFd, tunFd, k, hp, hlast, hnext, hchild⟩
  · have hnil : children = [] := by
      apply forked_eq_nil (fun r ha => ?_) hforked
      cases ha
      exact hop
    rw [Connections.after_sequential c hop r, hnil]
    exact ⟨_, [], rfl, hnext r, (List.append_nil _).symm, .nil⟩
  · cases hp
    have hnil : children = [] := forked_eq_nil (fun r ha => by cases ha) hforked
    rw [hnil]
    exact ⟨_, [], rfl, hnext r, (List.append_nil _).symm, .nil⟩
  · cases hp
    have hpid := fork_ne_zero hforked r rfl
    have hsame : (c.after (.proc 0 (.call .fork r))).last = c.last := by
      simp only [Connections.after]
      split <;> rfl
    refine ⟨_, _, rfl, ?_, ?_, forked_original hthread hchild hforked⟩
    · rw [hsame]
      exact hnext r hpid
    · simp only [Connections.after]
      split
      · rw [hlast]
        rfl
      · exact (List.append_nil _).symm

/-- What a step of the original process adds to the connections it adds to its children. -/
theorem original_step {c : Connections} {w w' : ServerProcess} {p : Program Sys Unit} {a : Action}
    {children : List ServerProcess} (hthread : w.thread = .running p)
    (horiginal : Original rounds garbage c.last p) (hforked : forked w a = some children)
    (hstep : w.step a = some w') :
    ∃ p' fds, w'.thread = .running p' ∧ Original rounds garbage (c.after (.proc 0 a)).last p' ∧
      (c.after (.proc 0 a)).forked = c.forked ++ fds ∧
      List.Forall₂ (fun w netFd => w.thread.InSession rounds garbage netFd) children fds := by
  cases a with
  | call op r => exact original_call hthread horiginal hforked hstep
  | dispatch =>
    obtain ⟨l, next, hthread', rfl⟩ := ServerProcess.step_dispatch.mp hstep
    obtain rfl := Thread.running.inj (hthread.symm.trans hthread')
    rcases horiginal.cases with ⟨hop, _⟩ | ⟨_, _, hp, _⟩ | ⟨_, _, _, _, hp, _⟩
    · exact hop.elim
    · cases hp
    · cases hp
  | receive d =>
    obtain ⟨l, next, l', hthread', _⟩ := ServerProcess.step_receive.mp hstep
    rw [hthread] at hthread'
    cases hthread'
  | relay e =>
    obtain ⟨l, next, l', hthread', _⟩ := ServerProcess.step_relay.mp hstep
    rw [hthread] at hthread'
    cases hthread'
  | leave code =>
    obtain ⟨l, next, hthread', _⟩ := ServerProcess.step_leave.mp hstep
    rw [hthread] at hthread'
    cases hthread'
  | arrive src payload =>
    obtain ⟨_, rfl⟩ := ServerProcess.step_arrive.mp hstep
    have hnil : children = [] := forked_eq_nil (fun r ha => by cases ha) hforked
    rw [hnil]
    exact ⟨p, [], hthread, horiginal, (List.append_nil _).symm, .nil⟩

/-- Every step that is not the return of an event loop keeps the family. -/
theorem family_step {a : Label} (h : Family rounds garbage tr t) (hreturns : t.noneReturns a)
    (hstep : t.step a = some u) : Family rounds garbage (tr ++ [a]) u := by
  cases a with
  | tun packet =>
    simp only [step, Option.ite_none_right_eq_some, Option.some.injEq] at hstep
    obtain ⟨_, rfl⟩ := hstep
    have hof : Connections.of (tr ++ [.tun packet]) = Connections.of tr := by
      rw [Connections.of_append]
      rfl
    refine ⟨?_, fun i fd netFd hmem => h.accepts i fd netFd (by simpa using hmem)⟩
    rw [hof]
    exact h.processes
  | proc i a =>
    obtain ⟨w, tunQueue, forked', w', hw, _, hforked, hw', rfl⟩ := step_proc.mp hstep
    obtain ⟨original, p, children, hlist, hthread, horiginal, hsessions⟩ := h.processes
    cases i with
    | zero =>
      rw [hlist] at hw
      obtain rfl := Option.some.inj hw
      obtain ⟨p', fds, hthread', horiginal', hfds, hnew⟩ :=
        original_step hthread horiginal hforked hw'
      refine ⟨⟨w', p', children ++ forked', ?_, hthread', ?_, ?_⟩, ?_⟩
      · rw [hlist]
        rfl
      · rwa [Connections.of_append]
      · rw [Connections.of_append, hfds]
        exact List.rel_append hsessions hnew
      · intro j fd netFd hmem
        rcases List.mem_append.mp hmem with hmem | hmem
        · exact h.accepts j fd netFd hmem
        · exact (by simpa using hmem : j = 0 ∧ _).1
    | succ i =>
      rw [hlist] at hw
      refine family_child h hlist hw hforked (fun code ha => ?_) hw'
      subst ha
      cases hreturns

/-- In a family only the original process accepts. -/
theorem Family.oneAcceptor (h : Family rounds garbage tr t) : OneAcceptor rounds garbage tr t := by
  obtain ⟨original, p, children, hlist, _, _, hsessions⟩ := h.processes
  refine ⟨h.accepts, ?_, fun netFd hmem => Connections.accepted_of_mem (Or.inr hmem), ?_⟩
  · intro i w fd next hw hthread
    cases i with
    | zero => rfl
    | succ i =>
      rw [hlist] at hw
      obtain ⟨hlt, rfl⟩ := List.getElem?_eq_some_iff.mp hw
      have hlt' : i < children.length := by simpa using hlt
      have hsession := hsessions.get hlt' (hsessions.length_eq ▸ hlt')
      simp only [List.get_eq_getElem] at hsession
      rw [List.getElem_cons_succ] at hthread
      rw [hthread] at hsession
      obtain ⟨_, _, _, _, _, hdemand, _⟩ := hsession.demand
      cases hdemand
  · rw [hlist]
    exact hsessions

/-- In every run of the server in which no event loop returns, only the original process
accepts connections, and each child is in the one session that it was forked for. -/
theorem oneAcceptor_of_noneReturns
    (hmeets : Meets step (fun t a => t.noneReturns a) (start rounds connections garbage) tr)
    (hrun : run step (start rounds connections garbage) tr = some t) :
    OneAcceptor rounds garbage tr t :=
  (history_of_meets (fun _ _ _ _ => family_step) family_start hmeets hrun).oneAcceptor

/-- One connection is served by a child of its own. -/
theorem oneAcceptor_sessionOpened :
    ∃ t, run step (start 0 2 ⟨0, ⟨0, 0⟩⟩) (accepted ++ sessionOpened) = some t ∧
      OneAcceptor 0 ⟨0, ⟨0, 0⟩⟩ (accepted ++ sessionOpened) t :=
  ⟨_, rfl, oneAcceptor_of_noneReturns
    (show Meets step (fun t a => t.noneReturns a) (start 0 2 ⟨0, ⟨0, 0⟩⟩)
      (accepted ++ sessionOpened) by decide) rfl⟩

/-- Both descriptors of a relay fail and the phone hangs up: nothing is pending any more, the
event loop returns, and the child accepts the next connection. -/
def relayEnded : List Label :=
  accepted ++ sessionOpened ++
    [.proc 1 (.relay (.fault .tun .readError)), .proc 1 (.relay (.fault .udp .readError)),
      .proc 1 (.relay .tcpClose), .proc 1 (.relay .tcpEvent), .proc 1 (.leave 1),
      .proc 1 (.call (.accept 4) (7 : ℤ))]

/-- The child whose loop has returned accepts the next connection. -/
theorem not_oneAcceptor_relayEnded :
    ∃ t, run step (start 0 2 ⟨0, ⟨0, 0⟩⟩) relayEnded = some t ∧
      ¬OneAcceptor 0 ⟨0, ⟨0, 0⟩⟩ relayEnded t := by
  refine ⟨_, rfl, fun h => ?_⟩
  have hzero : 1 = 0 := h.accepts 1 4 7 (by simp [relayEnded])
  cases hzero

end Server

end HeptaVcn
