import HeptaVcn.App.LocalVpnService

/-!
# The displayed run state

The view model of the activity registered in `ProxyBinder` shows what was posted to it
or copied from `Running` when it was registered. Both happen beside `updateRunStatus`,
which posts first and sets `Running` second, so a call cut in two by another call or by
a connection can leave the display wrong for good.
-/

namespace HeptaVcn

open Machine

/-- What the main thread is doing: a handler that calls `updateRunStatus`, or
`onServiceConnected` with the activity of this view model already registered. -/
inductive MainThread where
  | handler (rest : Program Vpn Unit)
  | connecting (viewModel : ℕ)

/-- The view models of all activities ever created, the service, and the threads that
are in a call of `updateRunStatus`. -/
structure RunDisplay where
  /-- The view model of `ProxyBinder.mainActivity`. -/
  mainActivity : Option ℕ
  /-- The value of `isRunning` of each view model. -/
  isRunning : ℕ → Option Bool
  /-- The latest value posted to it and not delivered yet. -/
  pendingPost : ℕ → Option Bool
  /-- `LocalVPNService.Running` -/
  running : Bool
  main : MainThread
  threads : List (Program Vpn Unit)
  /-- The status of the call that posted last, recorded for the proofs. -/
  announced : Bool

/-- A message of the main loop, or an operation of a thread. -/
inductive DisplayLabel where
  | deliver (viewModel : ℕ)
  /-- `onServiceConnected` registers the activity. -/
  | getLocalVPNService (viewModel : ℕ)
  /-- `onServiceConnected` copies `Running`. -/
  | copyRunning
  | updateOnMain (status : Bool)
  | updateOnThread (status : Bool)
  | main (op : VpnOp) (reply : op.Reply)
  | thread (i : ℕ) (op : VpnOp) (reply : op.Reply)

namespace RunDisplay

/-- The service has just been created. -/
def start : RunDisplay :=
  ⟨none, fun _ => none, fun _ => none, false, .handler (.done ()), [], false⟩

/-- The main thread waits for a message. -/
def idle (s : RunDisplay) : Bool :=
  match s.main with
  | .handler (.done _) => true
  | _ => false

/-- The state after an operation of `updateRunStatus`. A value is posted only if an
activity is registered. -/
def after (s : RunDisplay) : VpnOp → RunDisplay
  | .postValue status =>
    { s with
      pendingPost := fun viewModel =>
        if s.mainActivity = some viewModel then some status else s.pendingPost viewModel
      announced := status }
  | .setRunning status => { s with running := status }
  | _ => s

/-- One step; messages are handled only when the main thread is idle. -/
def step (s : RunDisplay) : DisplayLabel → Option RunDisplay
  | .deliver viewModel =>
    if s.idle then
      (s.pendingPost viewModel).map fun status =>
        { s with
          isRunning := Function.update s.isRunning viewModel (some status)
          pendingPost := Function.update s.pendingPost viewModel none }
    else none
  | .getLocalVPNService viewModel =>
    if s.idle then
      some { s with mainActivity := some viewModel, main := .connecting viewModel }
    else none
  | .copyRunning =>
    match s.main with
    | .connecting viewModel =>
      some { s with
        isRunning := Function.update s.isRunning viewModel (some s.running)
        main := .handler (.done ()) }
    | .handler _ => none
  | .updateOnMain status =>
    if s.idle then some { s with main := .handler (updateRunStatus status) } else none
  | .updateOnThread status =>
    some { s with threads := s.threads ++ [updateRunStatus status] }
  | .main op r =>
    match s.main with
    | .handler p => (p.resume op r).map fun q => { s with main := .handler q }.after op
    | .connecting _ => none
  | .thread i op r =>
    s.threads[i]?.bind fun p => (p.resume op r).map fun q =>
      { s with threads := s.threads.set i q }.after op

end RunDisplay

/-- The call has posted its status and not set `Running` yet. -/
def halfDone : Program Vpn Unit → Bool
  | .call (.setRunning _) _ => true
  | _ => false

/-- The call is over. -/
def ended : Program Vpn Unit → Bool
  | .done _ => true
  | .call .. => false

namespace RunDisplay

/-- What is left of the call on the main thread, if there is one. -/
def mainCall (s : RunDisplay) : Program Vpn Unit :=
  match s.main with
  | .handler p => p
  | .connecting _ => .done ()

/-- No call is cut in two. -/
def Settled (s : RunDisplay) : Prop :=
  halfDone s.mainCall = false ∧ ∀ p ∈ s.threads, halfDone p = false

/-- No call is in progress, and no post to the registered activity waits. -/
def Quiet (s : RunDisplay) : Prop :=
  s.idle = true ∧ (∀ p ∈ s.threads, ended p = true) ∧
    ∀ viewModel ∈ s.mainActivity, s.pendingPost viewModel = none

/-- When all is quiet the registered activity shows whether a tunnel runs. -/
def Converged (s : RunDisplay) : Prop :=
  s.Quiet → ∀ viewModel ∈ s.mainActivity, ∀ shown ∈ s.isRunning viewModel, shown = s.running

/-- The state once the call on the main thread is over. -/
def endMain (s : RunDisplay) : RunDisplay := { s with main := .handler (.done ()) }

/-- The state once the call on a thread is over. -/
def endThread (s : RunDisplay) (i : ℕ) : RunDisplay :=
  { s with threads := s.threads.set i (.done ()) }

/-- Calls and connections do not cut each other in two: the call that sets `Running` when no
other is half done is the one that posted last, and what a connection leaves to be shown is
what was posted last. -/
def Orderly (s : RunDisplay) : DisplayLabel → Prop
  | .main (.setRunning status) _ => s.endMain.Settled → status = s.announced
  | .thread i (.setRunning status) _ => (s.endThread i).Settled → status = s.announced
  | .copyRunning =>
    ∀ viewModel ∈ s.mainActivity, (s.pendingPost viewModel).getD s.running = s.announced
  | _ => True

instance (s : RunDisplay) : Decidable s.Settled := by
  unfold Settled
  infer_instance

instance (s : RunDisplay) (a : DisplayLabel) : Decidable (s.Orderly a) := by
  unfold Orderly
  split <;> infer_instance

end RunDisplay

/-! ## What a call still has to do -/

/-- What can be left of a call of `updateRunStatus`. -/
inductive InCall : Program Vpn Unit → Prop where
  | begun (status : Bool) : InCall (updateRunStatus status)
  | half (status : Bool) : InCall (vpn (.setRunning status))
  | finished : InCall (.done ())

/-- A call posts, then sets `Running`, and is over. -/
theorem InCall.resume {p q : Program Vpn Unit} {op : VpnOp} {r : op.Reply} (h : InCall p)
    (hresume : p.resume op r = some q) :
    (∃ status, op = .postValue status ∧ q = vpn (.setRunning status)) ∨
      ∃ status, op = .setRunning status ∧ q = .done () := by
  obtain ⟨next, hp, rfl⟩ := (Program.resume_eq_some (E := Vpn)).mp hresume
  cases h with
  | begun status =>
    obtain ⟨rfl, hnext⟩ := Program.call.inj hp
    obtain rfl := eq_of_heq hnext
    exact Or.inl ⟨status, rfl, rfl⟩
  | half status =>
    obtain ⟨rfl, hnext⟩ := Program.call.inj hp
    obtain rfl := eq_of_heq hnext
    exact Or.inr ⟨status, rfl, rfl⟩
  | finished => cases hp

namespace RunDisplay

variable {s t : RunDisplay}

/-- The invariant of orderly runs: when no call is cut in two, `Running` is what was posted
last, and so is what the registered activity shows once its waiting post is delivered. -/
structure Consistent (s : RunDisplay) : Prop where
  onMain : InCall s.mainCall
  onThreads : ∀ p ∈ s.threads, InCall p
  settled : s.Settled → s.running = s.announced
  registered : ∀ viewModel, s.main = .connecting viewModel → s.mainActivity = some viewModel
  shown : ∀ viewModel, s.mainActivity = some viewModel → s.main ≠ .connecting viewModel →
    (s.pendingPost viewModel).or (s.isRunning viewModel) = some s.announced

/-- Before the first activity nothing has been announced. -/
theorem consistent_start : start.Consistent where
  onMain := .finished
  onThreads := by simp [start]
  settled _ := rfl
  registered := by simp [start]
  shown := by simp [start]

/-- An idle main thread has no call. -/
theorem main_of_idle (hidle : s.idle = true) : s.main = .handler (.done ()) := by
  unfold idle at hidle
  split at hidle
  case h_1 h => exact h
  case h_2 => cases hidle

/-- An idle main thread is in no call. -/
theorem mainCall_of_idle (hidle : s.idle = true) : s.mainCall = .done () := by
  rw [mainCall, main_of_idle hidle]

/-- A consistent display that is at rest shows the run state. -/
theorem Consistent.converged (hs : s.Consistent) : s.Converged := by
  rintro ⟨hidle, hthreads, hpending⟩ viewModel hregistered shown hshown
  have hmain := main_of_idle hidle
  have hsettled : s.Settled := by
    refine ⟨by rw [mainCall_of_idle hidle]; rfl, fun p hp => ?_⟩
    have hended := hthreads p hp
    cases p with
    | done => rfl
    | call => cases hended
  have h := hs.shown viewModel hregistered (by simp [hmain])
  rw [hpending viewModel hregistered, hshown] at h
  rw [hs.settled hsettled]
  simpa using h

/-- A posted value arrives at its view model. -/
theorem Consistent.deliver (hs : s.Consistent) {viewModel : ℕ} {status : Bool}
    (hidle : s.idle = true) (hpending : s.pendingPost viewModel = some status) :
    Consistent { s with
      isRunning := Function.update s.isRunning viewModel (some status)
      pendingPost := Function.update s.pendingPost viewModel none } where
  onMain := hs.onMain
  onThreads := hs.onThreads
  settled := hs.settled
  registered := hs.registered
  shown other hother _ := by
    have h := hs.shown other hother (by simp [main_of_idle hidle])
    by_cases heq : other = viewModel
    · subst heq
      rw [hpending] at h
      simpa using h
    · simpa [heq] using h

/-- An activity is registered before it has copied anything. -/
theorem Consistent.connect (hs : s.Consistent) (hidle : s.idle = true) (viewModel : ℕ) :
    Consistent { s with mainActivity := some viewModel, main := .connecting viewModel } where
  onMain := .finished
  onThreads := hs.onThreads
  settled hsettled := hs.settled ⟨by rw [mainCall_of_idle hidle]; rfl, hsettled.2⟩
  registered other hother := by
    obtain rfl := MainThread.connecting.inj hother
    rfl
  shown other hother hne := by
    obtain rfl := Option.some.inj hother
    exact absurd rfl hne

/-- The registered activity copies `Running` in time. -/
theorem Consistent.copy (hs : s.Consistent) {viewModel : ℕ} (hmain : s.main = .connecting viewModel)
    (hlatest : (s.pendingPost viewModel).getD s.running = s.announced) :
    Consistent { s with
      isRunning := Function.update s.isRunning viewModel (some s.running)
      main := .handler (.done ()) } where
  onMain := .finished
  onThreads := hs.onThreads
  settled hsettled := by
    have hnone : s.mainCall = .done () := by rw [RunDisplay.mainCall, hmain]
    exact hs.settled ⟨by rw [hnone]; rfl, hsettled.2⟩
  registered other hother := by cases hother
  shown other hother _ := by
    obtain rfl : viewModel = other := by
      have h := hs.registered viewModel hmain
      rw [hother] at h
      exact (Option.some.inj h).symm
    cases hpending : s.pendingPost viewModel with
    | none => simpa [hpending] using hlatest
    | some status => simpa [hpending] using hlatest

/-- A post goes to the activity that is registered. -/
theorem shown_post (s : RunDisplay) (status : Bool) {viewModel : ℕ}
    (h : s.mainActivity = some viewModel) :
    ((s.after (.postValue status)).pendingPost viewModel).or (s.isRunning viewModel) =
      some status := by
  simp [after, h]

/-- An operation of `updateRunStatus` on the main thread. -/
theorem Consistent.main_step (hs : s.Consistent) {p q : Program Vpn Unit} {op : VpnOp}
    {r : op.Reply} (hmain : s.main = .handler p) (hresume : p.resume op r = some q)
    (hC : s.Orderly (.main op r)) : Consistent ({ s with main := .handler q }.after op) := by
  have hcall : InCall p := by simpa [RunDisplay.mainCall, hmain] using hs.onMain
  have hshown : ∀ viewModel, s.mainActivity = some viewModel →
      (s.pendingPost viewModel).or (s.isRunning viewModel) = some s.announced :=
    fun viewModel h => hs.shown viewModel h (by simp [hmain])
  rcases hcall.resume hresume with ⟨status, rfl, rfl⟩ | ⟨status, rfl, rfl⟩
  · refine ⟨.half status, hs.onThreads, fun hsettled => ?_, by simp [after], ?_⟩
    · cases hsettled.1
    · exact fun viewModel hregistered _ => shown_post _ status hregistered
  · refine ⟨.finished, hs.onThreads, fun hsettled => hC hsettled, by simp [after], ?_⟩
    exact fun viewModel hregistered _ => hshown viewModel hregistered

/-- An operation of `updateRunStatus` on another thread. -/
theorem Consistent.thread_step (hs : s.Consistent) {i : ℕ} {p q : Program Vpn Unit} {op : VpnOp}
    {r : op.Reply} (hp : s.threads[i]? = some p) (hresume : p.resume op r = some q)
    (hC : s.Orderly (.thread i op r)) :
    Consistent ({ s with threads := s.threads.set i q }.after op) := by
  have hothers : ∀ {q}, InCall q → ∀ p' ∈ s.threads.set i q, InCall p' := by
    intro q hq p' hp'
    rcases List.mem_or_eq_of_mem_set hp' with hold | rfl
    · exact hs.onThreads p' hold
    · exact hq
  rcases (hs.onThreads p (List.mem_of_getElem? hp)).resume hresume with
    ⟨status, rfl, rfl⟩ | ⟨status, rfl, rfl⟩
  · refine ⟨hs.onMain, hothers (.half status), fun hsettled => ?_, hs.registered, ?_⟩
    · have hlt := (List.getElem?_eq_some_iff.mp hp).1
      cases hsettled.2 _ (List.mem_set hlt (vpn (.setRunning status)))
    · exact fun viewModel hregistered _ => shown_post _ status hregistered
  · exact ⟨hs.onMain, hothers .finished, fun hsettled => hC hsettled, hs.registered, hs.shown⟩

/-- An orderly step keeps the invariant. -/
theorem Consistent.step (hs : s.Consistent) {a : DisplayLabel} (hC : s.Orderly a)
    (hstep : s.step a = some t) : t.Consistent := by
  cases a with
  | deliver viewModel =>
    simp only [RunDisplay.step] at hstep
    split at hstep
    case isTrue hidle =>
      obtain ⟨status, hpending, rfl⟩ := Option.map_eq_some_iff.mp hstep
      exact hs.deliver hidle hpending
    case isFalse => cases hstep
  | getLocalVPNService viewModel =>
    simp only [RunDisplay.step] at hstep
    split at hstep
    case isTrue hidle =>
      obtain rfl := Option.some.inj hstep
      exact hs.connect hidle viewModel
    case isFalse => cases hstep
  | copyRunning =>
    simp only [RunDisplay.step] at hstep
    split at hstep
    case h_1 viewModel hmain =>
      obtain rfl := Option.some.inj hstep
      exact hs.copy hmain (hC viewModel (hs.registered viewModel hmain))
    case h_2 => cases hstep
  | updateOnMain status =>
    simp only [RunDisplay.step] at hstep
    split at hstep
    case isTrue hidle =>
      obtain rfl := Option.some.inj hstep
      have hmain := main_of_idle hidle
      refine ⟨.begun status, hs.onThreads, fun hsettled => hs.settled ?_, by simp, ?_⟩
      · exact ⟨by rw [mainCall_of_idle hidle]; rfl, hsettled.2⟩
      · exact fun viewModel hregistered _ => hs.shown viewModel hregistered (by simp [hmain])
    case isFalse => cases hstep
  | updateOnThread status =>
    obtain rfl := Option.some.inj hstep
    refine ⟨hs.onMain, fun p hp => ?_, fun hsettled => hs.settled ?_, hs.registered, hs.shown⟩
    · rcases List.mem_append.mp hp with hold | hnew
      · exact hs.onThreads p hold
      · obtain rfl := List.mem_singleton.mp hnew
        exact .begun status
    · exact ⟨hsettled.1, fun p hp => hsettled.2 p (List.mem_append_left _ hp)⟩
  | main op r =>
    simp only [RunDisplay.step] at hstep
    split at hstep
    case h_1 p hmain =>
      obtain ⟨q, hresume, rfl⟩ := Option.map_eq_some_iff.mp hstep
      exact hs.main_step hmain hresume hC
    case h_2 => cases hstep
  | thread i op r =>
    obtain ⟨p, hp, hstep⟩ := Option.bind_eq_some_iff.mp hstep
    obtain ⟨q, hresume, rfl⟩ := Option.map_eq_some_iff.mp hstep
    exact hs.thread_step hp hresume hC

/-- In an orderly run the display converges to the real state: whenever all is quiet, the
registered activity shows whether a tunnel runs. -/
theorem converged_of_orderly {tr : List DisplayLabel} (hrun : run RunDisplay.step start tr = some s)
    (horderly : Meets RunDisplay.step Orderly start tr) : s.Converged := by
  have hs : s.Consistent :=
    invariant_of_meets (fun _ _ _ hs => hs.step) consistent_start horderly hrun
  exact hs.converged

/-- An activity connects and a tunnel is started. -/
def startTunnel : List DisplayLabel :=
  [.getLocalVPNService 0, .copyRunning, .updateOnMain true, .main (.postValue true) (),
    .main (.setRunning true) (), .deliver 0]

/-- The tunnel ends, and its end is shown. -/
theorem converged_endShown : ∃ s,
    run RunDisplay.step start (startTunnel ++ [.updateOnThread false,
      .thread 0 (.postValue false) (), .thread 0 (.setRunning false) (), .deliver 0]) = some s ∧
    s.Converged :=
  ⟨_, rfl, @converged_of_orderly _ (startTunnel ++ [.updateOnThread false,
    .thread 0 (.postValue false) (), .thread 0 (.setRunning false) (), .deliver 0]) rfl (by decide)⟩

/-- The end of the tunnel is posted to the old activity, and a new one copies `Running`
before it is set: the new one shows a running tunnel from then on. -/
theorem not_converged_newActivity : ∃ s,
    run RunDisplay.step start (startTunnel ++ [.updateOnThread false,
      .thread 0 (.postValue false) (), .getLocalVPNService 1, .copyRunning,
      .thread 0 (.setRunning false) (), .deliver 0]) = some s ∧
    ¬s.Converged := by
  refine ⟨_, rfl, fun h => ?_⟩
  have hshown := h ⟨rfl, by decide, by decide⟩ 1 rfl true rfl
  cases hshown

end RunDisplay

end HeptaVcn
