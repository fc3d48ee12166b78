import FtpsServer.ServerStatus

/-!
# What `stop` waits for

`stop` writes STOPPING and joins `server_thread`.  Nothing wakes that thread up: in its loop it
leaves at the next look at the status, so that `stop` returns behind one more connection if
the thread waits in `accept`.  Before the loop it writes RUNNING over what `stop` has written,
and `stop` never returns.
-/

namespace FtpsServer

open ByteString Cxx Machine

/-- Sessions that are on their way, whatever the status says. -/
def ServerThread.pending : ServerThread → Nat
  | .accepting _ | .starting _ => 1
  | _ => 0

/-- Steps that are left in the loop once the status is STOPPING. -/
def ServerThread.left : ServerThread → Nat
  | .looping => 1
  | .starting _ => 2
  | .accepting _ => 3
  | _ => 0

def StatusStep.isServerThread : StatusStep → Bool
  | .serverThread _ _ _ => true
  | _ => false

/-- How many steps `server_thread` makes. -/
def serverSteps (steps : List StatusStep) : Nat := steps.countP StatusStep.isServerThread

@[simp] theorem serverSteps_nil : serverSteps [] = 0 := rfl

@[simp] theorem serverSteps_cons (i : StatusStep) (steps : List StatusStep) :
    serverSteps (i :: steps) = serverSteps steps + if i.isServerThread then 1 else 0 :=
  List.countP_cons ..

namespace ServerProgram

variable {s₀ s s' : ServerProgram} {i : StatusStep} {steps : List StatusStep} {k : Nat}

theorem left_eq_zero_iff {thread : ServerThread}
    (h : thread.inLoop = true ∨ thread = .ended) : thread.left = 0 ↔ thread = .ended := by
  rcases h with h | rfl
  · cases thread <;> simp_all [ServerThread.inLoop, ServerThread.left]
  · simp [ServerThread.left]

/-! ## 1. In the loop -/

/-- `stop` has written while `server_thread` was in its loop in `s₀`, and since then that has
    made `k` steps. -/
structure Winding (s₀ : ServerProgram) (k : Nat) (s : ServerProgram) : Prop where
  status : s.status = .stopping
  called : s.stop ≠ .uncalled
  thread : s.thread.inLoop = true ∨ s.thread = .ended
  left : s.thread.left = s₀.thread.left - k
  sessions : s.started + s.thread.pending = s₀.started + s₀.thread.pending
  returned : s.stop = .returned → s.thread = .ended

/-- A step of another thread changes nothing of this. -/
theorem Winding.other (h : Winding s₀ k s) (hthread : s'.thread = s.thread)
    (hstatus : s'.status = s.status) (hstop : s'.stop = s.stop) (hstarted : s'.started = s.started) :
    Winding s₀ k s' := by
  refine ⟨hstatus.trans h.status, ?_, ?_, ?_, ?_, ?_⟩
  · rw [hstop]
    exact h.called
  · rw [hthread]
    exact h.thread
  · rw [hthread]
    exact h.left
  · rw [hstarted, hthread]
    exact h.sessions
  · rw [hstop, hthread]
    exact h.returned

theorem winding_advance {env : Environment} {garbage : Uninitialised} {buffer : MessageBuffer}
    (h : Winding s₀ k s) (hstep : s.advance env garbage buffer = .ok s') : Winding s₀ (k + 1) s' := by
  rcases h with ⟨hstatus, hcalled, hthread, hleft, hsessions, hreturned⟩
  unfold advance at hstep
  cases hat : s.thread <;> rw [hat] at hthread hleft hsessions hreturned hstep <;> dsimp only at hstep
  case unborn | binding | announcing => rcases hthread with h | h <;> cases h
  case looping =>
    -- the look at the status
    rw [if_neg (by simp [hstatus])] at hstep
    cases hstep
    refine ⟨hstatus, hcalled, Or.inr rfl, ?_, hsessions, fun _ => rfl⟩
    simp only [ServerThread.left] at hleft ⊢
    omega
  case accepting clientConnection =>
    cases hstep
    refine ⟨hstatus, hcalled, Or.inl rfl, ?_, hsessions, fun h => ?_⟩
    · simp only [ServerThread.left] at hleft ⊢
      omega
    · cases hreturned h
  case starting clientConnection =>
    cases hstep
    refine ⟨hstatus, hcalled, Or.inl rfl, ?_, ?_, fun h => ?_⟩
    · simp only [ServerThread.left] at hleft ⊢
      omega
    · simp only [ServerThread.pending] at hsessions ⊢
      omega
    · cases hreturned h
  case ended =>
    cases hstep
    refine ⟨hstatus, hcalled, ?_, ?_, ?_, fun _ => hat⟩
    · rw [hat]
      exact hthread
    · rw [hat]
      simp only [ServerThread.left] at hleft ⊢
      omega
    · rw [hat]
      exact hsessions

theorem winding_step (h : Winding s₀ k s) (hstep : s.step i = .ok s') :
    Winding s₀ (k + if i.isServerThread then 1 else 0) s' := by
  cases i with
  | serverThread env garbage buffer => exact winding_advance h hstep
  | start =>
    have hborn : s.thread ≠ .unborn := by
      intro heq
      rcases h.thread with hloop | hended
      · rw [heq] at hloop
        cases hloop
      · rw [heq] at hended
        cases hended
    simp only [step, if_neg hborn] at hstep
    cases hstep
    exact h
  | stop =>
    simp only [step, if_neg h.called] at hstep
    cases hstep
    exact h
  | join =>
    simp only [step] at hstep
    split at hstep
    · split at hstep
      · cases hstep
      · next hended =>
        cases hstep
        exact ⟨h.status, by simp, h.thread, h.left, h.sessions, fun _ => hended⟩
      · cases hstep
        exact h
    · cases hstep
      exact h
  | greet session env =>
    rcases sessions_ok hstep with ⟨server, rfl⟩
    exact h.other rfl rfl rfl rfl
  | turn session t =>
    rcases sessions_ok hstep with ⟨server, rfl⟩
    exact h.other rfl rfl rfl rfl
  | finish session ending =>
    rcases sessions_ok hstep with ⟨server, rfl⟩
    exact h.other rfl rfl rfl rfl

theorem winding_run (h : Winding s₀ k s) (hrun : run step s steps = .ok s') :
    Winding s₀ (k + serverSteps steps) s' := by
  induction steps generalizing s k with
  | nil =>
    cases hrun
    exact h
  | cons i steps ih =>
    rcases run_cons_ok.mp hrun with ⟨mid, hmid, hrest⟩
    have hall := ih (winding_step h hmid) hrest
    have hcount : k + (if i.isServerThread then 1 else 0) + serverSteps steps =
        k + serverSteps (i :: steps) := by
      rw [serverSteps_cons]
      omega
    rwa [hcount] at hall

/-- `stop` writes. -/
theorem winding_stop (hloop : s.thread.inLoop = true) :
    Winding s 0 { s with status := .stopping, stop := .joining } :=
  ⟨rfl, by simp, Or.inl hloop, rfl, rfl, by simp⟩

/-- A step of `server_thread` in which everything succeeds brings it nearer to its end. -/
theorem winds (h : Winding s₀ k s) (hjoining : s.stop = .joining) :
    ∃ s', s.step turnServer = .ok s' ∧ s'.stop = .joining := by
  simp only [turnServer, step, advance]
  rcases h.thread with hloop | hended
  · cases hat : s.thread <;> rw [hat] at hloop <;> dsimp only
    case unborn | binding | announcing | ended => cases hloop
    case looping =>
      rw [if_neg (by simp [h.status])]
      exact ⟨_, rfl, hjoining⟩
    case accepting => exact ⟨_, rfl, hjoining⟩
    case starting => exact ⟨_, rfl, hjoining⟩
  · rw [hended]
    exact ⟨_, rfl, hjoining⟩

/-- So it can always come to the end, and `join` with it. -/
theorem can_return (h : Winding s₀ k s) (hjoining : s.stop = .joining) :
    ∃ steps s', run step s steps = .ok s' ∧ s'.stop = .returned := by
  induction hleft : s.thread.left generalizing s k with
  | zero =>
    have hended := (left_eq_zero_iff h.thread).mp hleft
    refine ⟨[.join], { s with stop := .returned }, run_cons_ok.mpr ⟨_, ?_, rfl⟩, rfl⟩
    simp [step, hjoining, hended]
  | succ n ih =>
    rcases winds h hjoining with ⟨mid, hmid, hstill⟩
    have hnext : Winding s₀ (k + 1) mid := winding_step h hmid
    have hleft' : mid.thread.left = n := by
      rw [hnext.left]
      have := h.left
      omega
    rcases ih hnext hstill hleft' with ⟨steps, s', hrun, hreturned⟩
    exact ⟨turnServer :: steps, s', run_cons_ok.mpr ⟨mid, hmid, hrun⟩, hreturned⟩

/-- `join` returns as soon as the thread has ended. -/
theorem join_returns (h : Winding s₀ k s) :
    ∃ s', s.step .join = .ok s' ∧ (s'.stop = .returned ↔ s.thread = .ended) := by
  simp only [step]
  cases hstop : s.stop with
  | uncalled => exact absurd hstop h.called
  | returned => exact ⟨s, rfl, iff_of_true hstop (h.returned hstop)⟩
  | joining =>
    rw [if_pos rfl]
    rcases h.thread with hloop | hended
    · cases hat : s.thread <;> rw [hat] at hloop
      case unborn | binding | announcing | ended => cases hloop
      all_goals exact ⟨s, rfl, by simp [hstop]⟩
    · rw [hended]
      exact ⟨_, rfl, by simp⟩

/-! ## 2. Before the loop -/

/-- `stop` waits, and `server_thread` does not know of it. -/
structure Deaf (s : ServerProgram) : Prop where
  joining : s.stop = .joining
  thread : s.thread ≠ .ended
  running : s.thread.inLoop = true → s.status = .running

theorem step_deaf (h : Deaf s) (hstep : s.step i = .ok s') : Deaf s' := by
  have hcalled : s.stop ≠ .uncalled := by
    rw [h.joining]
    simp
  cases i with
  | start =>
    simp only [step] at hstep
    split at hstep <;> cases hstep
    · exact ⟨h.joining, by simp, by simp [ServerThread.inLoop]⟩
    · exact h
  | stop =>
    simp only [step, if_neg hcalled] at hstep
    cases hstep
    exact h
  | join =>
    simp only [step, if_pos h.joining] at hstep
    split at hstep
    · cases hstep
    · next hended => exact absurd hended h.thread
    · cases hstep
      exact h
  | serverThread env garbage buffer =>
    simp only [step, advance] at hstep
    cases hat : s.thread <;> simp only [hat] at hstep
    case unborn =>
      cases hstep
      exact h
    case binding =>
      split at hstep <;> cases hstep
      exact ⟨h.joining, by simp, by simp [ServerThread.inLoop]⟩
    case announcing =>
      cases hstep
      exact ⟨h.joining, by simp, fun _ => rfl⟩
    case looping =>
      have hrunning := h.running (by rw [hat]; rfl)
      rw [if_pos hrunning] at hstep
      cases hstep
      exact ⟨h.joining, by simp, fun _ => hrunning⟩
    case accepting clientConnection =>
      cases hstep
      exact ⟨h.joining, by simp, fun _ => h.running (by rw [hat]; rfl)⟩
    case starting clientConnection =>
      cases hstep
      exact ⟨h.joining, by simp, fun _ => h.running (by rw [hat]; rfl)⟩
    case ended => exact absurd hat h.thread
  | greet session env =>
    rcases sessions_ok hstep with ⟨server, rfl⟩
    exact ⟨h.joining, h.thread, h.running⟩
  | turn session t =>
    rcases sessions_ok hstep with ⟨server, rfl⟩
    exact ⟨h.joining, h.thread, h.running⟩
  | finish session ending =>
    rcases sessions_ok hstep with ⟨server, rfl⟩
    exact ⟨h.joining, h.thread, h.running⟩

/-! ## 3. Every run -/

theorem stop_ok (huncalled : s.stop = .uncalled) :
    run step s (.stop :: steps) = .ok s' ↔
      run step { s with status := .stopping, stop := .joining } steps = .ok s' := by
  rw [run_cons_ok]
  simp only [step, if_pos huncalled]
  constructor
  · rintro ⟨mid, hmid, hrun⟩
    cases hmid
    exact hrun
  · intro hrun
    exact ⟨_, rfl, hrun⟩

/-- **What `stop` waits for.**  In every run of the program, `stop` can return exactly when it is
    called while `server_thread` is in its loop.  Then the status stays STOPPING, the
    connection that `server_thread` waits for or has taken still becomes a session, no other
    one does, and `stop` returns when the thread has made the steps that are left: one if it
    was about to look at the status, three if it waited in `accept`. -/
theorem stop_returns {address : Bytes} {port : Int} {p : Process} {front : List StatusStep}
    (hrun : run step (construct address port p) front = .ok s) (huncalled : s.stop = .uncalled) :
    ((∃ back s', run step s (.stop :: back) = .ok s' ∧ s'.stop = .returned) ↔
      s.thread.inLoop = true) ∧
    (s.thread.inLoop = true → ∀ back s', run step s (.stop :: back) = .ok s' →
      s'.status = .stopping ∧
      s'.started + s'.thread.pending = s.started + s.thread.pending ∧
      (s'.thread = .ended ↔ s.thread.left ≤ serverSteps back) ∧
      ∃ s'', s'.step .join = .ok s'' ∧ (s''.stop = .returned ↔ s'.thread = .ended)) := by
  have hservice : InService s :=
    run_invariant (fun _ _ _ => step_inService)
      (show InService (construct address port p) from
        fun _ => ⟨by simp [construct], by simp [construct, ServerThread.inLoop]⟩) hrun
  refine ⟨⟨?_, ?_⟩, ?_⟩
  · rintro ⟨back, s', hback, hreturned⟩
    by_contra hout
    rw [stop_ok huncalled] at hback
    have hdeaf : Deaf { s with status := .stopping, stop := .joining } :=
      ⟨rfl, (hservice huncalled).1, fun hin => absurd hin hout⟩
    have hend := run_invariant (fun _ _ _ => step_deaf) hdeaf hback
    rw [hend.joining] at hreturned
    cases hreturned
  · intro hloop
    rcases can_return (winding_stop hloop) rfl with ⟨back, s', hback, hreturned⟩
    exact ⟨back, s', (stop_ok huncalled).mpr hback, hreturned⟩
  · intro hloop back s' hback
    have hend := winding_run (winding_stop hloop) ((stop_ok huncalled).mp hback)
    refine ⟨hend.status, hend.sessions, ?_, join_returns hend⟩
    rw [← left_eq_zero_iff hend.thread, hend.left]
    omega

/-- A program that waits in `accept` when `stop` is called. -/
def servingProgram : List StatusStep := [.start, turnServer, turnServer, turnServer]

theorem stop_returns_serving :
    ∃ s s', run step (construct (ascii "127.0.0.1") 21 (Process.initial .bare)) servingProgram = .ok s ∧
      run step s [.stop, turnServer, turnServer, turnServer, .join] = .ok s' ∧
      s'.stop = .returned ∧ s'.started + s'.thread.pending = s.started + s.thread.pending ∧
      s'.started = 1 ∧ s.started = 0 := by
  obtain ⟨s, hrun, hserving⟩ := exists_of_reaches
    (construct (ascii "127.0.0.1") 21 (Process.initial .bare)) servingProgram
    (fun s => reaches step s [.stop, turnServer, turnServer, turnServer, .join]
      (fun s' => s'.stop = .returned ∧ s'.started = 1) &&
        decide (s.stop = .uncalled ∧ s.thread.inLoop = true ∧ s.started = 0))
    (show reaches step _ servingProgram _ = true by decide +kernel)
  rw [Bool.and_eq_true, decide_eq_true_eq] at hserving
  obtain ⟨s', hback, hend⟩ := exists_of_reaches _ _ _ hserving.1
  rw [decide_eq_true_eq] at hend
  rcases hserving.2 with ⟨huncalled, hloop, hnone⟩
  have hwaits := (stop_returns hrun huncalled).2 hloop _ s' hback
  exact ⟨s, s', hrun, hback, hend.1, hwaits.2.1, hend.2, hnone⟩

end ServerProgram

end FtpsServer
