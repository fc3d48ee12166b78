import FtpsServer.FtpServer
import FtpsServer.Replies

/-!
# Runs of the whole server

A step of the server is a round of the accept loop, or a greeting, a turn of the loop or
the end of one session thread.  This is said once here, with the rules that carry a
relation or an invariant over every interleaving of the threads.
-/

namespace FtpsServer

open ByteString Cxx Machine

namespace FtpServer

/-! ## 1. Steps of one session -/

/-- A step of the thread of one session. -/
inductive ClientStep where
  | greet (env : Environment)
  | turn (turn : Turn)
  | finish (ending : Received)

def act : ClientStep → ClientSession → Process → Except Abort (ClientSession × Process)
  | .greet env => greet env
  | .turn t => turn t
  | .finish ending => finish ending

/-- The session whose thread makes the step, and what it does. -/
def clientStep : ServerStep → Option (Nat × ClientStep)
  | .accept _ _ _ => none
  | .greet session env => some (session, .greet env)
  | .turn session t => some (session, .turn t)
  | .finish session ending => some (session, .finish ending)

/-- What the step of a session thread does, if its thread is there to make it. -/
inductive Acted : ClientStep → ClientSession → Process → ClientSession → Process → Prop where
  /-- The thread is elsewhere, or the condition of its loop is false. -/
  | stays {a : ClientStep} {client : ClientSession} {p : Process} :
      (∀ t, a = .turn t → client.phase = .looping → client.session.state = .terminated) →
      Acted a client p client p
  | greets {env : Environment} {client : ClientSession} {p : Process} {th : Thread} :
      client.phase = .created → SessionThread.start env ⟨client.session, p⟩ = .ok th →
      Acted (.greet env) client p { client with session := th.session, phase := .looping } th.process
  | handles {t : Turn} {client : ClientSession} {p : Process} {s : SessionThread} :
      client.phase = .looping → client.session.state ≠ .terminated →
      SessionThread.handle ⟨⟨client.session, p⟩, client.buffer⟩ t = .ok s →
      Acted (.turn t) client p { client with session := s.thread.session, buffer := s.buffer }
        s.thread.process
  | ends {ending : Received} {client : ClientSession} {p : Process} {s : SessionThread} :
      client.phase = .looping →
      SessionThread.finish ⟨⟨client.session, p⟩, client.buffer⟩ ending = .ok s →
      Acted (.finish ending) client p { client with session := s.thread.session, phase := .ended }
        s.thread.process

theorem act_acted {a : ClientStep} {client client' : ClientSession} {p p' : Process}
    (h : act a client p = .ok (client', p')) : Acted a client p client' p' := by
  cases a with
  | greet env =>
    change greet env client p = _ at h
    unfold greet at h
    split at h
    · next hphase =>
      rcases bind_ok_iff.mp h with ⟨th, hth, hlast⟩
      cases pure_ok_iff.mp hlast
      exact .greets hphase hth
    · cases h
      exact .stays nofun
  | turn t =>
    change turn t client p = _ at h
    unfold turn at h
    split at h
    · next hphase =>
      rcases bind_ok_iff.mp h with ⟨s, hs, hlast⟩
      cases pure_ok_iff.mp hlast
      unfold SessionThread.step at hs
      split at hs
      · next hstate =>
        cases hs
        exact .stays fun _ _ _ => hstate
      · next hstate => exact .handles hphase hstate hs
    · next hphase =>
      cases h
      exact .stays fun _ _ hlooping => absurd hlooping hphase
  | finish ending =>
    change finish ending client p = _ at h
    unfold finish at h
    split at h
    · next hphase =>
      rcases bind_ok_iff.mp h with ⟨s, hs, hlast⟩
      cases pure_ok_iff.mp hlast
      exact .ends hphase hs
    · cases h
      exact .stays nofun

/-- **What one step of the server does.** -/
theorem step_acted {s s' : FtpServer} {i : ServerStep} (h : s.step i = .ok s') :
    (∃ env garbage buffer, i = .accept env garbage buffer ∧
      s' = s.acceptRound env garbage buffer) ∨
    ∃ k a, clientStep i = some (k, a) ∧ ((s.clientSessions[k]? = none ∧ s' = s) ∨
      ∃ client client' p', s.clientSessions[k]? = some client ∧
        Acted a client s.process client' p' ∧
        s' = { s with process := p', clientSessions := s.clientSessions.set k client' }) := by
  have hsession : ∀ k a, s.sessionStep k (act a) = .ok s' →
      (s.clientSessions[k]? = none ∧ s' = s) ∨
        ∃ client client' p', s.clientSessions[k]? = some client ∧
          Acted a client s.process client' p' ∧
          s' = { s with process := p', clientSessions := s.clientSessions.set k client' } := by
    intro k a hstep
    unfold sessionStep at hstep
    cases hclient : s.clientSessions[k]? with
    | none =>
      rw [hclient] at hstep
      cases hstep
      exact Or.inl ⟨rfl, rfl⟩
    | some client =>
      rw [hclient] at hstep
      rcases bind_ok_iff.mp hstep with ⟨⟨client', p'⟩, hcall, hlast⟩
      cases pure_ok_iff.mp hlast
      exact Or.inr ⟨client, client', p', rfl, act_acted hcall, rfl⟩
  cases i with
  | accept env garbage buffer =>
    cases h
    exact Or.inl ⟨env, garbage, buffer, rfl, rfl⟩
  | greet session env => exact Or.inr ⟨session, .greet env, rfl, hsession _ _ h⟩
  | turn session t => exact Or.inr ⟨session, .turn t, rfl, hsession _ _ h⟩
  | finish session ending => exact Or.inr ⟨session, .finish ending, rfl, hsession _ _ h⟩

/-! ## 2. What the accept loop does to the process -/

theorem acceptRound_quiet (env : Environment) (garbage : Uninitialised) (buffer : MessageBuffer)
    (s : FtpServer) : Quiet s.process (s.acceptRound env garbage buffer).process :=
  ((TcpTransport.new_quiet (env.socket 0) .connection s.process).trans
    (TcpListener.accept_quiet env .listener .connection _ _ _)).trans
      (FtpSession.construct_quiet (env.socket 1) _ _ garbage _)

/-- A server that has been started has no session yet. -/
theorem start_quiet {env : Environment} {address : Bytes} {port : Int} {p : Process} {s : FtpServer}
    (h : start env address port p = some s) : Quiet p s.process ∧ s.clientSessions = [] := by
  unfold start at h
  dsimp only at h
  have hnew := TcpListener.new_quiet true .listener p
  generalize TcpListener.new true .listener p = created at h hnew
  have hother := TcpListener.ofAddress_quiet true .temporary address port 10 created.2
  generalize TcpListener.ofAddress true .temporary address port 10 created.2 = other at h hother
  have hmove := TcpListener.moveAssign_quiet .listener .temporary created.1 other.1 other.2
  generalize TcpListener.moveAssign .listener .temporary created.1 other.1 other.2 = listener
    at h hmove
  have hbind := TcpListener.bind_quiet env .listener 0 listener.1 listener.2
  split at h
  · cases h
  · cases h
    exact ⟨((hnew.trans hother).trans hmove).trans hbind, rfl⟩

/-! ## 3. Relations between processes -/

/-- A relation between the processes before and after that holds of everything the threads
    of the server do. -/
structure Carried (R : Process → Process → Prop) : Prop where
  trans : ∀ {p q r}, R p q → R q r → R p r
  quiet : ∀ {p q}, Quiet p q → R p q
  reply : ∀ {env message} {th th' : Thread}, th.reply env message = .ok th' →
    R th.process th'.process
  pull : ∀ {result} {th th' : Thread}, th.controlPull result = .ok th' → R th.process th'.process
  call : ∀ {env input} {th th' : Thread}, FtpSession.processCommand env input th = .ok th' →
    R th.process th'.process

namespace Carried

variable {R : Process → Process → Prop}

theorem acted (hR : Carried R) {a : ClientStep} {client client' : ClientSession} {p p' : Process}
    (h : Acted a client p client' p') : R p p' := by
  cases h with
  | stays => exact hR.quiet (.refl p)
  | greets _ hstart => exact hR.reply hstart
  | handles _ _ hhandle =>
    rcases bind_ok_iff.mp hhandle with ⟨th₁, hpull, hhandle⟩
    rcases raising_bind_ok.mp hhandle with ⟨input, -, hhandle⟩
    rcases bind_ok_iff.mp hhandle with ⟨th₂, hcall, hlast⟩
    cases pure_ok_iff.mp hlast
    exact hR.trans (hR.pull hpull) (hR.call hcall)
  | ends _ hfinish =>
    rcases bind_ok_iff.mp hfinish with ⟨th₁, hlastPull, hlast⟩
    cases pure_ok_iff.mp hlast
    have hpulled : R p th₁.process := by
      unfold SessionThread.lastPull at hlastPull
      split at hlastPull
      · cases hlastPull
        exact hR.quiet (.refl p)
      · exact hR.pull hlastPull
    exact hR.trans hpulled (hR.quiet (TcpTransport.close_quiet _ _ _))

theorem step (hR : Carried R) {s s' : FtpServer} {i : ServerStep} (h : s.step i = .ok s') :
    R s.process s'.process := by
  rcases step_acted h with ⟨env, garbage, buffer, -, rfl⟩ | ⟨k, a, -, ⟨-, rfl⟩ | ⟨_, _, _, -, hacted, rfl⟩⟩
  · exact hR.quiet (acceptRound_quiet env garbage buffer s)
  · exact hR.quiet (.refl _)
  · exact hR.acted hacted

/-- **The rule for a run**: what every thread does, any interleaving of them does. -/
theorem run (hR : Carried R) {s s' : FtpServer} {steps : List ServerStep}
    (h : Machine.run FtpServer.step s steps = .ok s') : R s.process s'.process := by
  induction steps generalizing s with
  | nil =>
    cases h
    exact hR.quiet (.refl _)
  | cons i steps ih =>
    rcases run_cons_ok.mp h with ⟨mid, hmid, hrest⟩
    exact hR.trans (hR.step hmid) (ih hrest)

end Carried

/-! ## 4. The commands of a run -/

end FtpServer

namespace FtpSession

variable {env : Environment} {input : FtpCommand} {th th' : Thread}

/-- A command that transfers nothing only replies. -/
theorem processCommand_replies (h : processCommand env input th = .ok th')
    (hlist : input.command ≠ .list) (hstor : input.command ≠ .stor) :
    ∃ via messages, Says th ⟨env, input⟩ messages ∧
      traffic th'.process.trace =
        traffic th.process.trace ++ messages.map (replyEvent env th.session.id via) := by
  rcases processCommand_says h with ⟨messages, ⟨via, sent, htraffic, -, hsent⟩, hsays⟩
  refine ⟨via, messages, hsays, ?_⟩
  -- all that is sent is on the control channel
  have hall : ∀ {session : FtpSession} {t : Posix.FileTree} {events : List Event},
      Did th th' session t events → (∀ e ∈ events, e.onControl th.session.id = true) →
      traffic th'.process.trace =
        traffic th.process.trace ++ messages.map (replyEvent env th.session.id via) := by
    intro session t events hdid hevents
    have hsame : sent = events := List.append_cancel_left (htraffic.symm.trans hdid.traffic)
    rw [hsame, List.filter_eq_self.mpr hevents] at hsent
    rw [hdid.traffic, hsent]
  unfold processCommand at h
  cases hcommand : input.command <;> rw [hcommand] at h <;> dsimp only at h
  case list => exact absurd hcommand hlist
  case stor => exact absurd hcommand hstor
  case user =>
    rcases commandUser_did h with ⟨_, via, _, _, hdid⟩
    apply hall hdid
    split <;> simp [replyEvent, Event.onControl]
  case pass =>
    rcases commandPass_did h with ⟨_, via, _, _, ⟨_, _, hdid⟩ | ⟨_, hdid⟩⟩ <;>
      apply hall hdid <;> unfold passRefusal <;> split <;> simp [replyEvent, Event.onControl]
  case cwd =>
    rcases commandCwd_did h with ⟨_, _, _, _, _, _, hdid⟩
    exact hall hdid (by simp [replyEvent, Event.onControl])
  case port =>
    rcases commandPort_did h with ⟨_, _, _, via, _, _, _, _, _, _, hdid⟩
    apply hall hdid
    split <;> simp [replyEvent, Event.onControl]
  case type =>
    rcases commandType_did h with ⟨_, _, _, _, _, hdid⟩
    exact hall hdid (by simp [replyEvent, Event.onControl])
  case auth =>
    rcases commandAuth_did h with ⟨_, _, _, _, ⟨_, hdid⟩ | ⟨_, _, _, hdid⟩⟩ <;>
      exact hall hdid (by simp [replyEvent, Event.onControl])
  case pbsz =>
    rcases commandPbsz_did h with ⟨_, _, _, _, _, _, hdid⟩
    exact hall hdid (by simp [replyEvent, Event.onControl])
  case prot =>
    rcases commandProt_did h with ⟨_, _, _, _, hdid⟩
    exact hall hdid (by simp [replyEvent, Event.onControl])
  case pasv =>
    rcases commandPasv_did h with ⟨_, _, ⟨_, hdid⟩ | ⟨_, _, _, _, _, _, hdid⟩⟩ <;>
      exact hall hdid (by simp [replyEvent, Event.onControl])
  case allo =>
    rcases commandAllo_did h with ⟨_, _, _, _, _, _, hdid⟩
    exact hall hdid (by simp [replyEvent, Event.onControl])
  case dele =>
    rcases commandDele_did h with ⟨_, _, _, _, _, _, hdid⟩
    exact hall hdid (by simp [replyEvent, Event.onControl])
  case rnfr =>
    rcases commandRnfr_did h with ⟨_, _, _, _, hdid⟩
    exact hall hdid (by simp [replyEvent, Event.onControl])
  case rnto =>
    rcases commandRnto_did h with ⟨_, _, _, _, hdid⟩
    exact hall hdid (by simp [replyEvent, Event.onControl])
  case quit => exact hall (commandQuit_did h) (by simp)
  all_goals
    rcases reply_did h with ⟨_, _, hdid⟩
    exact hall hdid (by simp [replyEvent, Event.onControl])

end FtpSession

/-- A call of `process_command`: the thread that makes it, its session, and the call. -/
structure Handled where
  thread : Nat
  session : FtpSession
  call : FtpSession.Call

namespace FtpServer

/-- The call of `process_command` in a turn, while the thread is in its loop. -/
def handledBy (k : Nat) (t : Turn) (client : ClientSession) : Option Handled :=
  if client.phase = .looping ∧ client.session.state ≠ .terminated then
    match SessionThread.command client.buffer t.message t.behind with
    | .ok input => some ⟨k, client.session, ⟨t.env, input⟩⟩
    | .error _ => none
  else none

/-- The call of `process_command` in a step, if there is one. -/
def handledAt (s : FtpServer) : ServerStep → Option Handled
  | .turn k t => (s.clientSessions[k]?).bind (handledBy k t)
  | _ => none

/-- The calls of `process_command` in a run, of all threads, in order. -/
def handled : FtpServer → List ServerStep → List Handled
  | _, [] => []
  | s, i :: steps =>
    (s.handledAt i).toList ++
      match s.step i with
      | .ok s' => handled s' steps
      | .error _ => []

theorem handled_cons {s s' : FtpServer} {i : ServerStep} (h : s.step i = .ok s')
    (steps : List ServerStep) :
    s.handled (i :: steps) = (s.handledAt i).toList ++ s'.handled steps := by
  rw [handled, h]

/-- A turn calls `process_command` on what it has pulled, or does nothing. -/
theorem turn_handled {s s' : FtpServer} {k : Nat} {t : Turn} (h : s.step (.turn k t) = .ok s') :
    (s.handledAt (.turn k t) = none ∧ s' = s) ∨
      ∃ client input pulled th, s.clientSessions[k]? = some client ∧
        client.phase = .looping ∧ client.session.state ≠ .terminated ∧
        s.handledAt (.turn k t) = some ⟨k, client.session, ⟨t.env, input⟩⟩ ∧
        Thread.controlPull (.bytes t.message.bytes) ⟨client.session, s.process⟩ = .ok pulled ∧
        FtpSession.processCommand t.env input pulled = .ok th ∧
        s' = { s with
          process := th.process
          clientSessions := s.clientSessions.set k
            { client with session := th.session, buffer := client.buffer.receive t.message } } := by
  change s.sessionStep k (turn t) = .ok s' at h
  unfold sessionStep at h
  have hat : s.handledAt (.turn k t) = (s.clientSessions[k]?).bind (handledBy k t) := rfl
  rw [hat]
  cases hclient : s.clientSessions[k]? with
  | none =>
    rw [hclient] at h
    cases h
    exact Or.inl ⟨rfl, rfl⟩
  | some client =>
    rw [hclient] at h
    rw [Option.bind_some]
    rcases bind_ok_iff.mp h with ⟨⟨client', p'⟩, hturn, hlast⟩
    obtain rfl := pure_ok_iff.mp hlast
    by_cases hgoes : client.phase = .looping ∧ client.session.state ≠ .terminated
    · unfold turn SessionThread.step at hturn
      rw [hgoes.1] at hturn
      dsimp only at hturn
      rw [if_neg hgoes.2] at hturn
      rcases bind_ok_iff.mp hturn with ⟨s₁, hhandle, hlast⟩
      cases pure_ok_iff.mp hlast
      unfold SessionThread.handle at hhandle
      rcases bind_ok_iff.mp hhandle with ⟨pulled, hpull, hhandle⟩
      rcases raising_bind_ok.mp hhandle with ⟨input, hinput, hhandle⟩
      rcases bind_ok_iff.mp hhandle with ⟨th, hcall, hlast⟩
      obtain rfl := pure_ok_iff.mp hlast
      dsimp only at hinput
      refine Or.inr ⟨client, input, pulled, th, rfl, hgoes.1, hgoes.2, ?_, hpull, hcall, ?_⟩
      · rw [handledBy, if_pos hgoes, hinput]
      · rw [hgoes.1]
    · have hstays : client' = client ∧ p' = s.process := by
        unfold turn SessionThread.step at hturn
        split at hturn
        · next hphase =>
          have hended : client.session.state = .terminated := by
            by_contra hlive
            exact hgoes ⟨hphase, hlive⟩
          dsimp only at hturn
          rw [if_pos hended] at hturn
          cases hturn
          exact ⟨rfl, rfl⟩
        · cases hturn
          exact ⟨rfl, rfl⟩
      obtain ⟨rfl, rfl⟩ := hstays
      refine Or.inl ⟨by rw [handledBy, if_neg hgoes], ?_⟩
      obtain ⟨hk, rfl⟩ := List.getElem?_eq_some_iff.mp hclient
      rw [List.set_getElem_self]

/-- A relation between the processes before and after, and the commands handled between,
    that holds of everything the threads of the server do. -/
structure Accounted (R : List Handled → Process → Process → Prop) : Prop where
  trans : ∀ {cs ds p q r}, R cs p q → R ds q r → R (cs ++ ds) p r
  quiet : ∀ {p q}, Quiet p q → R [] p q
  start : ∀ {env} {th th' : Thread}, SessionThread.start env th = .ok th' → R [] th.process th'.process
  pull : ∀ {result} {th th' : Thread}, th.controlPull result = .ok th' →
    R [] th.process th'.process
  call : ∀ {k call} {th th' : Thread}, FtpSession.processCommand call.env call.input th = .ok th' →
    R [⟨k, th.session, call⟩] th.process th'.process

namespace Accounted

variable {R : List Handled → Process → Process → Prop}

theorem step (hR : Accounted R) {s s' : FtpServer} {i : ServerStep} (h : s.step i = .ok s') :
    R (s.handledAt i).toList s.process s'.process := by
  cases i with
  | turn k t =>
    rcases turn_handled h with ⟨hnone, rfl⟩ | ⟨client, input, pulled, th, -, -, -, hsome, hpull, hcall, rfl⟩
    · rw [hnone]
      exact hR.quiet (.refl _)
    · rw [hsome]
      rcases controlPull_ok.mp hpull with ⟨via, -, hpulled⟩
      have hsession : pulled.session = client.session := by rw [hpulled]
      have hcalled : R [⟨k, pulled.session, ⟨t.env, input⟩⟩] pulled.process th.process := hR.call hcall
      rw [hsession] at hcalled
      exact hR.trans (hR.pull hpull) hcalled
  | accept env garbage buffer =>
    cases h
    exact hR.quiet (acceptRound_quiet env garbage buffer s)
  | greet k env =>
    rcases step_acted h with ⟨_, _, _, hno, -⟩ | ⟨_, _, hi, ⟨-, rfl⟩ | ⟨_, _, _, -, hacted, rfl⟩⟩
    · cases hno
    · exact hR.quiet (.refl _)
    · cases hi
      cases hacted with
      | stays => exact hR.quiet (.refl _)
      | greets _ hstart => exact hR.start hstart
  | finish k ending =>
    rcases step_acted h with ⟨_, _, _, hno, -⟩ | ⟨_, _, hi, ⟨-, rfl⟩ | ⟨_, _, _, -, hacted, rfl⟩⟩
    · cases hno
    · exact hR.quiet (.refl _)
    · cases hi
      cases hacted with
      | stays => exact hR.quiet (.refl _)
      | ends _ hfinish =>
        rcases bind_ok_iff.mp hfinish with ⟨th₁, hlastPull, hlast⟩
        cases pure_ok_iff.mp hlast
        have hpulled : R [] s.process th₁.process := by
          unfold SessionThread.lastPull at hlastPull
          split at hlastPull
          · cases hlastPull
            exact hR.quiet (.refl _)
          · exact hR.pull hlastPull
        exact hR.trans hpulled (hR.quiet (TcpTransport.close_quiet _ _ _))

/-- **The rule for a run**: the commands of a run account for what becomes of the process. -/
theorem run (hR : Accounted R) {s s' : FtpServer} {steps : List ServerStep}
    (h : Machine.run FtpServer.step s steps = .ok s') : R (s.handled steps) s.process s'.process := by
  induction steps generalizing s with
  | nil =>
    cases h
    exact hR.quiet (.refl _)
  | cons i steps ih =>
    rcases run_cons_ok.mp h with ⟨mid, hmid, hrest⟩
    rw [handled_cons hmid]
    exact hR.trans (hR.step hmid) (ih hrest)

end Accounted

/-! ## 5. What the sessions leave in the log -/

section Views

variable {α : Type} (view : Nat → Event → Option α)

/-- What session `k` has left in the log, seen through `view`. -/
def viewed (k : Nat) (events : List Event) : List α := events.filterMap (view k)

theorem viewed_append (k : Nat) (front back : List Event) :
    viewed view k (front ++ back) = viewed view k front ++ viewed view k back :=
  List.filterMap_append

/-- From `p` to `p'` session `k` leaves `more` in the log, and no other session anything. -/
structure Leaves (k : Nat) (p p' : Process) (more : List α) : Prop where
  own : viewed view k p'.trace = viewed view k p.trace ++ more
  others : ∀ j, j ≠ k → viewed view j p'.trace = viewed view j p.trace

namespace Leaves

variable {view : Nat → Event → Option α} {k : Nat} {p q r : Process} {front back : List α}

theorem refl (p : Process) : Leaves view k p p [] := ⟨(List.append_nil _).symm, fun _ _ => rfl⟩

theorem trans (h : Leaves view k p q front) (h' : Leaves view k q r back) :
    Leaves view k p r (front ++ back) :=
  ⟨by rw [h'.own, h.own, List.append_assoc], fun j hne => (h'.others j hne).trans (h.others j hne)⟩

/-- Events that no session sees. -/
theorem unseen {events : List Event} (h : q.trace = p.trace ++ events)
    (hnone : ∀ j, ∀ e ∈ events, view j e = none) : Leaves view k p q [] := by
  have hsame : ∀ j, viewed view j q.trace = viewed view j p.trace := by
    intro j
    rw [h, viewed_append, viewed, viewed, List.filterMap_eq_nil_iff.mpr (hnone j), List.append_nil]
  exact ⟨(hsame k).trans (List.append_nil _).symm, fun j _ => hsame j⟩

end Leaves

/-- Every session and what it has left in the log satisfy `R`, and who has no session has
    left nothing. -/
structure Viewing (R : ClientSession → List α → Prop) (s : FtpServer) : Prop where
  sessions : ∀ k client, s.clientSessions[k]? = some client → client.session.id = k ∧
    R client (viewed view k s.process.trace)
  silent : ∀ k, s.clientSessions.length ≤ k → viewed view k s.process.trace = []

variable {view} {R R' : ClientSession → List α → Prop} {s s' : FtpServer}

theorem Viewing.imp (h : Viewing view R s)
    (himp : ∀ client front, R client front → R' client front) : Viewing view R' s :=
  ⟨fun k client hclient => (h.sessions k client hclient).imp id (himp _ _), h.silent⟩

theorem viewing_accept (h : Viewing view R s) {client : ClientSession} {p' : Process}
    {more : List α} (hid : client.session.id = s.clientSessions.length)
    (hleaves : Leaves view s.clientSessions.length s.process p' more) (hclient : R client more) :
    Viewing view R { s with process := p', clientSessions := s.clientSessions ++ [client] } := by
  constructor
  · intro k other hother
    dsimp only at hother ⊢
    rcases Nat.lt_trichotomy k s.clientSessions.length with hlt | rfl | hgt
    · rw [List.getElem?_append_left hlt] at hother
      rw [hleaves.others k (Nat.ne_of_lt hlt)]
      exact h.sessions k other hother
    · rw [List.getElem?_concat_length] at hother
      cases hother
      rw [hleaves.own, h.silent _ (Nat.le_refl _)]
      exact ⟨hid, hclient⟩
    · rw [List.getElem?_eq_none (by simp; omega)] at hother
      cases hother
  · intro k hk
    dsimp only at hk ⊢
    rw [List.length_append, List.length_singleton] at hk
    rw [hleaves.others k (by omega)]
    exact h.silent k (by omega)

theorem viewing_set (h : Viewing view R s) {j : Nat} {client client' : ClientSession} {p' : Process}
    {more : List α} (hclient : s.clientSessions[j]? = some client)
    (hothers : ∀ client front, client.session.id ≠ j → R client front → R' client front)
    (hid : client'.session.id = j) (hleaves : Leaves view j s.process p' more)
    (hnext : R' client' (viewed view j s.process.trace ++ more)) :
    Viewing view R' { s with process := p', clientSessions := s.clientSessions.set j client' } := by
  have hj := (List.getElem?_eq_some_iff.mp hclient).1
  constructor
  · intro k other hother
    dsimp only at hother ⊢
    by_cases hkj : k = j
    · subst hkj
      rw [List.getElem?_set_self hj] at hother
      cases hother
      rw [hleaves.own]
      exact ⟨hid, hnext⟩
    · rw [List.getElem?_set_ne (Ne.symm hkj)] at hother
      rw [hleaves.others k hkj]
      rcases h.sessions k other hother with ⟨hown, hfront⟩
      exact ⟨hown, hothers other _ (hown ▸ hkj) hfront⟩
  · intro k hk
    rw [List.length_set] at hk
    dsimp only
    rw [hleaves.others k (by omega)]
    exact h.silent k hk

/-- **The rule for a step**: what a session leaves in the log follows from what its own
    thread does. -/
theorem viewing_step {i : ServerStep} (h : Viewing view R s) (hstep : s.step i = .ok s')
    (hothers : ∀ client front, (∀ a, clientStep i ≠ some (client.session.id, a)) →
      R client front → R' client front)
    (haccept : ∀ env garbage buffer, i = .accept env garbage buffer →
      ∃ client more, client.session.id = s.clientSessions.length ∧
      (s.acceptRound env garbage buffer).clientSessions = s.clientSessions ++ [client] ∧
      Leaves view s.clientSessions.length s.process (s.acceptRound env garbage buffer).process more ∧
      R' client more)
    (hacted : ∀ k a client client' p' front, clientStep i = some (k, a) → client.session.id = k →
      s.clientSessions[k]? = some client → Acted a client s.process client' p' → R client front →
        client'.session.id = k ∧ ∃ more, Leaves view k s.process p' more ∧ R' client' (front ++ more)) :
    Viewing view R' s' := by
  rcases step_acted hstep with ⟨env, garbage, buffer, rfl, rfl⟩ |
    ⟨j, a, hi, ⟨hnone, rfl⟩ | ⟨client, client', p', hclient, hdone, rfl⟩⟩
  · rcases haccept env garbage buffer rfl with ⟨client, more, hid, hsessions, hleaves, hstart⟩
    have haccepted := viewing_accept (h.imp fun client front => hothers client front nofun) hid hleaves
      hstart
    rw [← hsessions] at haccepted
    exact haccepted
  · refine ⟨fun k client hclient => ?_, h.silent⟩
    rcases h.sessions k client hclient with ⟨hid, hfront⟩
    refine ⟨hid, hothers client _ ?_ hfront⟩
    rintro a' ha'
    rw [hi, hid] at ha'
    obtain ⟨rfl, -⟩ : j = k ∧ a = a' := by simpa using ha'
    rw [hnone] at hclient
    cases hclient
  · rcases h.sessions j client hclient with ⟨hid, hfront⟩
    rcases hacted j a client client' p' _ hi hid hclient hdone hfront with ⟨hsame, more, hleaves, hnext⟩
    refine viewing_set h hclient (fun other front hne => hothers other front ?_) hsame hleaves hnext
    rintro a' ha'
    rw [hi] at ha'
    exact hne (Prod.ext_iff.mp (Option.some.inj ha')).1.symm

end Views

end FtpServer

end FtpsServer
