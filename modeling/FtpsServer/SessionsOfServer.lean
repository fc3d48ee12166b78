import FtpsServer.ServerRuns
import FtpsServer.Credentials

/-!
# The sessions of a server

The server is a number of sessions that share a process.  To one of them everything else,
the accept loop and the threads of the others, is the rest of the program at work: its own
part of a run of the server is a run of a single session, on the commands that its own thread
has handled.  So what holds of every run of a session holds of every session of the server.
-/

namespace FtpsServer

open ByteString Cxx Machine

/-! ## 1. What the server does to the users -/

/-- No thread of the server touches the user database. -/
theorem carried_database :
    FtpServer.Carried fun p p' : Process => p'.database = p.database where
  trans h h' := h'.trans h
  quiet h := h.database
  reply h := let ⟨_, _, hdid⟩ := reply_did h; hdid.database
  pull h := by
    rcases controlPull_ok.mp h with ⟨_, -, rfl⟩
    rfl
  call h := let ⟨_, hdid⟩ := (FtpSession.processCommand_frame h).2; hdid.database

/-- The calls of one thread. -/
def callsOf (k : Nat) (cs : List Handled) : List FtpSession.Call :=
  (cs.filter fun c => c.thread = k).map Handled.call

theorem callsOf_append (k : Nat) (front back : List Handled) :
    callsOf k (front ++ back) = callsOf k front ++ callsOf k back := by
  rw [callsOf, List.filter_append, List.map_append]
  rfl

theorem callsOf_single (k j : Nat) (session : FtpSession) (c : FtpSession.Call) :
    callsOf k [⟨j, session, c⟩] = if k = j then [c] else [] := by
  by_cases h : k = j
  · subst h
    simp [callsOf]
  · simp [callsOf, h, Ne.symm h]

/-- The calls in what a session goes through. -/
def Action.call? : Action → Option FtpSession.Call
  | .call c => some c
  | .elsewhere _ _ => none

/-- The rest of the program is at work, and no user is added or erased. -/
def Action.LeavesUsers : Action → Prop
  | .call _ => True
  | .elsewhere _ updates => updates = []

/-! ## 2. One session -/

/-- A session as the server has it, and as its own run leaves it: the end of the thread closes
    the control channel and sets the state. -/
def Stands (client : ClientSession) (session : FtpSession) : Prop :=
  client.session =
    if client.phase = .ended then
      { session with controlChannel := session.controlChannel.closed, state := .terminated }
    else session

/-- Session `k` has come to where it stands by a run of its own, on these calls, in which
    nothing happens to the users. -/
def FollowedBy (k : Nat) (client : ClientSession) (p : Process) (calls : List FtpSession.Call) :
    Prop :=
  ∃ opens socket address port garbage p₀ actions th,
    run FtpSession.act
      (FtpSession.construct opens k ⟨socket, .null, false, address, port⟩ garbage p₀) actions =
        .ok th ∧
    (∀ a ∈ actions, a.LeavesUsers) ∧ p₀.database = p.database ∧ th.process = p ∧
    Stands client th.session ∧ actions.filterMap Action.call? = calls

namespace FollowedBy

variable {k : Nat} {client client' : ClientSession} {p p' : Process} {calls : List FtpSession.Call}

/-- Other threads are at work. -/
theorem elsewhere (h : FollowedBy k client p calls) (hdatabase : p'.database = p.database) :
    FollowedBy k client p' calls := by
  obtain ⟨opens, socket, address, port, garbage, p₀, actions, th, hrun, hleave, hp₀, rfl, hstands,
    hcalls⟩ := h
  refine ⟨opens, socket, address, port, garbage, p₀, actions ++ [.elsewhere p' []],
    { th with process := p' }, run_concat_ok.mpr ⟨th, hrun, ?_⟩, ?_, hp₀.trans hdatabase.symm, rfl,
    hstands, ?_⟩
  · change Except.ok { th with process := { p' with database := th.process.database } } = _
    rw [← hdatabase]
  · exact List.forall_mem_append.mpr ⟨hleave, by simp [Action.LeavesUsers]⟩
  · rw [List.filterMap_append, hcalls]
    exact List.append_nil _

/-- The session stands as before. -/
theorem stands (h : FollowedBy k client p calls)
    (hstands : ∀ session, Stands client session → Stands client' session) :
    FollowedBy k client' p calls := by
  obtain ⟨opens, socket, address, port, garbage, p₀, actions, th, hrun, hleave, hp₀, hp, hth,
    hcalls⟩ := h
  exact ⟨opens, socket, address, port, garbage, p₀, actions, th, hrun, hleave, hp₀, hp,
    hstands _ hth, hcalls⟩

/-- The thread handles a command. -/
theorem handles (h : FollowedBy k client p calls) (hlooping : client.phase = .looping)
    {c : FtpSession.Call} {th' : Thread} (buffer : MessageBuffer)
    (hcall : FtpSession.call ⟨client.session, p⟩ c = .ok th') :
    FollowedBy k { client with session := th'.session, buffer := buffer } th'.process (calls ++ [c]) := by
  obtain ⟨opens, socket, address, port, garbage, p₀, actions, th, hrun, hleave, hp₀, rfl, hstands,
    hcalls⟩ := h
  unfold Stands at hstands
  rw [hlooping, if_neg (by simp)] at hstands
  rw [hstands] at hcall
  refine ⟨opens, socket, address, port, garbage, p₀, actions ++ [.call c], th',
    run_concat_ok.mpr ⟨th, hrun, by exact hcall⟩, ?_, ?_, rfl, ?_, ?_⟩
  · exact List.forall_mem_append.mpr ⟨hleave, by simp [Action.LeavesUsers]⟩
  · rw [FtpSession.call_database hcall]
    exact hp₀
  · unfold Stands
    rw [if_neg (by simp [hlooping])]
  · rw [List.filterMap_append, hcalls]
    rfl

end FollowedBy

/-! ## 3. All sessions -/

namespace FtpServer

/-- Every session of the server has a run of its own, on the calls of its thread. -/
structure Followed (s : FtpServer) (calls : Nat → List FtpSession.Call) : Prop where
  sessions : ∀ k client, s.clientSessions[k]? = some client →
    FollowedBy k client s.process (calls k)
  absent : ∀ k, s.clientSessions.length ≤ k → calls k = []

variable {s s' : FtpServer} {calls : Nat → List FtpSession.Call}

/-- The accept loop starts one session, with a run that has not begun. -/
theorem Followed.acceptRound (h : Followed s calls) (env : Environment) (garbage : Uninitialised)
    (buffer : MessageBuffer) : Followed (s.acceptRound env garbage buffer) calls := by
  have hdatabase : (s.acceptRound env garbage buffer).process.database = s.process.database :=
    (acceptRound_quiet env garbage buffer s).database
  have hfresh : ∃ client,
      (s.acceptRound env garbage buffer).clientSessions = s.clientSessions ++ [client] ∧
        FollowedBy s.clientSessions.length client (s.acceptRound env garbage buffer).process [] := by
    have hconnection : ∃ socket address port,
        (s.controlChannel.accept env .listener .connection
          (TcpTransport.new (env.socket 0) .connection s.process).1
          (TcpTransport.new (env.socket 0) .connection s.process).2).2.1 =
          ⟨socket, .null, false, address, port⟩ := by
      unfold TcpListener.accept
      split
      · unfold TcpTransport.ofSocket
        cases env.getsockname <;> exact ⟨_, _, _, rfl⟩
      · exact ⟨_, _, _, rfl⟩
    obtain ⟨socket, address, port, hconnection⟩ := hconnection
    refine ⟨_, rfl, env.socket 1, socket, address, port, garbage,
      (s.controlChannel.accept env .listener .connection
        (TcpTransport.new (env.socket 0) .connection s.process).1
        (TcpTransport.new (env.socket 0) .connection s.process).2).2.2, [], _, rfl,
      ?_, ?_, ?_, ?_, rfl⟩
    · intro a ha
      cases ha
    · rw [hdatabase]
      exact ((TcpTransport.new_quiet (env.socket 0) .connection s.process).trans
        (TcpListener.accept_quiet env .listener .connection _ _ _)).database
    · rw [← hconnection]
      rfl
    · rw [← hconnection]
      exact rfl
  obtain ⟨fresh, hsessions, hfresh⟩ := hfresh
  constructor
  · intro k client hclient
    rw [hsessions] at hclient
    rcases Nat.lt_trichotomy k s.clientSessions.length with hlt | rfl | hgt
    · rw [List.getElem?_append_left hlt] at hclient
      exact (h.sessions k client hclient).elsewhere hdatabase
    · rw [List.getElem?_concat_length] at hclient
      cases hclient
      rw [h.absent _ (Nat.le_refl _)]
      exact hfresh
    · rw [List.getElem?_eq_none (by simp; omega)] at hclient
      cases hclient
  · intro k hk
    rw [hsessions, List.length_append] at hk
    exact h.absent k (Nat.le_of_succ_le hk)

/-- A step of the thread of session `j`. -/
theorem Followed.set (h : Followed s calls) {j : Nat} {client client' : ClientSession} {p' : Process}
    {calls' : List FtpSession.Call} (hclient : s.clientSessions[j]? = some client)
    (hdatabase : p'.database = s.process.database)
    (hown : FollowedBy j client' p' (calls j ++ calls')) :
    Followed { s with process := p', clientSessions := s.clientSessions.set j client' }
      fun k => calls k ++ if k = j then calls' else [] := by
  have hj := (List.getElem?_eq_some_iff.mp hclient).1
  constructor
  · intro k other hother
    by_cases hk : k = j
    · subst hk
      dsimp only at hother
      rw [List.getElem?_set_self hj] at hother
      cases hother
      rw [if_pos rfl]
      exact hown
    · dsimp only at hother
      rw [List.getElem?_set_ne (Ne.symm hk)] at hother
      rw [if_neg hk, List.append_nil]
      exact (h.sessions k other hother).elsewhere hdatabase
  · intro k hk
    dsimp only at hk
    rw [List.length_set] at hk
    have hne : k ≠ j := by
      rintro rfl
      omega
    rw [if_neg hne, List.append_nil]
    exact h.absent k hk

/-- A step in which nothing is handled. -/
theorem Followed.quiet (h : Followed s calls) {j : Nat} {client client' : ClientSession} {p' : Process}
    (hclient : s.clientSessions[j]? = some client) (hdatabase : p'.database = s.process.database)
    (hstands : ∀ session, Stands client session → Stands client' session) :
    Followed { s with process := p', clientSessions := s.clientSessions.set j client' } calls := by
  have hown : FollowedBy j client' p' (calls j ++ []) := by
    rw [List.append_nil]
    exact ((h.sessions j client hclient).elsewhere hdatabase).stands hstands
  have hset := h.set hclient hdatabase hown
  simpa only [ite_self, List.append_nil] using hset

theorem finish_stands {client : ClientSession} {p : Process} {ending : Received} {th : SessionThread}
    (hlooping : client.phase = .looping)
    (h : SessionThread.finish ⟨⟨client.session, p⟩, client.buffer⟩ ending = .ok th)
    (session : FtpSession) (hstands : Stands client session) :
    Stands { client with session := th.thread.session, phase := .ended } session := by
  unfold Stands at hstands ⊢
  rw [hlooping, if_neg (by simp)] at hstands
  rw [if_pos rfl]
  subst hstands
  rcases bind_ok_iff.mp h with ⟨th₁, hpull, hlast⟩
  obtain rfl := pure_ok_iff.mp hlast
  have hsame : th₁.session = client.session := by
    unfold SessionThread.lastPull at hpull
    split at hpull
    · cases hpull
      rfl
    · rcases controlPull_ok.mp hpull with ⟨_, -, rfl⟩
      rfl
  rw [← hsame]
  exact congrArg (fun channel => { th₁.session with controlChannel := channel, state := .terminated })
    (TcpTransport.close_fst (.control th₁.session.id) th₁.session.controlChannel th₁.process)

/-- **One step** of any thread of the process. -/
theorem Followed.step (h : Followed s calls) {i : ServerStep} (hstep : s.step i = .ok s') :
    Followed s' fun k => calls k ++ callsOf k (s.handledAt i).toList := by
  have hdatabase := carried_database.step hstep
  have hnothing : s.handledAt i = none → Followed s' calls →
      Followed s' fun k => calls k ++ callsOf k (s.handledAt i).toList := by
    intro hnone hsame
    rw [hnone]
    simpa only [Option.toList_none, callsOf, List.filter_nil, List.map_nil, List.append_nil]
      using hsame
  cases i with
  | accept env garbage buffer =>
    cases hstep
    exact hnothing rfl (h.acceptRound env garbage buffer)
  | greet j env =>
    apply hnothing rfl
    rcases step_acted hstep with ⟨_, _, _, hno, -⟩ |
      ⟨_, _, hi, ⟨-, rfl⟩ | ⟨client, _, p', hclient, hacted, rfl⟩⟩
    · cases hno
    · exact h
    · cases hi
      cases hacted with
      | stays => exact h.quiet hclient hdatabase fun _ => id
      | greets hcreated hstart =>
        rcases reply_ok.mp hstart with ⟨_, _, rfl⟩
        apply h.quiet hclient hdatabase
        intro session hstands
        unfold Stands at hstands ⊢
        rw [hcreated, if_neg (by simp)] at hstands
        rw [if_neg (by simp)]
        exact hstands
  | turn j t =>
    rcases turn_handled hstep with ⟨hnone, rfl⟩ |
      ⟨client, input, pulled, th, hclient, hlooping, -, hsome, hpull, hcall, rfl⟩
    · exact hnothing hnone h
    · rcases controlPull_ok.mp hpull with ⟨_, -, hpulled⟩
      rw [hpulled] at hcall
      have hbefore : FollowedBy j client pulled.process (calls j) :=
        (h.sessions j client hclient).elsewhere (by rw [hpulled]; rfl)
      rw [hpulled] at hbefore
      have hown := hbefore.handles hlooping (c := ⟨t.env, input⟩)
        (client.buffer.receive t.message) hcall
      have hset := h.set hclient hdatabase hown
      rw [hsome]
      simpa only [Option.toList_some, callsOf_single] using hset
  | finish j ending =>
    apply hnothing rfl
    rcases step_acted hstep with ⟨_, _, _, hno, -⟩ |
      ⟨_, _, hi, ⟨-, rfl⟩ | ⟨client, _, p', hclient, hacted, rfl⟩⟩
    · cases hno
    · exact h
    · cases hi
      cases hacted with
      | stays => exact h.quiet hclient hdatabase fun _ => id
      | ends hlooping hfinish => exact h.quiet hclient hdatabase (finish_stands hlooping hfinish)

theorem Followed.run (h : Followed s calls) {steps : List ServerStep}
    (hrun : Machine.run FtpServer.step s steps = .ok s') :
    Followed s' fun k => calls k ++ callsOf k (s.handled steps) := by
  induction steps generalizing s calls with
  | nil =>
    cases hrun
    simpa only [handled, callsOf, List.filter_nil, List.map_nil, List.append_nil] using h
  | cons i steps ih =>
    rcases run_cons_ok.mp hrun with ⟨mid, hmid, hrest⟩
    have hall := ih (h.step hmid) hrest
    rw [handled_cons hmid]
    simpa only [callsOf_append, List.append_assoc] using hall

/-! ## 4. Runs -/

theorem start_followed {env : Environment} {address : Bytes} {port : Int} {p : Process}
    (hstart : start env address port p = some s) : Followed s fun _ => [] := by
  constructor
  · intro k client hclient
    rw [(start_quiet hstart).2] at hclient
    cases hclient
  · intro k _
    rfl

/-- **The server is its sessions, side by side.**  In every run of a started server, for any
    number of sessions and any interleaving, each session has come to where it stands by a
    run of a single session from its construction, in which the other threads are the rest of
    the program at work and leave the users alone, on the commands that its own thread has
    handled, in their order. -/
theorem sessions_on_their_own {env : Environment} {address : Bytes} {port : Int} {p : Process}
    {steps : List ServerStep} (hstart : start env address port p = some s)
    (hrun : run step s steps = .ok s') :
    ∀ k client, s'.clientSessions[k]? = some client →
      FollowedBy k client s'.process (callsOf k (s.handled steps)) := by
  intro k client hclient
  exact ((start_followed hstart).run hrun).sessions k client hclient

/-- Two connections; the second logs in while the first asks for the system. -/
def twoClients : List ServerStep :=
  [.accept .plain ⟨0, 0, .clear⟩ .zero, .accept .plain ⟨0, 0, .clear⟩ .zero, .greet 1 .plain,
    .greet 0 .plain, .turn 1 (SessionThread.lineTurn .plain "USER ftp\r\n" (by decide)),
    .turn 0 (SessionThread.lineTurn .plain "SYST\r\n" (by decide))]

theorem sessions_on_their_own_two :
    ∃ s s' client, start .plain (ascii "127.0.0.1") 21 (Process.initial .bare) = some s ∧
      run step s twoClients = .ok s' ∧ s'.clientSessions[1]? = some client ∧
      client.session.user.login = ascii "ftp" ∧
      FollowedBy 1 client s'.process (callsOf 1 (s.handled twoClients)) := by
  obtain ⟨s', hrun, hone⟩ := exists_of_reaches _ twoClients
    (fun s => (s.clientSessions[1]?).any fun client => client.session.user.login = ascii "ftp")
    (show reaches step ((start .plain (ascii "127.0.0.1") 21 (Process.initial .bare)).get rfl)
      twoClients _ = true by decide +kernel)
  obtain ⟨client, hclient, hlogin⟩ := (Option.any_eq_true _ _).mp hone
  exact ⟨_, s', client, (Option.some_get _).symm, hrun, hclient, of_decide_eq_true hlogin,
    sessions_on_their_own (Option.some_get _).symm hrun 1 client hclient⟩

/-! ## 5. What a session knows of logins -/

/-- The argument of a USER. -/
def userGiven (c : FtpSession.Call) : Option Bytes :=
  if c.input.command = .user then (c.input.getArgument 0).toOption else none

theorem lastUser_eq (actions : List Action) :
    FtpSession.lastUser actions = ((actions.filterMap Action.call?).filterMap userGiven).getLast? := by
  unfold FtpSession.lastUser
  rw [List.filterMap_filterMap]
  congr 1
  apply List.filterMap_congr
  intro a _
  cases a with
  | call c => rfl
  | elsewhere p updates => rfl

/-- **No session takes a login from another.**  In every run of a server on its own users,
    whatever the others do in between, a session that waits for a password has the login that
    the last USER of its own client named. -/
theorem login_of_own_client {env : Environment} {address : Bytes} {port : Int} {t : Posix.FileTree}
    {steps : List ServerStep} (hstart : start env address port (Process.initial t) = some s)
    (hrun : run step s steps = .ok s') :
    ∀ k client, s'.clientSessions[k]? = some client → client.session.state = .authWaitPassword →
      ((callsOf k (s.handled steps)).filterMap userGiven).getLast? = some client.session.user.login := by
  intro k client hclient hstate
  obtain ⟨opens, socket, address', port', garbage, p₀, actions, th, hactions, -, hp₀, -, hstands,
    hcalls⟩ := ((start_followed hstart).run hrun).sessions k client hclient
  have hkeyed : p₀.database.Keyed := by
    rw [hp₀, carried_database.run hrun, (start_quiet hstart).1.database]
    exact FtpUserDatabase.keyed_initial
  have hnamed : FtpSession.Named actions th :=
    run_history (fun _ _ _ _ => FtpSession.named_step)
      (FtpSession.named_construct opens k socket address' port' garbage hkeyed) hactions
  have hsession : client.session = th.session := by
    unfold Stands at hstands
    split at hstands
    · rw [hstands] at hstate
      cases hstate
    · exact hstands
  rw [hsession] at hstate ⊢
  rw [List.nil_append] at hcalls
  rw [← hcalls, ← lastUser_eq]
  exact hnamed.login hstate

theorem login_of_own_client_two :
    ∃ s s' client, start .plain (ascii "127.0.0.1") 21 (Process.initial .bare) = some s ∧
      run step s twoClients = .ok s' ∧ s'.clientSessions[1]? = some client ∧
      client.session.state = .authWaitPassword ∧
      ((callsOf 1 (s.handled twoClients)).filterMap userGiven).getLast? =
        some client.session.user.login := by
  obtain ⟨s', hrun, hone⟩ := exists_of_reaches _ twoClients
    (fun s => (s.clientSessions[1]?).any fun client => client.session.state = .authWaitPassword)
    (show reaches step ((start .plain (ascii "127.0.0.1") 21 (Process.initial .bare)).get rfl)
      twoClients _ = true by decide +kernel)
  obtain ⟨client, hclient, hstate⟩ := (Option.any_eq_true _ _).mp hone
  exact ⟨_, s', client, (Option.some_get _).symm, hrun, hclient, of_decide_eq_true hstate,
    login_of_own_client (Option.some_get _).symm hrun 1 client hclient (of_decide_eq_true hstate)⟩

end FtpServer

end FtpsServer
