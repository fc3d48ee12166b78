import FtpsServer.ServerRuns
import FtpsServer.Observers

/-!
# What the observers are told

The program around the server registers observers, at the start or while clients are
served, and `command_stor` is the one place that calls `notify_observers`.  So in a run of the
server, with entries of `m_observers` coming and going between the steps of the threads, the
observers that have one for FILE_PUT are told of the uploads, in order, and of nothing
else.
-/

namespace FtpsServer

open ByteString Cxx Machine

/-! ## 1. Signals -/

/-- A call of `notify_signal`: the observer and the text. -/
def signal : Event → Option (Nat × Bytes)
  | .notifySignal observer info => some (observer, info)
  | _ => none

def signalled (events : List Event) : List (Nat × Bytes) := events.filterMap signal

@[simp] theorem signalled_nil : signalled [] = [] := rfl

@[simp] theorem signalled_append (front back : List Event) :
    signalled (front ++ back) = signalled front ++ signalled back := List.filterMap_append

theorem signalled_traffic (events : List Event) : signalled (traffic events) = signalled events := by
  unfold signalled traffic
  rw [List.filterMap_filter]
  apply List.filterMap_congr
  intro e _
  cases e <;> rfl

theorem signalled_of_traffic {p p' : Process} {sent : List Event}
    (h : traffic p'.trace = traffic p.trace ++ sent) :
    signalled p'.trace = signalled p.trace ++ signalled sent := by
  rw [← signalled_traffic, h, signalled_append, signalled_traffic]

theorem signalled_eq_nil {events : List Event} (h : ∀ e ∈ events, signal e = none) :
    signalled events = [] := List.filterMap_eq_nil_iff.mpr h

/-- What the registered observers are told of an upload. -/
def told (observers : FtpNotifier) (filePath : Bytes) : List (Nat × Bytes) :=
  (observers.notifyObservers .filePut).map fun observer => (observer, filePath)

theorem signalled_signals (observers : FtpNotifier) (filePath : Bytes) :
    signalled (FtpSession.signals observers filePath) = told observers filePath := by
  unfold signalled FtpSession.signals told
  rw [List.filterMap_map]
  exact congrFun (List.filterMap_eq_map (f := fun observer => (observer, filePath))) _

/-- The path a STOR stores to. -/
def storedPath (session : FtpSession) (input : FtpCommand) : Option Bytes :=
  if input.command = .stor then (input.getArgument 0).toOption.map (session.folder ++ ·) else none

/-- What a command has its observers told. -/
def toldOf (observers : FtpNotifier) (session : FtpSession) (input : FtpCommand) : List (Nat × Bytes) :=
  (storedPath session input).toList.flatMap (told observers)

/-! ## 2. Commands -/

namespace FtpSession

variable {env : Environment} {input : FtpCommand} {th th' : Thread}

/-- **What a command tells the observers**: a STOR the path of its file, the others nothing. -/
theorem processCommand_signalled (h : processCommand env input th = .ok th') :
    th'.process.observers = th.process.observers ∧
      signalled th'.process.trace =
        signalled th.process.trace ++ toldOf th.process.observers th.session input := by
  obtain ⟨-, sent₀, hdid₀⟩ := processCommand_frame h
  refine ⟨hdid₀.observers, ?_⟩
  by_cases hstor : input.command = .stor
  · rw [processCommand, hstor] at h
    rcases commandStor_did h with ⟨fileName, via, dataVia, hname, -, -, hdid⟩
    have hpath : toldOf th.process.observers th.session input =
        told th.process.observers (th.session.folder ++ fileName) := by
      rw [toldOf, storedPath, if_pos hstor, hname]
      exact List.flatMap_singleton ..
    have hpulls : ∀ results : List Received,
        signalled (results.map (pullEvent th.session.id dataVia)) = [] := by
      intro results
      apply signalled_eq_nil
      intro e he
      obtain ⟨result, -, rfl⟩ := List.mem_map.mp he
      rfl
    rw [signalled_of_traffic hdid.traffic, hpath]
    simp only [signalled_append, signalled_signals, hpulls, List.append_nil]
    rfl
  · have hnone : toldOf th.process.observers th.session input = [] := by
      rw [toldOf, storedPath, if_neg hstor]
      rfl
    rw [hnone, List.append_nil]
    by_cases hlist : input.command = .list
    · rw [processCommand, hlist] at h
      rcases commandList_did h with ⟨_, _, _, _, hdid⟩
      rw [signalled_of_traffic hdid.traffic]
      exact List.append_nil _
    · rcases processCommand_replies h hlist hstor with ⟨via, messages, -, htraffic⟩
      have hsilent : signalled (messages.map (replyEvent env th.session.id via)) = [] := by
        apply signalled_eq_nil
        intro e he
        obtain ⟨message, -, rfl⟩ := List.mem_map.mp he
        rfl
      rw [signalled_of_traffic htraffic, hsilent, List.append_nil]

end FtpSession

/-! ## 3. Steps of the server -/

/-- The observers are told what the commands between have them told. -/
structure Announced (cs : List Handled) (p p' : Process) : Prop where
  observers : p'.observers = p.observers
  signalled : signalled p'.trace = signalled p.trace ++
    cs.flatMap fun c => toldOf p.observers c.session c.call.input

namespace Announced

theorem of_same {p p' : Process} {sent : List Event} (hobservers : p'.observers = p.observers)
    (h : traffic p'.trace = traffic p.trace ++ sent) (hsent : ∀ e ∈ sent, signal e = none) :
    Announced [] p p' :=
  ⟨hobservers, by
    rw [signalled_of_traffic h, signalled_eq_nil hsent, List.flatMap_nil]⟩

theorem accounted : FtpServer.Accounted Announced where
  trans {cs ds p q r} h h' := by
    refine ⟨h'.observers.trans h.observers, ?_⟩
    rw [h'.signalled, h.signalled, h.observers, List.flatMap_append, List.append_assoc]
  quiet h := of_same h.observers (h.traffic.trans (List.append_nil _).symm) nofun
  start h := by
    rcases reply_did h with ⟨_, _, hdid⟩
    exact of_same hdid.observers hdid.traffic (by simp [replyEvent, signal])
  pull {result th th'} h := by
    rcases controlPull_ok.mp h with ⟨via, -, rfl⟩
    have htraffic : traffic (th.process.emit (.pull (.control th.session.id) via result)).trace =
        traffic th.process.trace ++ [.pull (.control th.session.id) via result] := by
      simp [Event.isTraffic]
    exact of_same rfl htraffic (by simp [signal])
  call h := by
    obtain ⟨hobservers, hsignalled⟩ := FtpSession.processCommand_signalled h
    exact ⟨hobservers, by rw [hsignalled]; simp⟩

end Announced

/-! ## 4. Runs, with registrations between the steps -/

/-- What happens in the program: a step of the server's threads, or a registration. -/
inductive HostStep where
  | server (i : ServerStep)
  | observers (change : FtpNotifier.Change)

namespace FtpServer

/-- `ftp_server::register_observer` and `ftp_server::unregister_observer`. -/
def changeObservers (s : FtpServer) (change : FtpNotifier.Change) : FtpServer :=
  { s with process := { s.process with observers := s.process.observers.apply change } }

def hostStep (s : FtpServer) : HostStep → Except Abort FtpServer
  | .server i => s.step i
  | .observers change => .ok (s.changeObservers change)

/-- What those observers are to be told that are registered when the step is made. -/
def toldAt (s : FtpServer) : HostStep → List (Nat × Bytes)
  | .server i =>
    (s.handledAt i).toList.flatMap fun c => toldOf s.process.observers c.session c.call.input
  | .observers _ => []

/-- The same for a run. -/
def toldIn : FtpServer → List HostStep → List (Nat × Bytes)
  | _, [] => []
  | s, i :: steps =>
    s.toldAt i ++
      match s.hostStep i with
      | .ok s' => toldIn s' steps
      | .error _ => []

/-- **What the observers are told.**  In every run of the server, for any number of sessions
    and any interleaving, with observers registered and unregistered at any time, the calls of
    `notify_signal` are those for the uploads, in their order: one for each observer that
    has an entry for FILE_PUT in `m_observers` at the time, with the path of the file. -/
theorem observers_told {s s' : FtpServer} {steps : List HostStep}
    (hrun : run hostStep s steps = .ok s') :
    signalled s'.process.trace = signalled s.process.trace ++ s.toldIn steps := by
  induction steps generalizing s with
  | nil =>
    cases hrun
    rw [toldIn, List.append_nil]
  | cons i steps ih =>
    rcases run_cons_ok.mp hrun with ⟨mid, hmid, hrest⟩
    have hstep : signalled mid.process.trace = signalled s.process.trace ++ s.toldAt i := by
      cases i with
      | server i => exact (Announced.accounted.step hmid).signalled
      | observers change =>
        cases hmid
        exact (List.append_nil _).symm
    rw [ih hrest, hstep, toldIn, hmid, List.append_assoc]

/-- An upload before and one behind a registration, each over the connection of its PORT. -/
def lateRegistration : List HostStep :=
  let upload := HostStep.server (.turn 0 (SessionThread.lineTurn .plain "STOR z\r\n" (by decide)))
  let port := HostStep.server (.turn 0 SessionThread.portTurn)
  [.server (.accept .plain ⟨0, 0, .clear⟩ .zero), .server (.greet 0 .plain), port, upload,
    .observers (.register 7 .filePut), port, upload]

theorem observers_told_late :
    ∃ s s', run hostStep s lateRegistration = .ok s' ∧
      signalled s'.process.trace = signalled s.process.trace ++ s.toldIn lateRegistration ∧
      signalled s'.process.trace = [(7, ascii "z")] := by
  obtain ⟨s', hrun, hsignalled⟩ := exists_of_reaches _ lateRegistration
    (fun s => signalled s.process.trace = [(7, ascii "z")])
    (show reaches hostStep ((start .plain (ascii "127.0.0.1") 21 (Process.initial .bare)).get rfl)
      lateRegistration _ = true by decide +kernel)
  exact ⟨_, s', hrun, observers_told hrun, of_decide_eq_true hsignalled⟩

end FtpServer

end FtpsServer
