import FtpsServer.SessionThread

/-!
# C++ exceptions

No session thread catches anything, so an exception that leaves the parser or a
handler ends the process.  The partial functions on the way are `vector::at`,
`std::stoi` and `std::string::substr`; the first never fails on a parsed command.
-/

namespace FtpsServer

open ByteString Cxx Machine FtpCommand FtpSession

/-! ## 1. Computations that raise no exception -/

structure NoRaise {α : Type} (x : Except Abort α) : Prop where
  ne : ∀ e, x ≠ .error (.exception e)

section NoRaise

variable {α β : Type}

theorem noRaise_ok (a : α) : NoRaise (.ok a : Except Abort α) :=
  ⟨fun _ h => nomatch h⟩

theorem noRaise_bind {x : Except Abort α} {f : α → Except Abort β} (hx : NoRaise x)
    (hf : ∀ a, NoRaise (f a)) : NoRaise (x >>= f) := by
  refine ⟨fun e h => ?_⟩
  rcases bind_error_iff.mp h with herror | ⟨a, -, herror⟩
  · exact hx.ne e herror
  · exact (hf a).ne e herror

theorem noRaise_ite {c : Prop} [Decidable c] {x y : Except Abort α} (hx : NoRaise x)
    (hy : NoRaise y) : NoRaise (if c then x else y) := by
  split
  · exact hx
  · exact hy

/-- The only other abort is gnutls being handed a NULL session. -/
theorem noRaise_via (t : TcpTransport) : NoRaise t.via := by
  refine ⟨fun e h => ?_⟩
  unfold TcpTransport.via at h
  cases hsecure : t.secure <;> cases hsession : t.session.session <;> simp [hsecure, hsession] at h

end NoRaise

variable (env : Environment) (message : Bytes) (th : Thread)

theorem noRaise_push (object : Object) (t : TcpTransport) (p : Process) :
    NoRaise (t.push env object message p) :=
  noRaise_bind (noRaise_via t) fun _ => noRaise_ok _

theorem noRaise_pull (object : Object) (t : TcpTransport) (result : Received) (p : Process) :
    NoRaise (t.pull object result p) :=
  noRaise_bind (noRaise_via t) fun _ => noRaise_ok _

theorem noRaise_reply : NoRaise (th.reply env message) :=
  noRaise_bind (noRaise_push ..) fun _ => noRaise_ok _

theorem noRaise_replyWhen (condition : Bool) : NoRaise (th.replyWhen env condition message) :=
  noRaise_ite (noRaise_reply ..) (noRaise_ok _)

theorem noRaise_dataPush : NoRaise (th.dataPush env message) :=
  noRaise_bind (noRaise_push ..) fun _ => noRaise_ok _

theorem noRaise_dataPull (result : Received) : NoRaise (th.dataPull result) :=
  noRaise_bind (noRaise_pull ..) fun _ => noRaise_ok _

theorem noRaise_setTls (object : Object) (t : TcpTransport) (p : Process) :
    NoRaise (t.setTls env object p) := by
  rcases t.setTls_ok env object p with ⟨result, t', p', heq, -, -⟩
  rw [heq]
  exact noRaise_ok _

/-! ## 2. The handlers -/

theorem noRaise_receiveAllocated (file : Option Posix.Location) (room : Option Nat)
    (chunks : List Chunk) (fileTotalSize : Int) :
    NoRaise (receiveAllocated env file room chunks fileTotalSize th) := by
  induction chunks generalizing room fileTotalSize th with
  | nil => exact noRaise_dataPull ..
  | cons chunk chunks ih =>
    exact noRaise_bind (noRaise_dataPull ..) fun _ => noRaise_ite (ih _ _ _) (noRaise_ok _)

theorem noRaise_receiveAll (file : Option Posix.Location) (room : Option Nat)
    (chunks : List Chunk) : NoRaise (receiveAll env file room chunks th) := by
  induction chunks generalizing room th with
  | nil => exact noRaise_dataPull ..
  | cons chunk chunks ih => exact noRaise_bind (noRaise_dataPull ..) fun _ => ih _ _

theorem noRaise_acceptData (listener : TcpListener) : NoRaise (acceptData env listener th) := by
  refine noRaise_bind ?_ fun _ => noRaise_ok _
  exact noRaise_ite (noRaise_bind (noRaise_setTls ..) fun _ => noRaise_ok _) (noRaise_ok _)

theorem noRaise_pasv (input : FtpCommand) : NoRaise (commandPasv env input th) := by
  unfold commandPasv
  dsimp only
  exact noRaise_ite (noRaise_bind (noRaise_reply ..) fun _ => noRaise_ok _)
    (noRaise_bind (noRaise_reply ..) fun _ => noRaise_acceptData ..)

theorem noRaise_stor (argument : Bytes) : NoRaise (commandStor env ⟨.stor, [argument]⟩ th) := by
  unfold commandStor
  simp only [getArgument, List.getElem?_cons_zero, raising_ok, ok_bind]
  refine noRaise_bind (noRaise_reply ..) fun _ => noRaise_bind ?_ fun _ =>
    noRaise_bind (noRaise_reply ..) fun _ => noRaise_ok _
  exact noRaise_ite (noRaise_receiveAllocated ..) (noRaise_receiveAll ..)

/-- The commands with one argument whose handlers call nothing partial. -/
theorem noRaise_argument (command : FtpCommandT) (argument : Bytes)
    (hcommand : command ∈ [.user, .pass, .stor, .type, .auth, .prot, .dele, .rnfr, .rnto]) :
    NoRaise (processCommand env ⟨command, [argument]⟩ th) := by
  unfold processCommand
  cases command <;> first | (simp at hcommand; done) | skip
  case stor => exact noRaise_stor ..
  case user =>
    simp only [commandUser, getArgument, List.getElem?_cons_zero, raising_ok, ok_bind]
    exact noRaise_bind (noRaise_replyWhen ..) fun _ => noRaise_reply ..
  case pass =>
    simp only [commandPass, getArgument, List.getElem?_cons_zero, raising_ok, ok_bind]
    exact noRaise_bind (noRaise_replyWhen ..) fun _ =>
      noRaise_ite (noRaise_bind (noRaise_reply ..) fun _ => noRaise_ok _) (noRaise_reply ..)
  case type =>
    simp only [commandType, getArgument, List.getElem?_cons_zero, raising_ok, ok_bind]
    exact noRaise_ite (noRaise_reply ..) (noRaise_ite (noRaise_reply ..) (noRaise_reply ..))
  case auth =>
    simp only [commandAuth, getArgument, List.getElem?_cons_zero, raising_ok, ok_bind]
    exact noRaise_ite (noRaise_reply ..) (noRaise_bind (noRaise_reply ..) fun _ =>
      noRaise_bind (noRaise_setTls ..) fun _ => noRaise_ok _)
  case prot =>
    simp only [commandProt, getArgument, List.getElem?_cons_zero, raising_ok, ok_bind]
    exact noRaise_reply ..
  case dele =>
    simp only [commandDele, getArgument, List.getElem?_cons_zero, raising_ok, ok_bind]
    exact noRaise_ite (noRaise_reply ..) (noRaise_reply ..)
  case rnfr =>
    simp only [commandRnfr, getArgument, List.getElem?_cons_zero, raising_ok, ok_bind]
    exact noRaise_bind (noRaise_reply ..) fun _ => noRaise_ok _
  case rnto =>
    simp only [commandRnto, getArgument, List.getElem?_cons_zero, raising_ok, ok_bind]
    exact noRaise_ite (noRaise_reply ..) (noRaise_ite (noRaise_reply ..) (noRaise_reply ..))

theorem noRaise_bare (command : FtpCommandT)
    (hcommand : command ∈ [.syst, .pwd, .list, .feat, .pasv, .quit, .incomplete, .unknown]) :
    NoRaise (processCommand env ⟨command, []⟩ th) := by
  unfold processCommand
  cases command <;> first | (simp at hcommand; done) | skip
  case list =>
    exact noRaise_bind (noRaise_reply ..) fun _ => noRaise_bind (noRaise_dataPush ..) fun _ =>
      noRaise_bind (noRaise_reply ..) fun _ => noRaise_ok _
  case pasv => exact noRaise_pasv ..
  case quit => exact noRaise_ok _
  all_goals exact noRaise_reply ..

/-! ## 3. The partial functions on client data -/

def Raises {α : Type} (x : Except Abort α) : Prop := ∃ e, x = .error (.exception e)

theorem NoRaise.not_raises {α : Type} {x : Except Abort α} (h : NoRaise x) : ¬ Raises x :=
  fun ⟨e, he⟩ => h.ne e he

theorem raises_raising_bind {α β : Type} {x : Except StdException α} {f : α → Except Abort β} :
    Raises (raising x >>= f) ↔ (∃ e, x = .error e) ∨ ∃ a, x = .ok a ∧ Raises (f a) := by
  cases x with
  | error e =>
    refine iff_of_true ⟨e, rfl⟩ (Or.inl ⟨e, rfl⟩)
  | ok a =>
    constructor
    · intro h
      exact Or.inr ⟨a, rfl, h⟩
    · rintro (⟨e, h⟩ | ⟨b, h, hb⟩)
      · cases h
      · cases h
        exact hb

/-- When what follows raises nothing, the partial function decides. -/
theorem raises_iff_error {α β : Type} {x : Except StdException α} {f : α → Except Abort β}
    (hf : ∀ a, NoRaise (f a)) : Raises (raising x >>= f) ↔ ∃ e, x = .error e := by
  rw [raises_raising_bind]
  constructor
  · rintro (h | ⟨a, -, ha⟩)
    · exact h
    · exact absurd ha (hf a).not_raises
  · exact Or.inl

theorem raises_pbsz (argument : Bytes) :
    Raises (processCommand env ⟨.pbsz, [argument]⟩ th) ↔ ∃ e, stoi argument = .error e :=
  raises_iff_error fun _ => noRaise_reply ..

theorem raises_allo (argument : Bytes) :
    Raises (processCommand env ⟨.allo, [argument]⟩ th) ↔ ∃ e, stoi argument = .error e :=
  raises_iff_error fun _ => noRaise_reply ..

/-- Only the tilde alone is too short for what CWD cuts off. -/
theorem pathFolder_error_iff (session : FtpSession) (argument : Bytes) :
    (∃ e, session.pathFolder argument = .error e) ↔ argument = ascii "~" := by
  unfold FtpSession.pathFolder Path.isPathRooted Path.isPathHomed substr
  match argument with
  | [] => simp [show ascii "~" = [126] from by decide]
  | [b] =>
    rw [show ascii "~" = [126] from by decide]
    by_cases hroot : b = SLASH
    · subst hroot
      simp [SLASH]
    · by_cases hhome : b = 126
      · subst hhome
        simp [SLASH]
      · simp [hroot, hhome]
  | a :: b :: rest =>
    rw [show ascii "~" = [126] from by decide]
    by_cases hroot : a = SLASH
    · simp [hroot]
    · by_cases hhome : a = 126
      · subst hhome
        simp [SLASH]
      · simp [hroot, hhome]

theorem raises_cwd (argument : Bytes) :
    Raises (processCommand env ⟨.cwd, [argument]⟩ th) ↔ argument = ascii "~" := by
  rw [← pathFolder_error_iff th.session argument]
  unfold processCommand commandCwd
  simp only [getArgument, List.getElem?_cons_zero, raising_ok, ok_bind]
  apply raises_iff_error
  intro _
  exact noRaise_ite (noRaise_reply ..) (noRaise_reply ..)

/-- The port of a parsed PORT is the text of an `int`, which `std::stoi` reads. -/
theorem noRaise_port (address : Bytes) (high low : Int) :
    NoRaise (processCommand env ⟨.port, [address, stdToString (shiftOr high low)]⟩ th) := by
  have hport := stoi_stdToString (shiftOr_range high low).1 (shiftOr_range high low).2
  simp only [processCommand, commandPort, getArgument, List.getElem?_cons_zero,
    List.getElem?_cons_succ, raising_ok, ok_bind, hport]
  exact noRaise_ite (noRaise_reply ..) (noRaise_bind (noRaise_reply ..) fun _ => noRaise_reply ..)

/-! ## 4. Messages that raise -/

/-- A text on which `std::stoi` raises: no digits, or too large a number. -/
def Unreadable (text : Bytes) : Prop := ∃ e, stoi text = .error e

/-- **The lines that raise an exception**: PBSZ and ALLO with an argument that is no
    `int`, CWD with a tilde alone, and PORT with five fields of which one of the two
    for the port is no `int`, provided that white space ends the argument. -/
def Malformed (line : Bytes) : Prop :=
  let argument := word (afterWord line)
  match lookup (word line) with
  | .pbsz | .allo => Unreadable argument
  | .cwd => argument = ascii "~"
  | .port => afterWord (afterWord line) ≠ [] ∧ ∃ high low, portTexts argument = some (high, low) ∧
      (Unreadable high ∨ Unreadable low)
  | _ => False

def processLine (line : Bytes) (th : Thread) : Except Abort Thread := do
  let input ← raising (ofCommandLine line)
  processCommand env input th

theorem raises_parseFields (argument : Bytes) :
    Raises (raising (parseFields (InputStream.ofBytes argument)) >>= fun input =>
      processCommand env input th) ↔
    ∃ high low, portTexts argument = some (high, low) ∧ (Unreadable high ∨ Unreadable low) := by
  rw [raises_raising_bind]
  have hrest : ∀ input, parseFields (InputStream.ofBytes argument) = .ok input →
      ¬ Raises (processCommand env input th) := by
    intro input hinput
    rcases parseFields_port hinput with rfl | ⟨address, high, low, rfl⟩
    · exact (noRaise_bare env th .incomplete (by simp)).not_raises
    · exact (noRaise_port env th address high low).not_raises
  have hfirst : (∃ e, parseFields (InputStream.ofBytes argument) = .error e) ↔
      ∃ high low, portTexts argument = some (high, low) ∧ (Unreadable high ∨ Unreadable low) := by
    rw [parseFields_eq]
    cases htexts : portTexts argument with
    | none => simp
    | some texts =>
      rcases texts with ⟨high, low⟩
      simp only [Option.some.injEq, Prod.mk.injEq, Unreadable]
      cases hhigh : stoi high with
      | error e =>
        refine iff_of_true ⟨e, rfl⟩ ⟨high, low, ⟨rfl, rfl⟩, Or.inl ⟨e, hhigh⟩⟩
      | ok h =>
        cases hlow : stoi low with
        | error e =>
          refine iff_of_true ⟨e, rfl⟩ ⟨high, low, ⟨rfl, rfl⟩, Or.inr ⟨e, hlow⟩⟩
        | ok l =>
          refine iff_of_false ?_ ?_
          · rintro ⟨e, he⟩
            cases he
          · rintro ⟨_, _, ⟨rfl, rfl⟩, ⟨e, he⟩ | ⟨e, he⟩⟩
            · rw [hhigh] at he
              cases he
            · rw [hlow] at he
              cases he
  rw [hfirst]
  constructor
  · rintro (h | ⟨input, hinput, hraises⟩)
    · exact h
    · exact absurd hraises (hrest input hinput)
  · exact Or.inl

/-- **A line raises an exception exactly when it is malformed**, whatever the state of the
    session and of the process. -/
theorem raises_iff_malformed (line : Bytes) :
    Raises (processLine env line th) ↔ Malformed line := by
  unfold processLine Malformed
  rw [ofCommandLine_eq]
  cases hlookup : lookup (word line) with
  | port =>
    simp only [takesArgument, Bool.false_eq_true, if_false, if_true]
    by_cases hend : afterWord (afterWord line) = []
    · simp only [hend, if_true, ne_eq, not_true, false_and, iff_false]
      exact (noRaise_bare env th .incomplete (by simp)).not_raises
    · simp only [hend, if_false, ne_eq, not_false_eq_true, true_and]
      exact raises_parseFields ..
  | siteUtime => exact absurd hlookup (lookup_word_ne_siteUtime line)
  | pbsz => exact raises_pbsz ..
  | allo => exact raises_allo ..
  | cwd => exact raises_cwd ..
  | user | pass | stor | type | auth | prot | dele | rnfr | rnto =>
    simp only [takesArgument, if_true, raising_ok, ok_bind, iff_false]
    exact (noRaise_argument _ _ _ _ (by simp)).not_raises
  | syst | pwd | list | feat | pasv | quit | incomplete | unknown =>
    simp only [takesArgument, Bool.false_eq_true, if_false, reduceCtorEq, raising_ok, ok_bind,
      iff_false]
    exact (noRaise_bare _ _ _ (by simp)).not_raises

/-- A client that has not even logged in ends the server with one short line. -/
theorem pbsz_raises :
    ¬ ∀ line : Bytes, ∀ th : Thread, ∀ env : Environment, ¬ Raises (processLine env line th) := by
  intro h
  exact h (ascii "PBSZ x\r\n") (first .bare ⟨0, 0, .clear⟩) .plain ⟨.invalidArgument, rfl⟩

end FtpsServer
