import FtpsServer.MessageBytes

/-!
# The arguments that handlers read

The constructor of `ftp_command` decides in its switch how many arguments a command has,
and the handlers of `ftp_session` call `get_argument` with fixed indices.  This module
holds the two together: which arguments a handler depends on, and that the parser has
pushed them.
-/

namespace FtpsServer

open ByteString Cxx Machine

namespace FtpCommand

/-! ## 1. The port number of the parser -/

/-- `port_number`, before it is made a text. -/
def extractPortNumber (stream : InputStream) : Except StdException (Option Int) := do
  let (stream, token) := stream.getline COMMA []
  if stream.fail then return none
  let high ← stoi token
  let (_, token) := stream.extract token
  let low ← stoi token
  return some (shiftOr high low)

/-- The variable `port_number` at the end of the constructor, on a line whose command is
    PORT. -/
def portNumber (line : Bytes) : Except StdException (Option Int) :=
  let (stream, _) := (InputStream.ofBytes line).extract []
  let (stream, argument) := stream.extract []
  match extractAddress 4 (stream.setStr argument) [] with
  | none => .ok none
  | some (stream, _) => extractPortNumber stream

/-- The second argument is the text of `port_number`, which is an `int`. -/
theorem extractPort_some {stream : InputStream} {port : Bytes}
    (h : extractPort stream = .ok (some port)) :
    ∃ n, extractPortNumber stream = .ok (some n) ∧ port = stdToString n ∧
      INT_MIN ≤ n ∧ n ≤ INT_MAX := by
  unfold extractPort at h
  unfold extractPortNumber
  dsimp only at h ⊢
  by_cases hfail : (stream.getline COMMA []).1.fail = true
  · rw [if_pos hfail] at h
    cases h
  · rw [if_neg hfail] at h ⊢
    cases hhigh : stoi (stream.getline COMMA []).2 with
    | error e =>
      rw [hhigh] at h
      cases h
    | ok high =>
      rw [hhigh] at h
      simp only [ok_bind] at h ⊢
      cases hlow : stoi ((stream.getline COMMA []).1.extract (stream.getline COMMA []).2).2 with
      | error e =>
        rw [hlow] at h
        cases h
      | ok low =>
        rw [hlow] at h
        cases h
        exact ⟨_, rfl, rfl, shiftOr_range high low⟩

theorem ofCommandLine_of_port {line : Bytes} (h : lookup (word line) = .port) :
    ofCommandLine line = parsePort ((InputStream.ofBytes line).extract []).1 := by
  unfold ofCommandLine
  dsimp only
  rw [(extract_first line).1, h]

/-- **A parsed PORT** has an address and the text of the port number. -/
theorem arguments_of_port {line : Bytes} {input : FtpCommand} (h : ofCommandLine line = .ok input)
    (hport : input.command = .port) :
    ∃ address n, input.arguments = [address, stdToString n] ∧ portNumber line = .ok (some n) ∧
      INT_MIN ≤ n ∧ n ≤ INT_MAX := by
  have hlookup : lookup (word line) = .port := by
    rcases command_of_ok h with hsame | ⟨hlookup, -⟩
    · rw [← hsame, hport]
    · exact hlookup
  rw [ofCommandLine_of_port hlookup] at h
  unfold parsePort parseFields at h
  unfold portNumber
  dsimp only at h ⊢
  generalize ((InputStream.ofBytes line).extract []).1.extract [] = second at h ⊢
  cases haddress : extractAddress 4 (second.1.setStr second.2) [] with
  | none =>
    rw [haddress] at h
    cases h
    cases hport
  | some found =>
    rw [haddress] at h
    dsimp only at h ⊢
    cases hextract : extractPort found.1 with
    | error e =>
      rw [hextract] at h
      cases h
    | ok port =>
      rw [hextract] at h
      cases port with
      | none =>
        cases h
        cases hport
      | some text =>
        cases h
        rcases extractPort_some hextract with ⟨n, hn, rfl, hrange⟩
        exact ⟨found.2, n, rfl, hn, hrange⟩

end FtpCommand

open FtpCommand

namespace FtpSession

/-! ## 2. What the handlers read -/

/-- The indices of the `get_argument` calls in the handler of a command. -/
def argumentReads : FtpCommandT → List Nat
  | .port => [0, 1]
  | .user | .pass | .cwd | .stor | .type | .auth | .pbsz | .prot | .allo | .dele | .rnfr | .rnto =>
    [0]
  | .syst | .pwd | .list | .feat | .pasv | .quit | .siteUtime | .unknown | .incomplete => []

/-- Two argument vectors that `get_argument` cannot tell apart where the handler reads. -/
def AgreeOnReads (input other : FtpCommand) : Prop :=
  input.command = other.command ∧
    ∀ index ∈ argumentReads input.command, input.getArgument index = other.getArgument index

/-- **A handler depends on its reads alone**: with the same answers it does the same, in all
    its branches. -/
theorem processCommand_congr (env : Environment) (th : Thread) {input other : FtpCommand}
    (h : AgreeOnReads input other) :
    processCommand env input th = processCommand env other th := by
  rcases h with ⟨hcommand, hreads⟩
  unfold processCommand
  rw [← hcommand]
  cases hcase : input.command with
  | port =>
    rw [hcase] at hreads
    have hfirst := hreads 0 (by simp [argumentReads])
    have hsecond := hreads 1 (by simp [argumentReads])
    simp only [commandPort, hfirst, hsecond]
  | user | pass | cwd | stor | type | auth | pbsz | prot | allo | dele | rnfr | rnto =>
    rw [hcase] at hreads
    have hfirst := hreads 0 (by simp [argumentReads])
    simp only [commandUser, commandPass, commandCwd, commandStor, commandType, commandAuth,
      commandPbsz, commandProt, commandAllo, commandDele, commandRnfr, commandRnto, hfirst]
  | syst | pwd | list | feat | pasv | quit | siteUtime | unknown | incomplete => rfl

/-- **What is read has been pushed.** -/
theorem reads_in_range {line : Bytes} {input : FtpCommand} (h : ofCommandLine line = .ok input) :
    ∀ index ∈ argumentReads input.command, index < input.arguments.length := by
  by_cases hport : input.command = .port
  · rcases arguments_of_port h hport with ⟨address, n, harguments, -⟩
    rw [hport, harguments]
    simp [argumentReads]
  · rcases command_of_ok h with hsame | ⟨-, rfl⟩
    · rw [ofCommandLine_eq] at h
      by_cases htakes : takesArgument (lookup (word line)) = true
      · rw [if_pos htakes] at h
        cases h
        cases hcase : lookup (word line) <;> simp_all [argumentReads, takesArgument]
      · have hnone : argumentReads (lookup (word line)) = [] := by
          rw [hsame] at hport
          cases hcase : lookup (word line) <;> simp_all [argumentReads, takesArgument]
        rw [hsame, hnone]
        simp
    · simp [argumentReads]

theorem getArgument_of_lt {input : FtpCommand} {index : Nat} (h : index < input.arguments.length) :
    ∃ argument, input.getArgument index = .ok argument := by
  unfold getArgument
  rw [List.getElem?_eq_getElem h]
  exact ⟨_, rfl⟩

/-- **Parser and dispatcher agree**: a handler depends on arguments that are there, and what
    `command_port` reads is the number the parser computed. -/
theorem arguments_in_range {line : Bytes} {input : FtpCommand}
    (h : ofCommandLine line = .ok input) :
    (∀ index ∈ argumentReads input.command, ∃ argument, input.getArgument index = .ok argument) ∧
    (∀ env th other, AgreeOnReads input other →
      processCommand env input th = processCommand env other th) ∧
    (input.command = .port → ∃ text n, input.getArgument 1 = .ok text ∧ stoi text = .ok n ∧
      portNumber line = .ok (some n)) := by
  refine ⟨?_, ?_, ?_⟩
  · intro index hindex
    exact getArgument_of_lt (reads_in_range h index hindex)
  · intro env th other hagree
    exact processCommand_congr env th hagree
  · intro hport
    rcases arguments_of_port h hport with ⟨address, n, harguments, hnumber, hlow, hhigh⟩
    refine ⟨stdToString n, n, ?_, stoi_stdToString hlow hhigh, hnumber⟩
    rw [getArgument, harguments]
    rfl

theorem arguments_in_range_port :
    (∀ index ∈ argumentReads .port, ∃ argument,
      (⟨.port, [ascii "1.2.3.4", ascii "1286"]⟩ : FtpCommand).getArgument index = .ok argument) ∧
    (∀ env th other, AgreeOnReads ⟨.port, [ascii "1.2.3.4", ascii "1286"]⟩ other →
      processCommand env ⟨.port, [ascii "1.2.3.4", ascii "1286"]⟩ th =
        processCommand env other th) ∧
    (FtpCommandT.port = .port → ∃ text n,
      (⟨.port, [ascii "1.2.3.4", ascii "1286"]⟩ : FtpCommand).getArgument 1 = .ok text ∧
      stoi text = .ok n ∧ portNumber (ascii "PORT 1,2,3,4,5,6\r\n") = .ok (some n)) :=
  arguments_in_range (show ofCommandLine (ascii "PORT 1,2,3,4,5,6\r\n") =
    .ok ⟨.port, [ascii "1.2.3.4", ascii "1286"]⟩ from rfl)

end FtpSession

end FtpsServer
