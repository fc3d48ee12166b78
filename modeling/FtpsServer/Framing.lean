import FtpsServer.MessageBytes

/-!
# Lines and pulls

TCP keeps the order of the bytes a client sends and nothing of how it grouped them.
The loop of the session thread takes what one `recv` returns for one command, so the
commands it handles depend on where the transport cuts the stream.
-/

namespace FtpsServer

open ByteString Cxx Machine FtpCommand

/-! ## 1. Lines and the commands handed on -/

def CRLF : Bytes := [13, 10]

/-- A command line as it is sent: no CRLF but the one at its end, and shorter than the
    buffer. -/
structure Line where
  body : Bytes
  bare : ¬ CRLF <:+: body
  short : (body ++ CRLF).length < BUFFER_SIZE

def Line.bytes (line : Line) : Bytes := line.body ++ CRLF

/-- The bytes a client sends. -/
def stream (lines : List Line) : Bytes := lines.flatMap Line.bytes

/-- What the pulls of some turns return, one after another. -/
def received (turns : List Turn) : Bytes := turns.flatMap fun turn => turn.message.bytes

namespace SessionThread

/-- The commands that are handed to `process_command` in these turns, up to the end of
    the session. -/
def handed (s : SessionThread) : List Turn → List FtpCommand
  | [] => []
  | turn :: turns =>
    if s.thread.session.state = .terminated then []
    else
      match command s.buffer turn.message turn.behind with
      | .error _ => []
      | .ok input =>
        input ::
          match s.handle turn with
          | .error _ => []
          | .ok s' => handed s' turns

/-- **The turns keep to the lines**: the commands handed on are the parses of the lines,
    in order, and all of them when the session goes on. -/
def Framed (s : SessionThread) (turns : List Turn) (lines : List Line) : Prop :=
  (handed s turns).map Except.ok <+: lines.map (fun line => ofCommandLine line.bytes) ∧
    ∀ s', run step s turns = .ok s' → s'.thread.session.state ≠ .terminated →
      (handed s turns).length = lines.length

theorem step_of_terminated {s : SessionThread} (h : s.thread.session.state = .terminated)
    (turn : Turn) : s.step turn = .ok s := if_pos h

theorem run_of_terminated {s : SessionThread} (h : s.thread.session.state = .terminated)
    (turns : List Turn) : run step s turns = .ok s := by
  induction turns with
  | nil => rfl
  | cons turn turns ih => exact run_cons_ok.mpr ⟨s, step_of_terminated h turn, ih⟩

/-- A session that goes on has taken every pull for a command. -/
theorem length_handed {s s' : SessionThread} {turns : List Turn} (hrun : run step s turns = .ok s')
    (hgoes : s'.thread.session.state ≠ .terminated) : (handed s turns).length = turns.length := by
  induction turns generalizing s with
  | nil => rfl
  | cons turn turns ih =>
    rcases run_cons_ok.mp hrun with ⟨mid, hmid, hrest⟩
    have hstate : s.thread.session.state ≠ .terminated := by
      intro hterminated
      rw [run_of_terminated hterminated] at hrun
      cases hrun
      exact hgoes hterminated
    unfold step at hmid
    rw [if_neg hstate] at hmid
    rcases handle_ok hmid with ⟨_, input, _, _, hinput, -⟩
    simp only [handed, if_neg hstate, hinput, hmid, List.length_cons, ih hrest]

/-! ## 2. One line in every pull -/

/-- When every pull returns one line, and each line makes its own command, the turns keep
    to the lines. -/
theorem framed_of_lines {lines : List Line} (hown : ∀ line ∈ lines, OwnBytes line.bytes)
    (s : SessionThread) {turns : List Turn}
    (hturns : turns.map (fun turn => turn.message.bytes) = lines.map Line.bytes) :
    Framed s turns lines := by
  induction lines generalizing s turns with
  | nil =>
    obtain rfl : turns = [] := by simpa using hturns
    exact ⟨List.nil_prefix, fun _ _ _ => rfl⟩
  | cons line lines ih =>
    rcases List.map_eq_cons_iff.mp hturns with ⟨turn, turns', rfl, hmessage, hrest⟩
    by_cases hterminated : s.thread.session.state = .terminated
    · refine ⟨by simp [handed, hterminated], ?_⟩
      intro s' hrun hgoes
      rw [run_of_terminated hterminated] at hrun
      cases hrun
      exact absurd hterminated hgoes
    · -- the buffer shows exactly this line
      have hcommand : command s.buffer turn.message turn.behind = ofCommandLine line.bytes := by
        rw [← hmessage]
        exact (command_own_iff turn.message).mpr (hmessage ▸ hown line (by simp)) _ _
      have hlater : ∀ line' ∈ lines, OwnBytes line'.bytes :=
        fun line' hmem => hown line' (List.mem_cons_of_mem _ hmem)
      cases hparse : ofCommandLine line.bytes with
      | error e =>
        rw [hparse] at hcommand
        refine ⟨by simp [handed, hterminated, hcommand], ?_⟩
        intro s' hrun
        rcases run_cons_ok.mp hrun with ⟨mid, hmid, -⟩
        unfold step at hmid
        rw [if_neg hterminated] at hmid
        rcases handle_ok hmid with ⟨_, input, _, _, hinput, -⟩
        rw [hcommand] at hinput
        cases hinput
      | ok input =>
        rw [hparse] at hcommand
        cases hhandle : s.handle turn with
        | error e =>
          refine ⟨by simp [handed, hterminated, hcommand, hhandle, hparse], ?_⟩
          intro s' hrun
          rcases run_cons_ok.mp hrun with ⟨mid, hmid, -⟩
          unfold step at hmid
          rw [if_neg hterminated, hhandle] at hmid
          cases hmid
        | ok mid =>
          rcases ih hlater mid hrest with ⟨hshort, hall⟩
          have hhanded : handed s (turn :: turns') = input :: handed mid turns' := by
            simp [handed, hterminated, hcommand, hhandle]
          have hstep : s.step turn = .ok mid := (if_neg hterminated).trans hhandle
          unfold Framed
          rw [hhanded, List.map_cons, List.map_cons, hparse]
          refine ⟨(List.cons_prefix_cons).mpr ⟨rfl, hshort⟩, ?_⟩
          intro s' hrun hgoes
          rcases run_cons_ok.mp hrun with ⟨mid', hmid', hrest'⟩
          rw [hstep] at hmid'
          cases hmid'
          rw [List.length_cons, List.length_cons, hall s' hrest' hgoes]

/-! ## 3. One byte in every pull -/

def single (b : UInt8) : Turn where
  message := ⟨[b], by simp, by simp [BUFFER_SIZE]⟩
  behind := []
  env := .plain

theorem received_single (bytes : Bytes) : received (bytes.map single) = bytes := by
  induction bytes with
  | nil => rfl
  | cons b bytes ih =>
    unfold received at ih ⊢
    rw [List.map_cons, List.flatMap_cons, ih]
    rfl

theorem lookup_of_length {key : Bytes} (h : key.length ≤ 1) : lookup key = .unknown := by
  by_contra hknown
  have hall : ∀ k ∈ FTP_MAP_COMMAND.map Prod.fst, 1 < k.length := by decide
  have := hall key (mem_keys_of_lookup hknown)
  omega

theorem word_length_le (s : Bytes) : (word s).length ≤ s.length :=
  (List.takeWhile_prefix _).length_le.trans (List.dropWhile_suffix _).length_le

/-- A session that has seen single bytes only: the buffer has NUL bytes behind the first,
    and the session is the one of the beginning. -/
structure Puzzled (session : FtpSession) (s : SessionThread) : Prop where
  session : s.thread.session = session
  buffer : s.buffer.bytes.drop 1 = List.replicate (BUFFER_SIZE - 1) NUL

theorem command_single {session : FtpSession} {s : SessionThread} (h : Puzzled session s)
    (b : UInt8) : command s.buffer (single b).message (single b).behind = .ok ⟨.unknown, []⟩ := by
  unfold command
  rw [ofCommandLine_unknown_iff]
  refine lookup_of_length ((word_length_le _).trans ?_)
  rw [commandLine_receive]
  have hdrop : s.buffer.bytes.drop (single b).message.bytes.length =
      NUL :: List.replicate (BUFFER_SIZE - 2) NUL := h.buffer
  rw [hdrop]
  by_cases hb : b = NUL
  · subst hb
    simp [single, cString]
  · have hfree : NUL ∉ (single b).message.bytes := by
      simpa [single, eq_comm] using hb
    rw [List.cons_append, cString_append_nul hfree]
    rfl

/-- One byte is one unknown command, and the session stays as it is. -/
theorem handle_single {session : FtpSession} {s : SessionThread} (h : Puzzled session s) {via : Via}
    (hvia : session.controlChannel.via = .ok via) (b : UInt8) :
    ∃ s', s.handle (single b) = .ok s' ∧ Puzzled session s' := by
  obtain rfl := h.session
  let p := (s.thread.process.emit (.pull (.control s.thread.session.id) via (.bytes [b]))).emit
    (replyEvent .plain s.thread.session.id via (ascii "500 command is unknown\r\n"))
  refine ⟨⟨⟨s.thread.session, p⟩, s.buffer.receive (single b).message⟩, ?_, rfl, h.buffer⟩
  unfold handle
  rw [command_single h]
  simp only [Thread.controlPull, TcpTransport.pull, hvia, ok_bind, pure, Except.pure, raising_ok,
    FtpSession.processCommand, Thread.reply, TcpTransport.push]
  rfl

theorem handed_single {session : FtpSession} {via : Via}
    (hvia : session.controlChannel.via = .ok via) (hgoes : session.state ≠ .terminated)
    (bytes : Bytes) {s : SessionThread} (h : Puzzled session s) :
    (handed s (bytes.map single)).length = bytes.length ∧
      ∃ s', run step s (bytes.map single) = .ok s' ∧ Puzzled session s' := by
  induction bytes generalizing s with
  | nil => exact ⟨rfl, s, rfl, h⟩
  | cons b bytes ih =>
    rcases handle_single h hvia b with ⟨mid, hmid, hpuzzled⟩
    rcases ih hpuzzled with ⟨hlength, s', hrun, hend⟩
    have hstate : s.thread.session.state ≠ .terminated := h.session ▸ hgoes
    refine ⟨?_, s', ?_, hend⟩
    · simp only [List.map_cons, handed, if_neg hstate, command_single h, hmid, List.length_cons,
        hlength]
    · exact run_cons_ok.mpr ⟨mid, (if_neg hstate).trans hmid, hrun⟩

theorem two_mul_length_le_stream (lines : List Line) : 2 * lines.length ≤ (stream lines).length := by
  induction lines with
  | nil => simp [stream]
  | cons line lines ih =>
    unfold stream at ih ⊢
    rw [List.flatMap_cons, List.length_append, List.length_cons, Line.bytes, List.length_append,
      show CRLF.length = 2 from rfl]
    omega

/-- **Framing.**  Only of the empty stream does every cutting give the commands of its
    lines.  A stream that comes in line by line does, when each line makes its own
    command; and in a session that goes on there have to be as many pulls as lines. -/
theorem framing (lines : List Line) :
    ((∀ s turns, received turns = stream lines → Framed s turns lines) ↔ lines = []) ∧
    ((∀ line ∈ lines, OwnBytes line.bytes) → ∀ s turns,
      turns.map (fun turn => turn.message.bytes) = lines.map Line.bytes → Framed s turns lines) ∧
    (∀ s turns s', run step s turns = .ok s' → s'.thread.session.state ≠ .terminated →
      Framed s turns lines → turns.length = lines.length) := by
  refine ⟨⟨?_, ?_⟩, fun hown s turns hturns => framed_of_lines hown s hturns, ?_⟩
  · intro hall
    let s : SessionThread := ⟨FtpSession.first .bare ⟨0, 0, .clear⟩, .zero⟩
    have hpuzzled : Puzzled s.thread.session s := ⟨rfl, by
      simp only [s, MessageBuffer.zero, List.drop_replicate]⟩
    have hvia : s.thread.session.controlChannel.via = .ok (.plain 6) := rfl
    obtain ⟨hlength, s', hrun, hend⟩ :=
      handed_single hvia (by decide) (stream lines) hpuzzled
    have hframed := hall s ((stream lines).map single) (received_single _)
    have hsame := hframed.2 s' hrun (by rw [hend.session]; decide)
    have htwo := two_mul_length_le_stream lines
    exact List.length_eq_zero_iff.mp (by omega)
  · rintro rfl s turns hreceived
    obtain rfl : turns = [] := by
      cases turns with
      | nil => rfl
      | cons turn turns =>
        have hnil : turn.message.bytes = [] := (List.append_eq_nil_iff.mp hreceived).1
        exact absurd hnil turn.message.nonempty
    exact ⟨List.nil_prefix, fun _ _ _ => rfl⟩
  · intro s turns s' hrun hgoes hframed
    rw [← length_handed hrun hgoes]
    exact hframed.2 s' hrun hgoes

def pwdLine : Line := ⟨ascii "PWD", by decide, by decide⟩

/-- A login, a PORT and a PWD; the lines get shorter towards the end. -/
def fourLines : List Line :=
  [⟨ascii "PORT 127,0,0,1,19,137", by decide +kernel, by decide⟩,
    ⟨ascii "USER admin", by decide +kernel, by decide⟩,
    ⟨ascii "PASS adm", by decide +kernel, by decide⟩, pwdLine]

theorem framing_line_by_line : Framed ⟨FtpSession.first .bare ⟨0, 0, .clear⟩, .zero⟩
    [portTurn,
      lineTurn .plain "USER admin\r\n" (by decide), lineTurn .plain "PASS adm\r\n" (by decide),
      lineTurn .plain "PWD\r\n" (by decide)] fourLines :=
  (framing fourLines).2.1 (by decide +kernel) _ _ (by decide +kernel)

/-- Of two lines in one segment the second is lost. -/
theorem pipelined_line_lost :
    ¬ ∀ lines s turns, received turns = stream lines → Framed s turns lines := by
  intro h
  have hframed := h [pwdLine, pwdLine] ⟨FtpSession.first .bare ⟨0, 0, .clear⟩, .zero⟩
    [⟨⟨ascii "PWD\r\nPWD\r\n", by decide, by decide⟩, [], .plain⟩] rfl
  have hlength := hframed.2 _ rfl (by decide)
  exact absurd hlength (by decide)

end SessionThread

end FtpsServer
