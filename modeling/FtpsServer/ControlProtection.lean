import FtpsServer.Replies

/-!
# Protection of the control channel

AUTH TLS is answered before the handshake, and the result of the handshake is only the
new value of a flag.  The session goes on in every case, in clear where the flag is
down.
-/

namespace FtpsServer

open ByteString Cxx Machine

/-! ## 1. Ways on the control channel -/

/-- The way an event takes over the control channel of session `id`. -/
def controlVia (id : Nat) : Event → Option Via
  | .push (.control session) via _ _ => if session = id then some via else none
  | .pull (.control session) via _ => if session = id then some via else none
  | _ => none

/-- The ways that were taken over the control channel of session `id`. -/
def spoken (id : Nat) (events : List Event) : List Via := events.filterMap (controlVia id)

/-- Everything that is read or said on the control channel between the two states goes
    through TLS. -/
def ControlPrivate (th th' : Thread) : Prop :=
  ∃ sent, traffic th'.process.trace = traffic th.process.trace ++ sent ∧
    ∀ via ∈ spoken th.session.id sent, via.isTls = true

@[simp] theorem spoken_nil (id : Nat) : spoken id [] = [] := rfl

@[simp] theorem spoken_append (id : Nat) (front back : List Event) :
    spoken id (front ++ back) = spoken id front ++ spoken id back := List.filterMap_append

@[simp] theorem spoken_replyEvent (env : Environment) (id : Nat) (via : Via) (message : Bytes)
    (events : List Event) :
    spoken id (replyEvent env id via message :: events) = via :: spoken id events := by
  simp [spoken, controlVia, replyEvent]

@[simp] theorem spoken_pull (id : Nat) (via : Via) (result : Received) (events : List Event) :
    spoken id (.pull (.control id) via result :: events) = via :: spoken id events := by
  simp [spoken, controlVia]

theorem spoken_filter_onControl (id : Nat) (events : List Event) :
    spoken id (events.filter (Event.onControl id)) = spoken id events := by
  unfold spoken
  rw [List.filterMap_filter]
  apply List.filterMap_congr
  intro e _
  cases e with
  | push object via message accepted => cases object <;> simp [Event.onControl, controlVia]
  | pull object via result => cases object <;> simp [Event.onControl, controlVia]
  | _ => rfl

theorem spoken_map_replyEvent (env : Environment) (id : Nat) (via : Via) (messages : List Bytes) :
    spoken id (messages.map (replyEvent env id via)) = messages.map fun _ => via := by
  induction messages with
  | nil => rfl
  | cons message messages ih => rw [List.map_cons, spoken_replyEvent, ih, List.map_cons]

/-! ## 2. The channel -/

namespace TcpTransport

/-- A transport whose flag is up has a TLS session. -/
def Live (t : TcpTransport) : Prop := t.secure = true → ∃ session, t.session.session = some session

theorem live_of_clear {t : TcpTransport} (h : t.secure = false) : t.Live := by
  intro hsecure
  rw [h] at hsecure
  cases hsecure

theorem Live.via {t : TcpTransport} (h : t.Live) (hsecure : t.secure = true) :
    ∃ session, t.via = .ok (.tls session) := by
  rcases h hsecure with ⟨session, hsession⟩
  refine ⟨session, ?_⟩
  unfold TcpTransport.via
  rw [if_pos hsecure, hsession]

theorem Live.exists_via {t : TcpTransport} (h : t.Live) : ∃ via, t.via = .ok via := by
  cases hsecure : t.secure with
  | true =>
    rcases h.via hsecure with ⟨session, hvia⟩
    exact ⟨_, hvia⟩
  | false =>
    refine ⟨.plain t.socket, ?_⟩
    rw [TcpTransport.via, hsecure]
    rfl

theorem secure_of_via {t : TcpTransport} {via : Via} (h : t.via = .ok via)
    (htls : via.isTls = true) : t.secure = true := (isTls_of_via h).symm.trans htls

/-- `set_tls` leaves the flag up exactly with a TLS session behind it. -/
theorem Bound.live {env : Environment} {t t' : TcpTransport} (h : Bound env t t') (ht : t.Live) :
    t'.Live := by
  intro hsecure
  rw [h.secure] at hsecure
  cases hkey : env.keyFile with
  | true =>
    rw [hkey, if_pos rfl] at hsecure
    rcases h.made hkey hsecure with ⟨handle, hmade⟩
    exact ⟨_, hmade⟩
  | false =>
    rw [hkey, if_neg (by decide)] at hsecure
    rw [h.kept hkey]
    exact ht hsecure

end TcpTransport

/-! ## 3. One call -/

def AUTH_SUCCESSFUL : Bytes := ascii "234 AUTH TLS successful\r\n"

def FtpCommand.IsAuthTls (input : FtpCommand) : Prop :=
  input.command = .auth ∧ input.getArgument 0 = .ok (ascii "TLS")

/-- What `set_tls` makes of the flag: the handshake decides it, unless the key file is
    missing. -/
def upholds (env : Environment) (channel : TcpTransport) : Bool :=
  if env.keyFile then env.handshake else channel.secure

namespace FtpSession

variable {env : Environment} {input : FtpCommand} {th th' : Thread}

theorem auth_of_authSuccessful {c : Call} {messages : List Bytes} (h : Says th c messages)
    (hmem : AUTH_SUCCESSFUL ∈ messages) : c.input.command = .auth := by
  have hcode := h.code AUTH_SUCCESSFUL hmem
  rw [AUTH_SUCCESSFUL, replyCode_ascii] at hcode
  revert hcode
  cases c.input.command <;> decide

/-- The 234 is in the table for AUTH TLS alone. -/
theorem authSuccessful_mem_iff {th : Thread} {c : Call} {messages : List Bytes}
    (h : Says th c messages) : AUTH_SUCCESSFUL ∈ messages ↔ c.input.IsAuthTls := by
  constructor
  · intro hmem
    have hauth := auth_of_authSuccessful h hmem
    simp only [Says, hauth] at h
    rcases h with ⟨-, rfl⟩ | ⟨htls, -⟩
    · exact absurd (List.mem_singleton.mp hmem) (by decide)
    · exact ⟨hauth, htls⟩
  · rintro ⟨hauth, htls⟩
    simp only [Says, hauth] at h
    rcases h with ⟨hother, -⟩ | ⟨-, rfl⟩
    · exact absurd htls hother
    · exact List.mem_singleton_self _

/-- What a call says on the control channel: everything takes the way the channel has
    before the call, and the 234 is the answer to AUTH TLS. -/
theorem processCommand_spoken (h : processCommand env input th = .ok th') :
    ∃ sent, traffic th'.process.trace = traffic th.process.trace ++ sent ∧
      (∀ via ∈ spoken th.session.id sent, th.session.controlChannel.via = .ok via) ∧
      (AUTH_SUCCESSFUL ∈ replies th.session.id sent ↔ input.IsAuthTls) := by
  rcases processCommand_says h with ⟨messages, ⟨via, sent, htraffic, hvia, hsent⟩, hsays⟩
  refine ⟨sent, htraffic, ?_, ?_⟩
  · intro way hway
    rw [← spoken_filter_onControl, hsent, spoken_map_replyEvent] at hway
    rcases List.mem_map.mp hway with ⟨message, hmessage, rfl⟩
    exact hvia (List.ne_nil_of_mem hmessage)
  · rw [← replies_filter_onControl, hsent, replies_map_replyEvent]
    exact authSuccessful_mem_iff hsays

theorem controlChannel_secure (h : processCommand env input th = .ok th') :
    (input.IsAuthTls → th'.session.controlChannel.secure = upholds env th.session.controlChannel) ∧
      (¬ input.IsAuthTls → th'.session.controlChannel = th.session.controlChannel) ∧
      (th.session.controlChannel.Live → th'.session.controlChannel.Live) := by
  by_cases hcommand : input.command = .auth
  · unfold processCommand at h
    rw [hcommand] at h
    obtain ⟨service, _, hservice, _, ⟨hother, hdid⟩ | ⟨htls, channel, hbound, hdid⟩⟩ :=
      commandAuth_did h
    · rw [hdid.session]
      refine ⟨?_, fun _ => rfl, fun hlive => hlive⟩
      rintro ⟨-, htls⟩
      rw [hservice] at htls
      cases htls
      exact absurd rfl hother
    · rw [hdid.session]
      exact ⟨fun _ => hbound.secure, fun hno => absurd ⟨hcommand, htls ▸ hservice⟩ hno,
        hbound.live⟩
  · have hsame := (processCommand_frame h).1.controlChannel hcommand
    rw [hsame]
    exact ⟨fun hauth => absurd hauth.1 hcommand, fun _ => rfl, fun hlive => hlive⟩

end FtpSession

/-! ## 4. One turn -/

namespace SessionThread

def AuthTls (s : SessionThread) (turn : Turn) : Prop :=
  ∃ input, command s.buffer turn.message turn.behind = .ok input ∧ input.IsAuthTls

/-- In the step from `s` to `s'` the session replies 234. -/
def Promises (s s' : SessionThread) : Prop :=
  ∃ new, Replied s.thread s'.thread new ∧ AUTH_SUCCESSFUL ∈ new

/-- The flag that the turn leaves to the turns behind it. -/
def secured (s : SessionThread) (turn : Turn) : Bool :=
  upholds turn.env s.thread.session.controlChannel

variable {s s' : SessionThread} {turn : Turn}

/-- A turn pulls its command and replies by one way, the one the channel has before it. -/
theorem handle_spoken (h : s.handle turn = .ok s') :
    (ControlPrivate s.thread s'.thread ↔ s.thread.session.controlChannel.secure = true) ∧
      (Promises s s' ↔ AuthTls s turn) := by
  rcases handle_ok h with ⟨via, input, th₁, hvia, hinput, rfl, hcall, -⟩
  rcases FtpSession.processCommand_spoken hcall with ⟨sent, htraffic, hways, hanswer⟩
  dsimp only at htraffic hways hanswer
  have hpull (result : Received) :
      traffic [Event.pull (.control s.thread.session.id) via result] =
        [.pull (.control s.thread.session.id) via result] := rfl
  rw [Process.emit_trace, traffic_append, hpull, List.append_assoc,
    List.singleton_append] at htraffic
  constructor
  · constructor
    · rintro ⟨sent', heq, hall⟩
      rw [htraffic] at heq
      obtain rfl := List.append_cancel_left heq
      exact TcpTransport.secure_of_via hvia (hall via (by simp))
    · intro hsecure
      refine ⟨_, htraffic, ?_⟩
      intro way hmem
      rw [spoken_pull, List.mem_cons] at hmem
      have hway : s.thread.session.controlChannel.via = .ok way := by
        rcases hmem with rfl | hmem
        · exact hvia
        · exact hways way hmem
      rw [TcpTransport.isTls_of_via hway, hsecure]
  · have hreplied : Replied s.thread s'.thread (replies s.thread.session.id sent) := by
      unfold Replied
      rw [← replies_traffic, htraffic, replies_append, replies_traffic]
      rfl
    constructor
    · rintro ⟨new, hnew, hmem⟩
      rw [hnew.unique hreplied] at hmem
      exact ⟨input, hinput, hanswer.mp hmem⟩
    · rintro ⟨input', hinput', hauth⟩
      rw [hinput] at hinput'
      cases hinput'
      exact ⟨_, hreplied, hanswer.mpr hauth⟩

theorem handle_secure (h : s.handle turn = .ok s') :
    (AuthTls s turn → s'.thread.session.controlChannel.secure = s.secured turn) ∧
      (¬ AuthTls s turn →
        s'.thread.session.controlChannel = s.thread.session.controlChannel) ∧
      (s.thread.session.controlChannel.Live → s'.thread.session.controlChannel.Live) := by
  rcases handle_ok h with ⟨via, input, th₁, -, hinput, rfl, hcall, -⟩
  rcases FtpSession.controlChannel_secure hcall with ⟨hauth, hother, hlive⟩
  refine ⟨?_, fun hno => hother fun htls => hno ⟨input, hinput, htls⟩, hlive⟩
  rintro ⟨input', hinput', htls⟩
  rw [hinput] at hinput'
  cases hinput'
  exact hauth htls

theorem step_live (hlive : s.thread.session.controlChannel.Live) (h : s.step turn = .ok s') :
    s'.thread.session.controlChannel.Live := by
  unfold step at h
  split at h
  · cases h
    exact hlive
  · exact (handle_secure h).2.2 hlive

/-! ## 5. Runs -/

/-- The turn is read through TLS, and if it returns, answered through TLS. -/
def Private (s : SessionThread) (turn : Turn) : Prop :=
  (∃ session, s.thread.session.controlChannel.via = .ok (.tls session)) ∧
    ∀ s', s.handle turn = .ok s' → ControlPrivate s.thread s'.thread

theorem private_iff (hlive : s.thread.session.controlChannel.Live) :
    Private s turn ↔ s.thread.session.controlChannel.secure = true := by
  constructor
  · rintro ⟨⟨session, hvia⟩, -⟩
    exact TcpTransport.secure_of_via hvia rfl
  · intro hsecure
    exact ⟨hlive.via hsecure, fun s' h => (handle_spoken h).1.mpr hsecure⟩

/-- **No fall back**: behind a turn that replied 234, every turn the session still
    handles is private. -/
def NoFallback (s : SessionThread) (turns : List Turn) : Prop :=
  ∀ before turn later turn' after mid next last,
    turns = before ++ turn :: (later ++ turn' :: after) → run step s before = .ok mid →
      mid.step turn = .ok next → Promises mid next → run step next later = .ok last →
        last.thread.session.state ≠ .terminated → Private last turn'

/-- Every AUTH TLS behind which a turn comes leaves the flag up. -/
def Upheld (s : SessionThread) (turns : List Turn) : Prop :=
  ∀ before turn turn' after mid next, turns = before ++ turn :: turn' :: after →
    run step s before = .ok mid → mid.thread.session.state ≠ .terminated →
      mid.step turn = .ok next → AuthTls mid turn → mid.secured turn = true

/-- Once up, the flag stays up as long as turns come. -/
theorem secure_of_upheld {fresh mid last : SessionThread} {turns before later rest : List Turn}
    (hupheld : Upheld fresh turns) (hturns : turns = before ++ (later ++ rest)) (hrest : rest ≠ [])
    (hrun : run step fresh before = .ok mid) (hlater : run step mid later = .ok last)
    (hsecure : mid.thread.session.controlChannel.secure = true) :
    last.thread.session.controlChannel.secure = true := by
  induction later generalizing before mid with
  | nil =>
    cases hlater
    exact hsecure
  | cons turn later ih =>
    rcases run_cons_ok.mp hlater with ⟨next, hnext, hlater'⟩
    have hbefore : run step fresh (before ++ [turn]) = .ok next :=
      run_concat_ok.mpr ⟨mid, hrun, hnext⟩
    apply ih (by rw [hturns]; simp) hbefore hlater'
    by_cases hstate : mid.thread.session.state = .terminated
    · rw [step, if_pos hstate] at hnext
      cases hnext
      exact hsecure
    · have hhandle := hnext
      rw [step, if_neg hstate] at hhandle
      rcases handle_secure hhandle with ⟨hauth, hother, -⟩
      by_cases htls : AuthTls mid turn
      · -- a turn comes behind this one
        obtain ⟨turn', after, hbehind⟩ := List.exists_cons_of_ne_nil
          (List.append_ne_nil_of_right_ne_nil later hrest)
        rw [hauth htls]
        exact hupheld before turn turn' after mid next (by rw [hturns, List.cons_append, hbehind])
          hrun hstate hnext htls
      · rw [hother htls]
        exact hsecure

theorem noFallback_iff_upheld {fresh : SessionThread}
    (hfresh : fresh.thread.session.controlChannel.Live) (turns : List Turn) :
    NoFallback fresh turns ↔ Upheld fresh turns := by
  constructor
  · intro hno before turn turn' after mid next hturns hrun hstate hnext htls
    have hhandle := hnext
    rw [step, if_neg hstate] at hhandle
    have hlive := step_live (run_invariant (fun _ _ _ => step_live) hfresh hrun) hnext
    have hgoes : next.thread.session.state ≠ .terminated := by
      rcases handle_ok hhandle with ⟨_, input, _, _, hinput, rfl, hcall, -⟩
      rcases htls with ⟨input', hinput', hauth⟩
      rw [hinput] at hinput'
      cases hinput'
      rw [(FtpSession.processCommand_frame hcall).1.state (by simp [hauth.1])]
      exact hstate
    have hprivate := hno before turn [] turn' after mid next next hturns hrun hnext
      ((handle_spoken hhandle).2.mpr htls) rfl hgoes
    rw [← (handle_secure hhandle).1 htls]
    exact (private_iff hlive).mp hprivate
  · intro hupheld before turn later turn' after mid next last hturns hrun hnext hpromises hlater
      hgoes
    have hlive := run_invariant (fun _ _ _ => step_live)
      (step_live (run_invariant (fun _ _ _ => step_live) hfresh hrun) hnext) hlater
    rw [private_iff hlive]
    have hstate : mid.thread.session.state ≠ .terminated := by
      intro hterminated
      rw [step, if_pos hterminated] at hnext
      cases hnext
      rcases hpromises with ⟨new, hnew, hmem⟩
      obtain rfl : new = [] := List.append_right_eq_self.mp hnew.symm
      cases hmem
    have hhandle := hnext
    rw [step, if_neg hstate] at hhandle
    have htls := (handle_spoken hhandle).2.mp hpromises
    obtain ⟨turn'', after', hbehind⟩ := List.exists_cons_of_ne_nil
      (List.append_ne_nil_of_right_ne_nil later (List.cons_ne_nil turn' after))
    have hbefore : run step fresh (before ++ [turn]) = .ok next :=
      run_concat_ok.mpr ⟨mid, hrun, hnext⟩
    have hsplit : turns = (before ++ [turn]) ++ (later ++ turn' :: after) := by
      rw [hturns, List.append_assoc, List.singleton_append]
    apply secure_of_upheld hupheld hsplit (List.cons_ne_nil turn' after) hbefore hlater
    rw [(handle_secure hhandle).1 htls]
    exact hupheld before turn turn'' after' mid next (by rw [hturns, hbehind]) hrun hstate hnext htls

/-- **AUTH TLS.**  In a session that was constructed on an accepted connection, no reply and
    no command falls back behind a 234 exactly when every AUTH TLS, but one that nothing
    follows, ends with a handshake, or finds no key file on a channel that is secure
    already. -/
theorem auth_tls (opens : Bool) (id : Nat) (socket : Int) (address : Bytes) (port : Int)
    (garbage : Uninitialised)
    (p p' : Process) (buffer : MessageBuffer) (turns : List Turn) :
    let opened := (FtpSession.construct opens id ⟨socket, .null, false, address, port⟩ garbage p).session
    let fresh : SessionThread := ⟨⟨opened, p'⟩, buffer⟩
    NoFallback fresh turns ↔ Upheld fresh turns := by
  intro opened fresh
  have hlive : fresh.thread.session.controlChannel.Live := TcpTransport.live_of_clear rfl
  exact noFallback_iff_upheld hlive turns

/-- AUTH TLS on a connection that is secure already, with a handshake that fails, and a PWD
    behind it. -/
def rehandshake : List Turn :=
  [lineTurn .plain "AUTH TLS\r\n" (by decide),
    lineTurn { Environment.plain with handshake := false } "AUTH TLS\r\n" (by decide),
    lineTurn .plain "PWD\r\n" (by decide)]

/-- A handshake that fails turns a secure channel back to clear text. -/
theorem rehandshake_falls_back :
    ¬ NoFallback ⟨FtpSession.first .bare ⟨0, 0, .clear⟩, .zero⟩ rehandshake := by
  intro h
  obtain ⟨next, hnext, hclear⟩ := exists_of_reaches
    ⟨FtpSession.first .bare ⟨0, 0, .clear⟩, .zero⟩ (rehandshake.take 2)
    (fun s => !s.thread.session.controlChannel.secure && s.thread.session.state != .terminated)
    (show reaches step _ _ _ = true by decide +kernel)
  simp only [Bool.and_eq_true, Bool.not_eq_true', bne_iff_ne] at hclear
  rcases run_cons_ok.mp hnext with ⟨mid, hmid, hlast⟩
  have hstate : (FtpSession.first .bare ⟨0, 0, .clear⟩).session.state ≠ .terminated := by decide
  have hpromises : Promises ⟨FtpSession.first .bare ⟨0, 0, .clear⟩, .zero⟩ mid := by
    have hhandle := hmid
    rw [step, if_neg hstate] at hhandle
    exact (handle_spoken hhandle).2.mpr ⟨⟨.auth, [ascii "TLS"]⟩, by decide +kernel, rfl, rfl⟩
  obtain ⟨⟨session, hvia⟩, -⟩ := h [] _ _ _ [] _ mid next rfl rfl hmid hpromises hlast hclear.2
  rw [TcpTransport.secure_of_via hvia rfl] at hclear
  exact absurd hclear.1 (by decide)

end SessionThread

end FtpsServer
