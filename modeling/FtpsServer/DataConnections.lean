import FtpsServer.DescriptorLeak
import FtpsServer.ServerRuns

/-!
# Data connections

What the process does on the data channel of a session is a history of connections: the
constructor opens a socket, PORT and PASV set up a new one, perhaps protected by a
handshake, and it serves one transfer, whose close ends it.  A transfer without a new
connection finds the descriptor 0, or a TLS session that is gone.  A push on a socket that
nobody has connected ends the process (SIGPIPE); the runs here go on.
-/

namespace FtpsServer

open ByteString Cxx Machine
open FtpServer (Leaves viewed viewed_append)

/-! ## 1. Histories -/

/-- What is done on a data channel. -/
inductive DataAct where
  | opened (descriptor : Int)
  | connected (descriptor : Int) (success : Bool)
  | shaken (session : GnutlsSession) (success : Bool)
  | pushed (via : Via) (message : Bytes)
  | pulled (via : Via) (result : Received)
  | closed (descriptor : Int)
deriving DecidableEq, Repr

/-- The session on whose data channel an event is, and what it does there.  A `::socket` that
    fails leaves the descriptor -1. -/
def onData : Event → Option (Nat × DataAct)
  | .socket (.data session) result => some (session, .opened (result.getD (-1)))
  | .move _ (.data session) descriptor => some (session, .opened descriptor)
  | .connect (.data session) descriptor _ _ success => some (session, .connected descriptor success)
  | .handshake (.data session) tls success => some (session, .shaken tls success)
  | .push (.data session) via message _ => some (session, .pushed via message)
  | .pull (.data session) via result => some (session, .pulled via result)
  | .close (.data session) descriptor => some (session, .closed descriptor)
  | _ => none

def dataAct (id : Nat) (e : Event) : Option DataAct :=
  (onData e).bind fun on => if on.1 = id then some on.2 else none

/-- A transfer over `via`: a listing, or an upload with the pull that ends it. -/
inductive Transfer (via : Via) : List DataAct → Prop where
  | listing (message : Bytes) : Transfer via [.pushed via message]
  | upload (blocks : List Bytes) (last : Received) :
      Transfer via (blocks.map (fun block => .pulled via (.bytes block)) ++ [.pulled via last])

/-- The way that bytes would take after the close: none where a TLS session was closed. -/
def afterClose : Via → Option Via
  | .plain _ => some (.plain 0)
  | .tls _ => none

/-- **The histories of a data channel**, with its descriptor and the way that bytes would
    take. -/
inductive DataHistory : Int → Option Via → List DataAct → Prop where
  /-- The socket of the constructor, which nobody connects. -/
  | created (descriptor : Int) : DataHistory descriptor (some (.plain descriptor)) [.opened descriptor]
  /-- PORT. -/
  | called {old : Int} {way : Option Via} {front : List DataAct} (descriptor : Int)
      (success : Bool) : DataHistory old way front →
      DataHistory descriptor (some (.plain descriptor))
        (front ++ [.opened descriptor, .connected descriptor success])
  /-- PASV. -/
  | accepted {old : Int} {way : Option Via} {front : List DataAct} (descriptor : Int) :
      DataHistory old way front →
      DataHistory descriptor (some (.plain descriptor)) (front ++ [.opened descriptor])
  /-- The handshake of PASV, which is made even when nothing was accepted. -/
  | secured {descriptor : Int} {way : Option Via} {front : List DataAct} (handle : Nat)
      (success : Bool) : DataHistory descriptor way front →
      DataHistory descriptor
        (some (if success then .tls ⟨handle, descriptor⟩ else .plain descriptor))
        (front ++ [.shaken ⟨handle, descriptor⟩ success])
  /-- LIST and STOR. -/
  | transferred {descriptor : Int} {via : Via} {front acts : List DataAct} :
      DataHistory descriptor (some via) front → Transfer via acts →
      DataHistory 0 (afterClose via) (front ++ acts ++ [.closed descriptor])

/-- The descriptor that bytes move over, or that is closed. -/
def DataAct.served : DataAct → Option Int
  | .pushed via _ => some via.descriptor
  | .pulled via _ => some via.descriptor
  | .closed descriptor => some descriptor
  | _ => none

theorem Transfer.served {via : Via} {acts : List DataAct} (h : Transfer via acts) {act : DataAct}
    (hact : act ∈ acts) : act.served = some via.descriptor := by
  cases h with
  | listing message =>
    rw [List.mem_singleton.mp hact]
    rfl
  | upload blocks last =>
    rcases List.mem_append.mp hact with hact | hact
    · rcases List.mem_map.mp hact with ⟨block, -, rfl⟩
      rfl
    · rw [List.mem_singleton.mp hact]
      rfl

theorem Transfer.closed_notMem {via : Via} {acts : List DataAct} (h : Transfer via acts)
    (descriptor : Int) : .closed descriptor ∉ acts := by
  cases h <;> simp

/-- An entry that is not in the second list is in the first. -/
theorem exists_split_of_notMem {α : Type} {xs ys front back : List α} {a : α}
    (h : xs ++ ys = front ++ a :: back) (hnot : a ∉ ys) :
    ∃ mid, xs = front ++ a :: mid ∧ back = mid ++ ys := by
  rcases List.append_eq_append_iff.mp h with ⟨rest, -, hys⟩ | ⟨rest, hxs, hback⟩
  · exact absurd (hys ▸ List.mem_append_right rest List.mem_cons_self) hnot
  · cases rest with
    | nil =>
      rw [List.nil_append] at hback
      exact absurd (hback ▸ List.mem_cons_self) hnot
    | cons b mid =>
      obtain ⟨rfl, rfl⟩ := List.cons.inj hback
      exact ⟨mid, hxs, rfl⟩

namespace DataHistory

variable {descriptor first second : Int} {way : Option Via} {front mid back acts : List DataAct}

/-- Behind a close, without a new connection, there is only the descriptor 0. -/
theorem zero_of_closed (h : DataHistory descriptor way acts)
    (hacts : acts = front ++ .closed first :: back) (hnone : ∀ opened, .opened opened ∉ back) :
    descriptor = 0 := by
  induction h generalizing back with
  | created opened =>
    have hmem : DataAct.closed first ∈ [DataAct.opened opened] := by simp [hacts]
    simp at hmem
  | called opened _ _ _ =>
    rcases exists_split_of_notMem hacts (by simp) with ⟨mid, -, rfl⟩
    exact absurd (by simp) (hnone opened)
  | accepted opened _ _ =>
    rcases exists_split_of_notMem hacts (by simp) with ⟨mid, -, rfl⟩
    exact absurd (by simp) (hnone opened)
  | secured _ _ _ ih =>
    rcases exists_split_of_notMem hacts (by simp) with ⟨mid, hfront, rfl⟩
    exact ih hfront fun opened hmem => hnone opened (List.mem_append_left _ hmem)
  | transferred _ _ _ => rfl

theorem way_descriptor {via : Via} (h : DataHistory descriptor (some via) acts) :
    via.descriptor = descriptor := by
  generalize hway : some via = way at h
  cases h with
  | created => cases hway; rfl
  | called => cases hway; rfl
  | accepted => cases hway; rfl
  | secured handle success _ => cases success <;> cases hway <;> rfl
  | @transferred _ old _ _ _ _ =>
    cases old with
    | plain _ => cases hway; rfl
    | tls _ => cases hway

/-- **One transfer for each connection**: behind a close, with no new connection between, bytes
    move over the descriptor 0, and that is what is closed. -/
theorem served_once (h : DataHistory descriptor way acts) {act : DataAct}
    (hacts : acts = front ++ .closed first :: mid ++ act :: back)
    (hserved : act.served = some second) (hnone : ∀ opened, .opened opened ∉ mid) :
    second = 0 := by
  have hopened : ∀ opened, act ≠ .opened opened := by
    rintro opened rfl
    cases hserved
  have hconnected : ∀ opened success, act ≠ .connected opened success := by
    rintro opened success rfl
    cases hserved
  have hshaken : ∀ session success, act ≠ .shaken session success := by
    rintro session success rfl
    cases hserved
  induction h generalizing back with
  | created opened =>
    have hmem : act ∈ [DataAct.opened opened] := by simp [hacts]
    exact absurd (List.mem_singleton.mp hmem) (hopened opened)
  | called _ _ _ ih =>
    rcases exists_split_of_notMem hacts (by simp [hopened, hconnected]) with ⟨rest, hfront, -⟩
    exact ih hfront
  | accepted _ _ ih =>
    rcases exists_split_of_notMem hacts (by simp [hopened]) with ⟨rest, hfront, -⟩
    exact ih hfront
  | secured _ _ _ ih =>
    rcases exists_split_of_notMem hacts (by simp [hshaken]) with ⟨rest, hfront, -⟩
    exact ih hfront
  | @transferred closed via before acts hbefore htransfer ih =>
    -- the act is in front of this transfer, in it, or the close that ends it
    have hzero : ∀ mid', before = front ++ .closed first :: mid' → mid' <+: mid → closed = 0 := by
      intro mid' hbefore' hfront
      exact hbefore.zero_of_closed hbefore' fun opened hmem => hnone opened (hfront.subset hmem)
    rcases List.eq_nil_or_concat back with rfl | ⟨rest, last, rfl⟩
    · obtain ⟨hfront, hlast⟩ := List.append_inj' hacts rfl
      rcases exists_split_of_notMem hfront (htransfer.closed_notMem first) with
        ⟨mid', hbefore', rfl⟩
      cases hlast
      cases hserved
      exact hzero mid' hbefore' (List.prefix_append _ _)
    · rw [List.concat_eq_append, ← List.cons_append, ← List.append_assoc] at hacts
      obtain ⟨hfront, -⟩ := List.append_inj' hacts rfl
      have hwithin : ∀ rest', acts = rest' ++ act :: rest →
          front ++ .closed first :: mid = before ++ rest' → second = 0 := by
        intro rest' hrest hmid
        have hnot : .closed first ∉ rest' := by
          intro hmem
          exact htransfer.closed_notMem first (hrest ▸ List.mem_append_left _ hmem)
        rcases exists_split_of_notMem hmid.symm hnot with ⟨mid', hbefore', rfl⟩
        have hmem : act ∈ acts := by simp [hrest]
        have hdescriptor := htransfer.served hmem
        rw [hserved, hbefore.way_descriptor] at hdescriptor
        rw [Option.some.inj hdescriptor]
        exact hzero mid' hbefore' (List.prefix_append _ _)
      rcases List.append_eq_append_iff.mp hfront with ⟨rest', hmid, hrest⟩ | ⟨rest', hbefore', hrest⟩
      · exact hwithin rest' hrest hmid
      · cases rest' with
        | nil => exact hwithin [] (by simpa using hrest.symm) (by simpa using hbefore'.symm)
        | cons a rest' =>
          obtain ⟨rfl, -⟩ := List.cons.inj hrest
          exact ih hbefore'

end DataHistory

/-! ## 2. The log -/

/-- The way that bytes would take over a transport, if there is one. -/
def TcpTransport.route (t : TcpTransport) : Option Via := t.via.toOption

section Log

variable {id : Nat} {p q : Process}

theorem leaves_of_onData {e : Event} {act : DataAct} (he : onData e = some (id, act))
    (h : q.trace = p.trace ++ [e]) : Leaves dataAct id p q [act] := by
  constructor
  · rw [h, viewed_append]
    simp [viewed, dataAct, he]
  · intro j hne
    rw [h, viewed_append]
    simp [viewed, dataAct, he, Ne.symm hne]

/-- What is done elsewhere. -/
theorem leaves_of_elsewhere {events : List Event} (h : q.trace = p.trace ++ events)
    (he : ∀ e ∈ events, onData e = none) : Leaves dataAct id p q [] :=
  Leaves.unseen h fun j e hmem => by rw [dataAct, he e hmem, Option.bind_none]

theorem leaves_of_trace (h : q.trace = p.trace) : Leaves dataAct id p q [] :=
  Leaves.unseen (h.trans (List.append_nil _).symm) fun _ _ hmem => nomatch hmem

/-- An event elsewhere. -/
theorem leaves_aside {e : Event} (he : onData e = none) (h : q.trace = p.trace ++ [e]) :
    Leaves dataAct id p q [] := leaves_of_elsewhere h (by simpa using he)

theorem Offstage.leaves (h : Offstage p q) : Leaves dataAct id p q [] := by
  rcases h with ⟨n, calls, rfl⟩
  refine leaves_of_elsewhere rfl ?_
  intro e he
  rcases List.mem_map.mp he with ⟨call, -, rfl⟩
  rfl

end Log

namespace TcpTransport

variable {id : Nat} {env : Environment} {t : TcpTransport} {p : Process}

theorem route_closed {via : Via} (h : t.via = .ok via) : t.closed.route = afterClose via := by
  unfold TcpTransport.via at h
  unfold route TcpTransport.via closed
  cases hsecure : t.secure with
  | false =>
    rw [hsecure] at h
    cases h
    rfl
  | true =>
    rw [hsecure] at h
    cases hsession : t.session.session with
    | none => simp [hsession] at h
    | some session =>
      simp only [hsession, if_true] at h
      cases h
      rfl

theorem ofSocket_leaves (id : Nat) (env : Environment) (descriptor : Int) (p : Process) :
    Leaves dataAct id p (ofSocket env .temporary descriptor p).2 [] ∧
      (ofSocket env .temporary descriptor p).1.socket = descriptor := by
  unfold ofSocket
  cases env.getsockname <;> exact ⟨leaves_aside rfl rfl, rfl⟩

/-- A new transport that is no data channel. -/
theorem new_leaves (id : Nat) (opens : Bool) (object : Object)
    (hobject : ∀ result, onData (.socket object result) = none) (p : Process) :
    Leaves dataAct id p (new opens object p).2 [] := by
  cases opens with
  | false => exact leaves_aside (hobject none) rfl
  | true => exact leaves_aside (hobject (some p.descriptors.lowestFree)) rfl

/-- The data channel that the constructor of a session makes. -/
theorem new_data_leaves (id : Nat) (opens : Bool) (p : Process) :
    Leaves dataAct id p (new opens (.data id) p).2 [.opened (p.socket opens)] := by
  cases opens with
  | false =>
    have hfailed : onData (.socket (.data id) none) = some (id, .opened (-1)) := rfl
    exact leaves_of_onData hfailed rfl
  | true =>
    have hopened : onData (.socket (.data id) (some p.descriptors.lowestFree)) =
        some (id, .opened p.descriptors.lowestFree) := rfl
    exact leaves_of_onData hopened rfl

/-- A new transport, moved to the data channel. -/
theorem renew_leaves (id : Nat) (opens : Bool) (p : Process) :
    Leaves dataAct id p ((new opens .temporary p).2.emit
      (.move .temporary (.data id) (new opens .temporary p).1.socket))
      [.opened (new opens .temporary p).1.socket] :=
  (new_leaves id opens .temporary (fun _ => rfl) p).trans (leaves_of_onData rfl rfl)

theorem connect_leaves (id : Nat) (env : Environment) (t : TcpTransport) (address : Bytes) (port : Int)
    (p : Process) :
    Leaves dataAct id p (t.connect env (.data id) address port p).2.2 [.connected t.socket env.connect] ∧
      (t.connect env (.data id) address port p).2.1.socket = t.socket ∧
      (t.connect env (.data id) address port p).2.1.route = t.route := by
  unfold connect
  dsimp only
  split
  · next hconnect => exact ⟨leaves_of_onData rfl rfl, rfl, rfl⟩
  · next hconnect => exact ⟨leaves_of_onData rfl rfl, rfl, rfl⟩

/-- The close of a transport that is no data channel. -/
theorem close_leaves (object : Object)
    (hobject : ∀ descriptor, onData (.close object descriptor) = none) :
    Leaves dataAct id p (t.close object p).2 [] := by
  have hclosed : ∀ q, Leaves dataAct id q ((q.close t.socket).emit (.close object t.socket)) [] :=
    fun q => leaves_aside (hobject _) rfl
  unfold close
  cases t.secure with
  | false => exact hclosed p
  | true => exact (t.session.close_offstage p).leaves.trans (hclosed _)

theorem dataClose_leaves : Leaves dataAct id p (t.close (.data id) p).2 [.closed t.socket] := by
  have hclosed : ∀ q, Leaves dataAct id q ((q.close t.socket).emit (.close (.data id) t.socket))
      [.closed t.socket] := fun q => leaves_of_onData rfl rfl
  unfold close
  cases t.secure with
  | false => exact hclosed p
  | true => exact (t.session.close_offstage p).leaves.trans (hclosed _)

/-- **`set_tls`**: without the key file nothing changes, and else the handshake decides what
    way bytes take, over the descriptor that the transport has. -/
theorem setTls_route (env : Environment) (object : Object) (t : TcpTransport) (p : Process) :
    ∃ result t' p', t.setTls env object p = .ok (result, t', p') ∧ t'.socket = t.socket ∧
      ((t'.route = t.route ∧ Offstage p p') ∨
        ∃ handle mid, Offstage p mid ∧
          Offstage (mid.emit (.handshake object ⟨handle, t.socket⟩ env.handshake)) p' ∧
          t'.route = some (if env.handshake then .tls ⟨handle, t.socket⟩ else .plain t.socket)) := by
  have hcreated := TlsSession.createTlsSession_offstage env t.socket t.session p
  rcases TlsSession.createTlsSession_session env t.socket t.session p with ⟨hresult, hsession⟩
  unfold setTls TlsSession.bind
  cases hkey : env.keyFile with
  | false =>
    have hfail : (t.session.createTlsSession env t.socket p).1 ≠ OPERATION_SUCCESS := by
      rw [Ne, hresult, hkey]
      decide
    dsimp only
    rw [if_pos hfail]
    rw [hkey, if_neg (by decide)] at hsession
    refine ⟨_, _, _, rfl, rfl, Or.inl ⟨?_, hcreated⟩⟩
    unfold route TcpTransport.via
    rw [hsession]
  | true =>
    have hsucc : ¬ (t.session.createTlsSession env t.socket p).1 ≠ OPERATION_SUCCESS := by
      rw [Ne, not_not, hresult, hkey]
    dsimp only
    rw [if_neg hsucc]
    rw [hkey, if_pos rfl] at hsession
    unfold TlsSession.handshake
    rw [hsession]
    cases hhand : env.handshake with
    | true =>
      refine ⟨_, _, _, rfl, rfl, Or.inr ⟨_, _, hcreated.call _, Offstage.refl _, ?_⟩⟩
      simp [route, TcpTransport.via, hsession, Except.toOption]
    | false =>
      refine ⟨_, _, _, rfl, rfl, Or.inr ⟨_, _, hcreated.call _, (Offstage.refl _).call _, ?_⟩⟩
      rfl

end TcpTransport

namespace TcpListener

variable (id : Nat)

theorem moveAssign_leaves (object : Object) (hne : object ≠ .temporary)
    (hobject : ∀ descriptor, onData (.move .temporary object descriptor) = none)
    (this other : TcpListener) (p : Process) :
    Leaves dataAct id p (moveAssign object .temporary this other p).2 [] := by
  unfold moveAssign
  simp only [TcpTransport.moveAssign_of_ne hne]
  exact leaves_aside (hobject _) rfl

theorem bind_leaves (env : Environment) (object : Object) (attempt : Nat) (listener : TcpListener)
    (p : Process) : Leaves dataAct id p (listener.bind env object attempt p).2 [] := by
  unfold bind
  dsimp only
  split
  · exact leaves_aside rfl rfl
  · exact leaves_aside rfl rfl

/-- **`accept`** moves a new connection to its target, or does nothing to it. -/
theorem accept_process (env : Environment) (object target : Object) (htarget : target ≠ .temporary)
    (listener : TcpListener) (transport : TcpTransport) (p : Process) :
    ∃ q, Leaves dataAct id p q [] ∧ (listener.accept env object target transport p).2.2 =
      if env.accept then q.emit (.move .temporary target p.descriptors.lowestFree) else q := by
  unfold accept
  cases env.accept with
  | false => exact ⟨_, leaves_aside rfl rfl, rfl⟩
  | true =>
    have haccepted : Leaves dataAct id p (p.open'.emit (.accept object listener.transport.socket
        (some p.descriptors.lowestFree))) [] := leaves_aside rfl rfl
    rcases TcpTransport.ofSocket_leaves id env p.descriptors.lowestFree (p.open'.emit
      (.accept object listener.transport.socket (some p.descriptors.lowestFree))) with
      ⟨hadopted, hsocket⟩
    simp only [if_true, TcpTransport.moveAssign_of_ne htarget, hsocket]
    exact ⟨_, haccepted.trans hadopted, rfl⟩

/-- **`accept`** for PASV sets up a new connection, or leaves the data channel as it is. -/
theorem accept_leaves (env : Environment) (listener : TcpListener) (transport : TcpTransport)
    (p : Process) :
    let accepted := listener.accept env (.passive id) (.data id) transport p
    let descriptor := p.descriptors.lowestFree
    (Leaves dataAct id p accepted.2.2 [.opened descriptor] ∧
      accepted.2.1.socket = descriptor ∧ accepted.2.1.route = some (.plain descriptor)) ∨
    (Leaves dataAct id p accepted.2.2 [] ∧ accepted.2.1 = transport) := by
  dsimp only
  have htransport := accept_transport env (.passive id) (.data id) (by simp) listener transport p
  rcases accept_process id env (.passive id) (.data id) (by simp) listener transport p with
    ⟨q, hleaves, hprocess⟩
  rw [htransport, hprocess]
  cases env.accept with
  | false => exact Or.inr ⟨hleaves, rfl⟩
  | true => exact Or.inl ⟨hleaves.trans (leaves_of_onData rfl rfl), rfl, rfl⟩

/-- `accept` for the control channel of a session. -/
theorem accept_connection (env : Environment) (listener : TcpListener) (transport : TcpTransport)
    (p : Process) :
    Leaves dataAct id p (listener.accept env .listener .connection transport p).2.2 [] := by
  rcases accept_process id env .listener .connection (by simp) listener transport p with
    ⟨q, hleaves, hprocess⟩
  rw [hprocess]
  cases env.accept with
  | false => exact hleaves
  | true => exact hleaves.trans (leaves_aside rfl rfl)

end TcpListener

/-! ## 3. Handlers -/

/-- A thread of session `id`, since the process was `p` and the history of its data channel
    was `front`: `acts` have been done over `channel` after all that belongs to a history. -/
structure Standing (id : Nat) (front : List DataAct) (p : Process) (channel : TcpTransport)
    (acts : List DataAct) (th : Thread) : Prop where
  ofSession : th.session.id = id
  holds : th.session.dataChannel = channel
  history : ∃ more, Leaves dataAct id p th.process (more ++ acts) ∧
    DataHistory channel.socket channel.route (front ++ more)

namespace Standing

variable {id : Nat} {front acts : List DataAct} {p : Process} {channel : TcpTransport}
  {th th' : Thread} {env : Environment} {message : Bytes}

theorem adds (h : Standing id front p channel acts th) (hid : th'.session.id = th.session.id)
    (hchannel : th'.session.dataChannel = th.session.dataChannel) {more : List DataAct}
    (hleaves : Leaves dataAct id th.process th'.process more) :
    Standing id front p channel (acts ++ more) th' := by
  rcases h.history with ⟨before, hbefore, hhistory⟩
  refine ⟨hid.trans h.ofSession, hchannel.trans h.holds, before, ?_, hhistory⟩
  rw [← List.append_assoc]
  exact hbefore.trans hleaves

/-- What does not concern the data channel. -/
theorem aside (h : Standing id front p channel acts th) (hid : th'.session.id = th.session.id)
    (hchannel : th'.session.dataChannel = th.session.dataChannel)
    (hleaves : Leaves dataAct id th.process th'.process []) :
    Standing id front p channel acts th' := by
  have hadds := h.adds hid hchannel hleaves
  rwa [List.append_nil] at hadds

/-- What begins a transfer. -/
theorem begins (h : Standing id front p channel [] th) (hid : th'.session.id = th.session.id)
    (hchannel : th'.session.dataChannel = th.session.dataChannel)
    (hleaves : Leaves dataAct id th.process th'.process acts) :
    Standing id front p channel acts th' := h.adds hid hchannel hleaves

theorem reply (h : Standing id front p channel acts th) :
    Ensures (th.reply env message) (Standing id front p channel acts) := by
  intro th' hreply
  rcases reply_ok.mp hreply with ⟨via, -, rfl⟩
  exact h.aside rfl rfl (leaves_aside rfl rfl)

theorem replyWhen (h : Standing id front p channel acts th) (condition : Bool) :
    Ensures (th.replyWhen env condition message) (Standing id front p channel acts) :=
  ensures_ite h.reply (ensures_ok h)

theorem setFileTree (h : Standing id front p channel acts th) (t : Posix.FileTree) :
    Standing id front p channel acts (th.setFileTree t) :=
  h.aside rfl rfl (leaves_of_trace rfl)

theorem notify (h : Standing id front p channel acts th) (event : FtpObserveEventT) (info : Bytes) :
    Standing id front p channel acts (th.notify event info) := by
  refine h.aside rfl rfl (leaves_of_elsewhere rfl ?_)
  intro e he
  rcases List.mem_map.mp he with ⟨observer, -, rfl⟩
  rfl

theorem dataPush (h : Standing id front p channel [] th) :
    Ensures (th.dataPush env message) fun th' => ∃ via acts, channel.via = .ok via ∧
      Transfer via acts ∧ Standing id front p channel acts th' := by
  intro th' hpush
  rcases dataPush_ok.mp hpush with ⟨via, hvia, rfl⟩
  rw [h.holds] at hvia
  have hpushed :
      onData (dataPushEvent env th.session.id via message) = some (id, .pushed via message) := by
    rw [← h.ofSession]
    rfl
  exact ⟨via, _, hvia, .listing message, h.begins rfl rfl (leaves_of_onData hpushed rfl)⟩

/-- The history goes on, perhaps over another channel. -/
theorem goesOn (h : Standing id front p channel [] th) {session : FtpSession} {q : Process}
    {next : TcpTransport} {more : List DataAct} (hid : session.id = th.session.id)
    (hnext : session.dataChannel = next) (hleaves : Leaves dataAct id th.process q more)
    (hhistory : ∀ before, DataHistory channel.socket channel.route before →
      DataHistory next.socket next.route (before ++ more)) :
    Standing id front p next [] ⟨session, q⟩ := by
  rcases h.history with ⟨before, hbefore, hstands⟩
  rw [List.append_nil] at hbefore
  refine ⟨hid.trans h.ofSession, hnext, before ++ more, ?_, ?_⟩
  · rw [List.append_nil]
    exact hbefore.trans hleaves
  · rw [← List.append_assoc]
    exact hhistory _ hstands

/-- **A transfer ends** with the close of its connection. -/
theorem dataClose {via : Via} (h : Standing id front p channel acts th) (hvia : channel.via = .ok via)
    (htransfer : Transfer via acts) : Standing id front p channel.closed [] th.dataClose := by
  rcases h.history with ⟨before, hbefore, hhistory⟩
  have hclosed := TcpTransport.close_fst (.data th.session.id) th.session.dataChannel th.process
  have hleaves : Leaves dataAct id th.process th.dataClose.process [.closed channel.socket] := by
    rw [← h.holds, ← h.ofSession]
    exact TcpTransport.dataClose_leaves
  refine ⟨h.ofSession, hclosed.trans (by rw [h.holds]),
    before ++ acts ++ [.closed channel.socket], ?_, ?_⟩
  · rw [List.append_nil]
    exact hbefore.trans hleaves
  · have hway : channel.route = some via := by rw [TcpTransport.route, hvia]; rfl
    rw [hway] at hhistory
    have hdone := hhistory.transferred htransfer
    rw [← TcpTransport.route_closed hvia] at hdone
    change DataHistory 0 channel.closed.route _
    simpa only [List.append_assoc] using hdone

end Standing

namespace FtpSession

variable {id : Nat} {front acts : List DataAct} {p : Process} {channel : TcpTransport}
  {th : Thread} {env : Environment} {input : FtpCommand}

/-- The thread is between two commands. -/
def Between (id : Nat) (front : List DataAct) (p : Process) (th : Thread) : Prop :=
  ∃ channel, Standing id front p channel [] th

theorem between_reply {message : Bytes} (h : Standing id front p channel [] th) :
    Ensures (th.reply env message) (Between id front p) :=
  fun th' hreply => ⟨channel, h.reply th' hreply⟩

/-- A handler that changes members other than the data channel, and replies. -/
theorem between_sessionReply {message : Bytes} (h : Standing id front p channel [] th)
    {session : FtpSession} (hid : session.id = th.session.id)
    (hchannel : session.dataChannel = th.session.dataChannel) :
    Ensures (Thread.reply env message ⟨session, th.process⟩) (Between id front p) := by
  have hset : Standing id front p channel [] ⟨session, th.process⟩ := h.aside hid hchannel (.refl _)
  exact between_reply hset

theorem commandList_between (h : Standing id front p channel [] th) :
    Ensures (commandList env input th) (Between id front p) := by
  refine ensures_bind h.reply fun _ h => ensures_bind h.dataPush ?_
  rintro _ ⟨via, acts, hvia, htransfer, h⟩
  exact ensures_bind h.reply fun _ h => ensures_ok ⟨_, h.dataClose hvia htransfer⟩

/-- The pulls of an upload: blocks, and the one that ends it. -/
theorem pulled_ends (env : Environment) (bufferFileSize : Int) :
    ∃ (blocks : List Bytes) (last : Received),
      pulled env bufferFileSize = blocks.map Received.bytes ++ [last] := by
  have hallocated : ∀ (chunks : List Chunk) (size : Int),
      ∃ (blocks : List Bytes) (last : Received),
        pulledAllocated env chunks size = blocks.map Received.bytes ++ [last] := by
    intro chunks
    induction chunks with
    | nil => exact fun size => ⟨[], endOfData env, rfl⟩
    | cons chunk chunks ih =>
      intro size
      unfold pulledAllocated
      split
      · rcases ih (size - chunk.bytes.length) with ⟨blocks, last, hrest⟩
        exact ⟨chunk.bytes :: blocks, last, by rw [hrest]; rfl⟩
      · exact ⟨[], .bytes chunk.bytes, rfl⟩
  unfold pulled
  split
  · exact hallocated _ _
  · exact ⟨env.data.map Chunk.bytes, endOfData env, by rw [List.map_map]; rfl⟩

theorem receiveFile_standing (h : Standing id front p channel [] th) (file : Option Posix.Location) :
    Ensures (receiveFile env file th) fun th' => ∃ via acts, channel.via = .ok via ∧
      Transfer via acts ∧ Standing id front p channel acts th' := by
  cases hvia : th.session.dataChannel.via with
  | error e =>
    rw [receiveFile_error hvia]
    exact ensures_error e
  | ok via =>
    rw [receiveFile_eq hvia]
    obtain rfl := h.ofSession
    rcases pulled_ends env th.session.bufferFileSize with ⟨blocks, last, hpulled⟩
    have hupload : Transfer via ((pulled env th.session.bufferFileSize).map (.pulled via)) := by
      rw [hpulled, List.map_append, List.map_map]
      exact .upload blocks last
    have hacts : ∀ (results : List Received) (q : Process) (t : Posix.FileTree),
        Leaves dataAct th.session.id q (received q t (results.map (pullEvent th.session.id via)))
          (results.map (.pulled via)) := by
      intro results q t
      induction results generalizing q with
      | nil => exact leaves_of_trace (List.append_nil _)
      | cons result results ih =>
        have hone : Leaves dataAct th.session.id q (q.emit (pullEvent th.session.id via result))
            [.pulled via result] := leaves_of_onData rfl rfl
        have hrest := hone.trans (ih (q.emit (pullEvent th.session.id via result)))
        simpa [received, Process.emit] using hrest
    rw [h.holds] at hvia
    exact ensures_ok ⟨via, _, hvia, hupload, h.begins rfl rfl (hacts _ _ _)⟩

theorem commandStor_between (h : Standing id front p channel [] th) :
    Ensures (commandStor env input th) (Between id front p) := by
  refine ensures_raising fun fileName => ?_
  have hopened : Standing id front p channel []
      (openTransfer (th.session.folder ++ fileName) th).2 := by
    unfold openTransfer
    split
    · exact h.setFileTree _
    · exact h
  dsimp only
  refine ensures_bind hopened.reply fun _ h => ensures_bind (receiveFile_standing h _) ?_
  rintro _ ⟨via, acts, hvia, htransfer, h⟩
  exact ensures_bind (h.dataClose hvia htransfer).reply fun _ h => ensures_ok ⟨_, h.notify _ _⟩

theorem commandPort_between (h : Standing id front p channel [] th) :
    Ensures (commandPort env input th) (Between id front p) := by
  refine ensures_raising fun address => ensures_raising fun port => ?_
  dsimp only
  rw [TcpTransport.moveAssign_of_ne (by simp)]
  obtain rfl := h.ofSession
  have hopened := TcpTransport.renew_leaves th.session.id (env.socket 0) th.process
  have hnew : (TcpTransport.new (env.socket 0) .temporary th.process).1.route =
      some (.plain (TcpTransport.new (env.socket 0) .temporary th.process).1.socket) := rfl
  generalize TcpTransport.new (env.socket 0) .temporary th.process = opened at hopened hnew ⊢
  rcases TcpTransport.connect_leaves th.session.id env opened.1 address port
    (opened.2.emit (.move .temporary (.data th.session.id) opened.1.socket)) with
    ⟨hconnected, hsocket, hway⟩
  generalize opened.1.connect env (.data th.session.id) address port
    (opened.2.emit (.move .temporary (.data th.session.id) opened.1.socket)) = connection
    at hconnected hsocket hway ⊢
  have hcalled : Standing th.session.id front p connection.2.1 []
      ⟨{ th.session with dataChannel := connection.2.1 }, connection.2.2⟩ := by
    refine h.goesOn rfl rfl (hopened.trans hconnected) fun before hbefore => ?_
    rw [hsocket, hway, hnew]
    exact hbefore.called _ _
  exact ensures_ite (between_reply hcalled)
    (ensures_bind hcalled.reply fun _ h => between_reply h)

theorem commandAuth_between (h : Standing id front p channel [] th) :
    Ensures (commandAuth env input th) (Between id front p) := by
  refine ensures_raising fun service => ensures_ite (between_reply h) ?_
  refine ensures_bind h.reply fun th₁ h₁ => ?_
  rcases TcpTransport.setTls_route env (.control th₁.session.id) th₁.session.controlChannel
    th₁.process with ⟨result, t', p', heq, -, hway⟩
  rw [heq]
  refine ensures_ok ⟨channel, h₁.aside rfl rfl ?_⟩
  rcases hway with ⟨-, hoffstage⟩ | ⟨handle, mid, hfirst, hlast, -⟩
  · exact hoffstage.leaves
  · have hshake : Leaves dataAct id mid (mid.emit (.handshake (.control th₁.session.id)
        ⟨handle, th₁.session.controlChannel.socket⟩ env.handshake)) [] := leaves_aside rfl rfl
    exact (hfirst.leaves.trans hshake).trans hlast.leaves

theorem secureData_between (h : Standing id front p channel [] th) :
    Ensures (secureData env th) (Between id front p) := by
  obtain rfl := h.ofSession
  obtain rfl := h.holds
  refine ensures_ite ?_ (ensures_ok ⟨_, h⟩)
  rcases TcpTransport.setTls_route env (.data th.session.id) th.session.dataChannel th.process with
    ⟨result, t', p', heq, hsocket, hway⟩
  rw [heq]
  rcases hway with ⟨hsame, hoffstage⟩ | ⟨handle, mid, hfirst, hlast, hway⟩
  · refine ensures_ok ⟨_, h.goesOn rfl rfl hoffstage.leaves fun before hbefore => ?_⟩
    rw [hsocket, hsame, List.append_nil]
    exact hbefore
  · have hshake : Leaves dataAct th.session.id mid (mid.emit (.handshake (.data th.session.id)
        ⟨handle, th.session.dataChannel.socket⟩ env.handshake))
          [.shaken ⟨handle, th.session.dataChannel.socket⟩ env.handshake] := leaves_of_onData rfl rfl
    have hall := (hfirst.leaves.trans hshake).trans hlast.leaves
    refine ensures_ok ⟨_, h.goesOn rfl rfl hall fun before hbefore => ?_⟩
    rw [hsocket, hway]
    exact hbefore.secured _ _

/-- The attempts of PASV are made on other objects. -/
theorem allocateListener_leaves (env : Environment) (id j : Nat) (address : Bytes)
    (attempts attempt : Nat) (listener : TcpListener) (port : Int) (p : Process) :
    Leaves dataAct id p (allocateListener env j address attempts attempt listener port p).2.2.2 [] := by
  induction attempts generalizing attempt listener port p with
  | zero => exact .refl p
  | succ attempts ih =>
    have hopened : Leaves dataAct id p
        (TcpListener.ofAddress (env.socket (attempt + 1)) .temporary address port 1 p).2 [] :=
      TcpTransport.new_leaves id _ _ (fun _ => rfl) p
    have hmoved := hopened.trans (TcpListener.moveAssign_leaves id (.passive j) (by simp)
      (fun _ => rfl) listener
      (TcpListener.ofAddress (env.socket (attempt + 1)) .temporary address port 1 p).1
      (TcpListener.ofAddress (env.socket (attempt + 1)) .temporary address port 1 p).2)
    unfold allocateListener
    dsimp only
    generalize TcpListener.moveAssign (.passive j) .temporary listener
      (TcpListener.ofAddress (env.socket (attempt + 1)) .temporary address port 1 p).1
      (TcpListener.ofAddress (env.socket (attempt + 1)) .temporary address port 1 p).2 = moved
      at hmoved ⊢
    have hbound := hmoved.trans (TcpListener.bind_leaves id env (.passive j) attempt moved.1 moved.2)
    split
    · have hnext : ∀ q, Leaves dataAct id q (nextPort q).2 [] := fun q => leaves_of_trace rfl
      exact (hbound.trans (hnext _)).trans (ih _ _ _ _)
    · exact hbound

theorem acceptData_between (h : Standing id front p channel [] th) (listener : TcpListener) :
    Ensures (acceptData env listener th) (Between id front p) := by
  obtain rfl := h.ofSession
  have hcase := TcpListener.accept_leaves th.session.id env listener th.session.dataChannel th.process
  unfold acceptData
  dsimp only
  generalize listener.accept env (.passive th.session.id) (.data th.session.id)
    th.session.dataChannel th.process = accepted at hcase ⊢
  have haccepted : Standing th.session.id front p accepted.2.1 []
      ⟨{ th.session with dataChannel := accepted.2.1 }, accepted.2.2⟩ := by
    rcases hcase with ⟨hleaves, hsocket, hway⟩ | ⟨hleaves, hsame⟩
    · refine h.goesOn rfl rfl hleaves fun before hbefore => ?_
      rw [hsocket, hway]
      exact hbefore.accepted _
    · refine h.goesOn rfl rfl hleaves fun before hbefore => ?_
      rw [hsame, h.holds, List.append_nil]
      exact hbefore
  refine ensures_bind (secureData_between haccepted) ?_
  rintro th₁ ⟨last, hlast⟩
  refine ensures_ok ⟨last, hlast.aside rfl rfl ?_⟩
  exact (TcpTransport.close_leaves _ fun _ => rfl).trans (TlsSession.freeTlsSession_offstage _ _).leaves

theorem commandPasv_between (h : Standing id front p channel [] th) :
    Ensures (commandPasv env input th) (Between id front p) := by
  let opened := TcpListener.new (env.socket 0) (.passive th.session.id) (nextPort th.process).2
  have hopened : Leaves dataAct id th.process opened.2 [] := by
    have hnext : Leaves dataAct id th.process (nextPort th.process).2 [] := leaves_of_trace rfl
    exact hnext.trans (TcpTransport.new_leaves id _ _ (fun _ => rfl) _)
  have hallocated : Leaves dataAct id th.process (listening env th).2.2.2 [] :=
    hopened.trans (allocateListener_leaves env id th.session.id _ 20 0 opened.1 _ opened.2)
  rw [commandPasv_eq]
  generalize listening env th = allocated at hallocated ⊢
  rcases allocated with ⟨allocationFlag, listener, port, q⟩
  have hstands : Standing id front p channel [] ⟨th.session, q⟩ := h.aside rfl rfl hallocated
  refine ensures_ite ?_ ?_
  · refine ensures_bind hstands.reply fun _ h => ensures_ok ⟨_, h.aside rfl rfl ?_⟩
    exact (listener.transport.session.freeTlsSession_offstage _).leaves
  · exact ensures_bind hstands.reply fun _ h => acceptData_between h listener

/-- **A command** keeps the history of the data channel. -/
theorem processCommand_between (h : Standing id front p channel [] th) :
    Ensures (processCommand env input th) (Between id front p) := by
  unfold processCommand
  cases input.command <;> dsimp only
  case user =>
    refine ensures_raising fun login => ensures_bind (h.replyWhen _) fun th₁ h₁ => ?_
    exact between_sessionReply h₁ rfl rfl
  case pass =>
    refine ensures_raising fun password => ensures_bind (h.replyWhen _) fun th₁ h₁ => ?_
    refine ensures_ite ?_ (between_sessionReply h₁ rfl rfl)
    refine ensures_bind (between_sessionReply h₁ rfl rfl) ?_
    rintro th₂ ⟨last, h₂⟩
    exact ensures_ok ⟨last, h₂.aside rfl rfl (.refl _)⟩
  case port => exact commandPort_between h
  case list => exact commandList_between h
  case cwd =>
    refine ensures_raising fun folder => ensures_raising fun path => ?_
    exact ensures_ite (between_reply h) (between_sessionReply h rfl rfl)
  case stor => exact commandStor_between h
  case type =>
    refine ensures_raising fun type => ensures_ite (between_sessionReply h rfl rfl) ?_
    exact ensures_ite (between_sessionReply h rfl rfl) (between_reply h)
  case auth => exact commandAuth_between h
  case pbsz => exact ensures_raising fun size => between_sessionReply h rfl rfl
  case prot => exact ensures_raising fun level => between_sessionReply h rfl rfl
  case pasv => exact commandPasv_between h
  case allo => exact ensures_raising fun size => between_sessionReply h rfl rfl
  case dele =>
    refine ensures_raising fun path => ?_
    exact ensures_ite (between_reply (h.setFileTree _)) (between_reply (h.setFileTree _))
  case rnfr =>
    refine ensures_raising fun path => ensures_bind h.reply fun th₁ h₁ => ?_
    exact ensures_ok ⟨channel, h₁.aside rfl rfl (.refl _)⟩
  case rnto =>
    refine ensures_raising fun path => ensures_ite (between_reply h) ?_
    exact ensures_ite (between_reply (h.setFileTree _)) (between_reply (h.setFileTree _))
  case quit => exact ensures_ok ⟨channel, h.aside rfl rfl (.refl _)⟩
  all_goals exact between_reply h

end FtpSession

/-! ## 4. Runs -/

theorem SessionThread.finish_between {s : SessionThread} {id : Nat} {front : List DataAct} {p : Process}
    {channel : TcpTransport} (h : Standing id front p channel [] s.thread) (ending : Received) :
    Ensures (s.finish ending) fun s' => FtpSession.Between id front p s'.thread := by
  have hpulled : Ensures (s.thread.controlPull ending) (Standing id front p channel []) := by
    intro th hpull
    rcases controlPull_ok.mp hpull with ⟨via, -, rfl⟩
    exact h.aside rfl rfl (leaves_aside rfl rfl)
  refine ensures_bind (ensures_ite (ensures_ok h) hpulled) fun th hth => ensures_ok ⟨channel, ?_⟩
  exact hth.aside rfl rfl (TcpTransport.close_leaves _ fun _ => rfl)

namespace FtpServer

/-- The data channel of the session is where `acts` have brought it. -/
def Connected (client : ClientSession) (acts : List DataAct) : Prop :=
  DataHistory client.session.dataChannel.socket client.session.dataChannel.route acts

/-- **A step of a session** goes on with the history of its data channel. -/
theorem acted_connected {a : ClientStep} {client client' : ClientSession} {p p' : Process}
    {front : List DataAct} (h : Acted a client p client' p') (hfront : Connected client front) :
    client'.session.id = client.session.id ∧
      ∃ more, Leaves dataAct client.session.id p p' more ∧ Connected client' (front ++ more) := by
  have hstart : Standing client.session.id front p client.session.dataChannel []
      ⟨client.session, p⟩ :=
    ⟨rfl, rfl, [], by simpa using Leaves.refl p, by rw [List.append_nil]; exact hfront⟩
  have hdone : ∀ {th : Thread}, FtpSession.Between client.session.id front p th →
      th.session.id = client.session.id ∧ ∃ more, Leaves dataAct client.session.id p th.process more ∧
        DataHistory th.session.dataChannel.socket th.session.dataChannel.route (front ++ more) := by
    rintro th ⟨channel, hstands⟩
    rcases hstands.history with ⟨more, hleaves, hhistory⟩
    rw [List.append_nil] at hleaves
    rw [hstands.holds]
    exact ⟨hstands.ofSession, more, hleaves, hhistory⟩
  cases h with
  | stays => exact ⟨rfl, [], .refl p, by rw [List.append_nil]; exact hfront⟩
  | greets _ hgreet => exact hdone (FtpSession.between_reply hstart _ hgreet)
  | @handles turn _ _ _ _ _ hhandle =>
    rcases SessionThread.handle_ok hhandle with ⟨via, input, th₁, -, -, rfl, hcall, -⟩
    have hpulled : Standing client.session.id front p client.session.dataChannel [] ⟨client.session,
        p.emit (.pull (.control client.session.id) via (.bytes turn.message.bytes))⟩ :=
      hstart.aside rfl rfl (leaves_aside rfl rfl)
    exact hdone (FtpSession.processCommand_between hpulled _ hcall)
  | ends _ hfinish => exact hdone (SessionThread.finish_between hstart _ _ hfinish)

/-- A new session opens a socket for its data channel. -/
theorem acceptRound_connected (env : Environment) (garbage : Uninitialised) (buffer : MessageBuffer)
    (s : FtpServer) : ∃ client more, client.session.id = s.clientSessions.length ∧
      (s.acceptRound env garbage buffer).clientSessions = s.clientSessions ++ [client] ∧
      Leaves dataAct s.clientSessions.length s.process (s.acceptRound env garbage buffer).process more ∧
      Connected client more := by
  have hnew : Leaves dataAct s.clientSessions.length s.process
      (TcpTransport.new (env.socket 0) .connection s.process).2 [] :=
    TcpTransport.new_leaves _ _ _ (fun _ => rfl) s.process
  have haccepted := hnew.trans (TcpListener.accept_connection s.clientSessions.length env
    s.controlChannel (TcpTransport.new (env.socket 0) .connection s.process).1 _)
  unfold acceptRound
  dsimp only
  generalize s.controlChannel.accept env .listener .connection
    (TcpTransport.new (env.socket 0) .connection s.process).1
    (TcpTransport.new (env.socket 0) .connection s.process).2 = accepted
    at haccepted ⊢
  have hmoved : Leaves dataAct s.clientSessions.length accepted.2.2
      (accepted.2.2.emit (.move .connection (.control s.clientSessions.length) accepted.2.1.socket)) [] :=
    leaves_aside rfl rfl
  refine ⟨_, _, rfl, rfl, (haccepted.trans hmoved).trans
    (TcpTransport.new_data_leaves _ (env.socket 1) _), ?_⟩
  exact .created _

theorem step_connected {s s' : FtpServer} {i : ServerStep} (h : Viewing dataAct Connected s)
    (hstep : s.step i = .ok s') : Viewing dataAct Connected s' := by
  refine viewing_step h hstep (fun _ _ _ => id)
    (fun env garbage buffer _ => acceptRound_connected env garbage buffer s) ?_
  intro k a client client' p' front _ hid _ hacted hfront
  have hnext := acted_connected hacted hfront
  rwa [hid] at hnext

theorem start_connected {env : Environment} {address : Bytes} {port : Int} {t : Posix.FileTree}
    {s : FtpServer} (hstart : start env address port (Process.initial t) = some s) :
    Viewing dataAct Connected s := by
  have hnone := (start_quiet hstart).2
  have hleaves : ∀ k, Leaves dataAct k (Process.initial t) s.process [] := by
    intro k
    unfold start at hstart
    dsimp only at hstart
    have hnew : Leaves dataAct k (Process.initial t)
        (TcpListener.new true .listener (Process.initial t)).2 [] :=
      TcpTransport.new_leaves k _ _ (fun _ => rfl) _
    generalize TcpListener.new true .listener (Process.initial t) = created at hstart hnew
    have hother : Leaves dataAct k created.2
        (TcpListener.ofAddress true .temporary address port 10 created.2).2 [] :=
      TcpTransport.new_leaves k _ _ (fun _ => rfl) _
    generalize TcpListener.ofAddress true .temporary address port 10 created.2 = other at hstart hother
    have hmove := TcpListener.moveAssign_leaves k .listener (by simp) (fun _ => rfl) created.1
      other.1 other.2
    generalize TcpListener.moveAssign .listener .temporary created.1 other.1 other.2 = listener
      at hstart hmove
    have hbind := TcpListener.bind_leaves k env .listener 0 listener.1 listener.2
    split at hstart
    · cases hstart
    · cases hstart
      exact ((hnew.trans hother).trans hmove).trans hbind
  constructor
  · intro k client hclient
    rw [hnone] at hclient
    cases hclient
  · exact fun k _ => (hleaves k).own

/-- **Data connections.**  In every run of the server, for any sessions and any interleaving,
    what is done on the data channel of each session is a history of connections.  The first
    is the socket of the constructor, and each of the others was set up by PORT or PASV.
    Every transfer goes over what the channel has then, protected by the handshake made over
    it if there was one, and ends with its close.  So no connection serves two transfers:
    behind a close, with no new connection between, bytes move over the descriptor 0, and
    that is what is closed. -/
theorem data_connections {env : Environment} {address : Bytes} {port : Int} {t : Posix.FileTree}
    {steps : List ServerStep} {s s' : FtpServer}
    (hstart : start env address port (Process.initial t) = some s)
    (hrun : run step s steps = .ok s') :
    ∀ k client, s'.clientSessions[k]? = some client →
      let acts := viewed dataAct k s'.process.trace
      DataHistory client.session.dataChannel.socket client.session.dataChannel.route acts ∧
        ∀ front mid back first act second,
          acts = front ++ .closed first :: mid ++ act :: back → act.served = some second →
            (∀ opened, .opened opened ∉ mid) → second = 0 := by
  have hconnected : Viewing dataAct Connected s' :=
    run_invariant (fun _ _ _ => step_connected) (start_connected hstart) hrun
  intro k client hclient
  have hhistory := (hconnected.sessions k client hclient).2
  exact ⟨hhistory, fun _ _ _ _ _ _ => hhistory.served_once⟩

/-- A client that asks for two listings over one connection. -/
def twoListings : List ServerStep :=
  [.accept .plain ⟨0, 0, .clear⟩ .zero, .greet 0 .plain,
    .turn 0 (SessionThread.lineTurn .plain "PORT 127,0,0,1,8,2\r\n" (by decide)),
    .turn 0 (SessionThread.lineTurn .plain "LIST a\r\n" (by decide)),
    .turn 0 (SessionThread.lineTurn .plain "LIST b\r\n" (by decide))]

/-- The second one goes to the descriptor 0. -/
theorem data_connections_listings :
    ∃ s s' client, start .plain (ascii "127.0.0.1") 21 (Process.initial .bare) = some s ∧
      run step s twoListings = .ok s' ∧ s'.clientSessions[0]? = some client ∧
      viewed dataAct 0 s'.process.trace =
        [.opened 7, .opened 8, .connected 8 true, .pushed (.plain 8) [], .closed 8,
          .pushed (.plain 0) [], .closed 0] ∧
      DataHistory client.session.dataChannel.socket client.session.dataChannel.route
        (viewed dataAct 0 s'.process.trace) := by
  obtain ⟨s', hrun, hone⟩ := exists_of_reaches _ twoListings
    (fun s => (s.clientSessions[0]?).isSome && decide (viewed dataAct 0 s.process.trace =
      [.opened 7, .opened 8, .connected 8 true, .pushed (.plain 8) [], .closed 8,
        .pushed (.plain 0) [], .closed 0]))
    (show reaches step ((start .plain (ascii "127.0.0.1") 21 (Process.initial .bare)).get rfl)
      twoListings _ = true by decide +kernel)
  rw [Bool.and_eq_true, decide_eq_true_eq] at hone
  obtain ⟨client, hclient⟩ := Option.isSome_iff_exists.mp hone.1
  have hhistory := (data_connections (Option.some_get _).symm hrun 0 client hclient).1
  exact ⟨_, s', client, (Option.some_get _).symm, hrun, hclient, hone.2, hhistory⟩

end FtpServer

end FtpsServer
