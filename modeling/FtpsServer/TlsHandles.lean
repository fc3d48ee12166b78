import FtpsServer.TlsSession
import FtpsServer.Lib.Lifetimes

/-!
# The gnutls handles of `tls_session` objects

A program constructs, moves, uses and destroys any number of `tls_session` objects,
in any order.  Each object has three slots for handles.  Moves empty the source, a
second bind or an assignment loses what was in the slots before, and the destructor
frees what is there: a handle gets lost at worst, and is never in two slots.
-/

namespace FtpsServer

open ByteString Cxx Lifetimes

/-! ## 1. The program -/

/-- What a program does with its `tls_session` objects, by the place they live at. -/
inductive TlsOperation where
  | construct (place : Nat)
  | moveConstruct (place source : Nat)
  | moveAssign (place source : Nat)
  | bind (place : Nat) (env : Environment) (descriptor : Int)
  | handshake (place : Nat) (env : Environment)
  | push (place : Nat)
  | pull (place : Nat)
  | close (place : Nat)
  | destroy (place : Nat)

structure TlsProgram where
  process : Process
  objects : Nat → Option TlsSession

namespace TlsProgram

def initial (t : Posix.FileTree) : TlsProgram := ⟨Process.initial t, fun _ => none⟩

/-- A member function of the object at `place`, if there is one. -/
def call (s : TlsProgram) (place : Nat) (f : TlsSession → Process → TlsSession × Process) :
    TlsProgram :=
  match s.objects place with
  | none => s
  | some this =>
    let (this, p) := f this s.process
    ⟨p, Function.update s.objects place (some this)⟩

/-- One operation.  An object is constructed only where there is none.  When gnutls is
    handed a NULL session, no handle is passed to it, and nothing else happens. -/
def step (s : TlsProgram) : TlsOperation → TlsProgram
  | .construct place =>
    if s.objects place = none then
      { s with objects := Function.update s.objects place (some .null) }
    else s
  | .moveConstruct place source =>
    match s.objects place, s.objects source with
    | none, some other =>
      let (this, other) := TlsSession.moveConstruct other
      { s with
        objects := Function.update (Function.update s.objects source (some other)) place (some this) }
    | _, _ => s
  | .moveAssign place source =>
    match s.objects place, s.objects source with
    | some this, some other =>
      let (this, other) := TlsSession.moveAssign (place == source) this other
      { s with
        objects := Function.update (Function.update s.objects source (some other)) place (some this) }
    | _, _ => s
  | .bind place env descriptor => s.call place fun this p => (this.bind env descriptor p).2
  | .handshake place env => s.call place fun this p =>
    match this.handshake env .temporary p with
    | .ok (_, this, p) => (this, p)
    | .error _ => (this, p)
  | .push place => s.call place fun this p =>
    match this.record p with
    | .ok p => (this, p)
    | .error _ => (this, p)
  | .pull place => s.call place fun this p =>
    match this.record p with
    | .ok p => (this, p)
    | .error _ => (this, p)
  | .close place => s.call place fun this p => this.close p
  | .destroy place =>
    match s.objects place with
    | none => s
    | some this => ⟨(this.freeTlsSession s.process).2, Function.update s.objects place none⟩

def run (s : TlsProgram) (operations : List TlsOperation) : TlsProgram := operations.foldl step s

end TlsProgram

/-! ## 2. Slots and calls -/

/-- Where a `tls_session` keeps a handle. -/
inductive TlsSlot where
  | dhParameters
  | credentials
  | session
deriving DecidableEq, Repr

def TlsSession.slot (s : TlsSession) : TlsSlot → Option Nat
  | .dhParameters => s.dhParameters
  | .credentials => s.credentials
  | .session => s.session.map GnutlsSession.handle

def GnutlsCall.act : GnutlsCall → Act Nat
  | .allocate handle => .allocate handle
  | .use handle => .use handle
  | .deinit handle => .release handle

def Event.gnutlsAct : Event → Option (Act Nat)
  | .gnutls c => some c.act
  | _ => none

/-- The calls into gnutls of a log. -/
def gnutlsActs (events : List Event) : List (Act Nat) := events.filterMap Event.gnutlsAct

@[simp] theorem gnutlsActs_concat (events : List Event) (e : Event) :
    gnutlsActs (events ++ [e]) = gnutlsActs events ++ e.gnutlsAct.toList := by
  unfold gnutlsActs
  rw [List.filterMap_append]
  cases h : e.gnutlsAct <;> simp [h]

/-- The slots hold what they own alone, and new handles are new. -/
structure Orderly (slot : Nat × TlsSlot → Option Nat) (p : Process) : Prop where
  exclusive : Exclusive slot (gnutlsActs p.trace)
  fresh : ∀ a ∈ gnutlsActs p.trace, a.handle < p.nextHandle

/-- The slots with the object `s` at `place`. -/
def withObject (slot : Nat × TlsSlot → Option Nat) (place : Nat) (s : TlsSession) :
    Nat × TlsSlot → Option Nat :=
  fun x => if x.1 = place then s.slot x.2 else slot x

theorem withObject_update (slot : Nat × TlsSlot → Option Nat) (place : Nat) {s s' : TlsSession}
    (k : TlsSlot) (handle : Option Nat) (hk : s'.slot k = handle)
    (hother : ∀ k', k' ≠ k → s'.slot k' = s.slot k') :
    Function.update (withObject slot place s) (place, k) handle = withObject slot place s' := by
  funext x
  rcases x with ⟨i, k'⟩
  by_cases hx : (i, k') = (place, k)
  · rw [hx, Function.update_self]
    simp [withObject, hk]
  · rw [Function.update_of_ne hx]
    unfold withObject
    by_cases hi : i = place
    · have hne : k' ≠ k := by
        rintro rfl
        exact hx (by rw [hi])
      simp only [hi, if_true]
      exact (hother k' hne).symm
    · simp only [hi, if_false]

namespace Orderly

variable {slot slot' : Nat × TlsSlot → Option Nat} {p : Process} {place : Nat} {s : TlsSession}

theorem call (h : Orderly slot p) {e : Event}
    (hexclusive : Exclusive slot' (gnutlsActs (p.emit e).trace))
    (hknown : ∀ a ∈ e.gnutlsAct.toList, a.handle < p.nextHandle) : Orderly slot' (p.emit e) where
  exclusive := hexclusive
  fresh := by
    intro a ha
    rw [Process.emit_trace, gnutlsActs_concat, List.mem_append] at ha
    rcases ha with ha | ha
    · exact h.fresh a ha
    · exact hknown a ha

/-- An event that is no call into gnutls. -/
theorem emit (h : Orderly slot p) {e : Event} (he : e.gnutlsAct = none) : Orderly slot (p.emit e) := by
  refine h.call ?_ (by simp [he])
  rw [Process.emit_trace, gnutlsActs_concat, he, Option.toList_none, List.append_nil]
  exact h.exclusive

theorem alive_lt (h : Orderly slot p) {x : Nat × TlsSlot} {handle : Nat}
    (hx : slot x = some handle) : handle < p.nextHandle :=
  h.fresh _ (h.exclusive.alive x handle hx).1

theorem use (h : Orderly slot p) {x : Nat × TlsSlot} {handle : Nat} (hx : slot x = some handle) :
    Orderly slot (p.emit (.gnutls (.use handle))) := by
  refine h.call ?_ (by simpa [Event.gnutlsAct, GnutlsCall.act, Act.handle] using h.alive_lt hx)
  rw [Process.emit_trace, gnutlsActs_concat]
  exact h.exclusive.use hx

theorem allocate (h : Orderly slot p) (x : Nat × TlsSlot) :
    Orderly (Function.update slot x (some p.allocate.1)) p.allocate.2 := by
  have hfresh : Fresh (gnutlsActs p.trace) p.nextHandle := by
    intro a ha heq
    have hlt := h.fresh a ha
    omega
  have hacts : gnutlsActs p.allocate.2.trace = gnutlsActs p.trace ++ [.allocate p.nextHandle] :=
    gnutlsActs_concat _ _
  constructor
  · rw [hacts]
    exact h.exclusive.allocate hfresh x
  · intro a ha
    rw [hacts] at ha
    show a.handle < p.nextHandle + 1
    rcases List.mem_append.mp ha with ha | ha
    · exact Nat.lt_succ_of_lt (h.fresh a ha)
    · rw [List.mem_singleton.mp ha]
      exact Nat.lt_succ_self _

/-- A slot is freed, if there is anything in it. -/
theorem deinit (h : Orderly slot p) (x : Nat × TlsSlot) :
    Orderly (Function.update slot x none)
      (match slot x with
        | some handle => p.emit (.gnutls (.deinit handle))
        | none => p) := by
  cases hx : slot x with
  | none =>
    have hsame : Function.update slot x none = slot := by
      rw [← hx]
      exact Function.update_eq_self x slot
    rw [hsame]
    exact h
  | some handle =>
    refine h.call ?_ (by simpa [Event.gnutlsAct, GnutlsCall.act, Act.handle] using h.alive_lt hx)
    rw [Process.emit_trace, gnutlsActs_concat]
    exact h.exclusive.release hx

end Orderly

/-! ## 3. The operations -/

namespace TlsSession

variable {slots : Nat × TlsSlot → Option Nat} {p : Process} {place : Nat} {s : TlsSession}

/-- The object at `place` is `s`, and all slots are in order. -/
def AtPlace (slots : Nat × TlsSlot → Option Nat) (place : Nat) (s : TlsSession) (p : Process) : Prop :=
  Orderly (withObject slots place s) p

theorem AtPlace.emit (h : AtPlace slots place s p) {e : Event} (he : e.gnutlsAct = none) :
    AtPlace slots place s (p.emit e) := Orderly.emit h he

/-- The handles do not see what happens to descriptors. -/
theorem AtPlace.closeDescriptor (h : AtPlace slots place s p) (descriptor : Int) :
    AtPlace slots place s (p.close descriptor) := ⟨h.exclusive, h.fresh⟩

theorem AtPlace.use (h : AtPlace slots place s p) {k : TlsSlot} {handle : Nat}
    (hk : s.slot k = some handle) : AtPlace slots place s (p.emit (.gnutls (.use handle))) := by
  apply Orderly.use h (x := (place, k))
  simpa [withObject] using hk

theorem AtPlace.useIfAny (h : AtPlace slots place s p) (k : TlsSlot) :
    AtPlace slots place s
      (match s.slot k with
        | some handle => p.emit (.gnutls (.use handle))
        | none => p) := by
  cases hk : s.slot k with
  | none => exact h
  | some handle => exact h.use hk

theorem AtPlace.allocate (h : AtPlace slots place s p) {s' : TlsSession} (k : TlsSlot)
    (hk : s'.slot k = some p.allocate.1) (hother : ∀ k', k' ≠ k → s'.slot k' = s.slot k') :
    AtPlace slots place s' p.allocate.2 := by
  have hnext := Orderly.allocate h (place, k)
  rwa [withObject_update slots place k _ hk hother] at hnext

theorem AtPlace.deinit (h : AtPlace slots place s p) (s' : TlsSession) (k : TlsSlot)
    (hk : s'.slot k = none) (hother : ∀ k', k' ≠ k → s'.slot k' = s.slot k') :
    AtPlace slots place s'
      (match s.slot k with
        | some handle => p.emit (.gnutls (.deinit handle))
        | none => p) := by
  have hnext := Orderly.deinit h (place, k)
  rw [withObject_update slots place k _ hk hother] at hnext
  unfold AtPlace
  simpa [withObject] using hnext

theorem AtPlace.initializeCredentials (h : AtPlace slots place s p) (env : Environment) :
    AtPlace slots place (s.initializeCredentials env p).2.1 (s.initializeCredentials env p).2.2 := by
  refine (h.allocate .credentials rfl ?_).use (k := .credentials) rfl
  intro k hk
  cases k <;> first | rfl | exact absurd rfl hk

theorem AtPlace.initializeDhParameters (h : AtPlace slots place s p) :
    AtPlace slots place (s.initializeDhParameters p).2.1 (s.initializeDhParameters p).2.2 := by
  have hmade : AtPlace slots place (s.initializeDhParameters p).2.1
      (p.allocate.2.emit (.gnutls (.use p.allocate.1))) := by
    refine (h.allocate .dhParameters rfl ?_).use (k := .dhParameters) rfl
    intro k hk
    cases k <;> first | rfl | exact absurd rfl hk
  exact hmade.useIfAny .credentials

theorem AtPlace.initializeSession (h : AtPlace slots place s p) (descriptor : Int) :
    AtPlace slots place (s.initializeSession descriptor p).2.1
      (s.initializeSession descriptor p).2.2 := by
  have hmade : AtPlace slots place (s.initializeSession descriptor p).2.1
      (p.allocate.2.emit (.gnutls (.use p.allocate.1))) := by
    refine (h.allocate .session rfl ?_).use (k := .session) rfl
    intro k hk
    cases k <;> first | rfl | exact absurd rfl hk
  exact hmade.useIfAny .credentials

theorem AtPlace.bind (h : AtPlace slots place s p) (env : Environment) (descriptor : Int) :
    AtPlace slots place (s.bind env descriptor p).2.1 (s.bind env descriptor p).2.2 := by
  have hcredentials := h.initializeCredentials env
  have hdh := hcredentials.initializeDhParameters
  have hsession := hdh.initializeSession descriptor
  unfold TlsSession.bind createTlsSession
  dsimp only
  split
  · exact hcredentials
  · split
    · exact hdh
    · split
      · exact hsession
      · exact hsession

theorem AtPlace.handshake (h : AtPlace slots place s p) {env : Environment} {object : Object}
    {result : Bool} {s' : TlsSession} {p' : Process}
    (hhandshake : s.handshake env object p = .ok (result, s', p')) : AtPlace slots place s' p' := by
  unfold TlsSession.handshake at hhandshake
  cases hsession : s.session with
  | none =>
    rw [hsession] at hhandshake
    cases hhandshake
  | some session =>
    rw [hsession] at hhandshake
    dsimp only at hhandshake
    have hslot : s.slot .session = some session.handle := by simp [slot, hsession]
    have hshaken : AtPlace slots place s ((p.emit (.gnutls (.use session.handle))).emit
        (.handshake object session env.handshake)) := (h.use hslot).emit rfl
    split at hhandshake
    · cases hhandshake
      exact hshaken
    · cases hhandshake
      have hgone := hshaken.deinit { s with session := none } .session rfl (by
        intro k hk
        cases k <;> first | rfl | exact absurd rfl hk)
      rwa [hslot] at hgone

theorem AtPlace.record (h : AtPlace slots place s p) {p' : Process} (hrecord : s.record p = .ok p') :
    AtPlace slots place s p' := by
  unfold TlsSession.record at hrecord
  cases hsession : s.session with
  | none =>
    rw [hsession] at hrecord
    cases hrecord
  | some session =>
    rw [hsession] at hrecord
    cases hrecord
    exact h.use (k := .session) (by simp [slot, hsession])

/-- The three handles are freed one after another, and the object is empty. -/
theorem AtPlace.freeTlsSession (h : AtPlace slots place s p) :
    AtPlace slots place .null (s.freeTlsSession p).2 := by
  have hsession := h.deinit { s with session := none } .session rfl (by
    intro k hk
    cases k <;> first | rfl | exact absurd rfl hk)
  have hdh := hsession.deinit { s with session := none, dhParameters := none }
    .dhParameters rfl (by
      intro k hk
      cases k <;> first | rfl | exact absurd rfl hk)
  have hcredentials := hdh.deinit .null .credentials rfl (by
    intro k hk
    cases k <;> first | rfl | exact absurd rfl hk)
  unfold TlsSession.freeTlsSession
  rcases s with ⟨dh, credentials, session⟩
  cases session <;> exact hcredentials

theorem AtPlace.close (h : AtPlace slots place s p) :
    AtPlace slots place (s.close p).1 (s.close p).2 := by
  unfold TlsSession.close
  have hbye := h.useIfAny .session
  rcases s with ⟨dh, credentials, session⟩
  cases session <;> exact hbye.freeTlsSession

end TlsSession

/-! ## 4. Programs -/

namespace TlsProgram

variable {s : TlsProgram}

def slots (objects : Nat → Option TlsSession) : Nat × TlsSlot → Option Nat :=
  fun x => (objects x.1).bind fun this => this.slot x.2

/-- The slots of all objects are in order. -/
def InOrder (s : TlsProgram) : Prop := Orderly (slots s.objects) s.process

theorem slots_update (objects : Nat → Option TlsSession) (place : Nat) (this : TlsSession) :
    slots (Function.update objects place (some this)) = withObject (slots objects) place this := by
  funext x
  unfold slots withObject
  by_cases hx : x.1 = place
  · rw [if_pos hx, hx, Function.update_self, Option.bind_some]
  · rw [if_neg hx, Function.update_of_ne hx]

theorem slots_update_none (objects : Nat → Option TlsSession) (place : Nat) :
    slots (Function.update objects place none) = withObject (slots objects) place .null := by
  funext x
  unfold slots withObject
  by_cases hx : x.1 = place
  · rw [if_pos hx, hx, Function.update_self]
    cases x.2 <;> rfl
  · rw [if_neg hx, Function.update_of_ne hx]

theorem InOrder.atPlace (h : s.InOrder) {place : Nat} {this : TlsSession}
    (hthis : s.objects place = some this) :
    TlsSession.AtPlace (slots s.objects) place this s.process := by
  unfold TlsSession.AtPlace
  rw [← slots_update, ← hthis, Function.update_eq_self]
  exact h

theorem InOrder.call (h : s.InOrder) (place : Nat)
    {f : TlsSession → Process → TlsSession × Process}
    (hf : ∀ slots this p, TlsSession.AtPlace slots place this p →
      TlsSession.AtPlace slots place (f this p).1 (f this p).2) : (s.call place f).InOrder := by
  unfold TlsProgram.call
  cases hthis : s.objects place with
  | none => exact h
  | some this =>
    unfold InOrder
    rw [slots_update]
    exact hf _ _ _ (h.atPlace hthis)

/-- What the source held is in the other object now, and the source is empty. -/
theorem InOrder.move (h : s.InOrder) {place source : Nat} {other : TlsSession} (hne : place ≠ source)
    (hother : s.objects source = some other) :
    InOrder { s with
      objects := Function.update (Function.update s.objects source (some .null)) place
        (some other) } := by
  let objects := Function.update (Function.update s.objects source (some .null)) place (some other)
  have hplace : ∀ k, slots objects (place, k) = slots s.objects (source, k) := by
    intro k
    simp [objects, slots, hother]
  have hsource : ∀ k, slots objects (source, k) = none := by
    intro k
    cases k <;> simp [objects, slots, hne.symm, TlsSession.slot, TlsSession.null]
  have hrest : ∀ x : Nat × TlsSlot, x.1 ≠ place → x.1 ≠ source →
      slots objects x = slots s.objects x := by
    intro x hx hx'
    simp [objects, slots, hx, hx']
  have hnone : ∀ x : Nat × TlsSlot, (slots objects x).isSome → x.1 ≠ source := by
    rintro ⟨i, k⟩ hx rfl
    rw [hsource] at hx
    cases hx
  refine ⟨h.exclusive.relocate (fun x => if x.1 = place then (source, x.2) else x) ?_ ?_, h.fresh⟩
  · rintro ⟨i, k⟩ handle hx
    by_cases hi : i = place
    · subst hi
      rw [if_pos rfl, ← hplace]
      exact hx
    · have hi' := hnone (i, k) (Option.isSome_of_eq_some hx)
      rw [if_neg hi, ← hrest (i, k) hi hi']
      exact hx
  · rintro ⟨i, k⟩ ⟨j, l⟩ hx hy heq
    have hi := hnone (i, k) hx
    have hj := hnone (j, l) hy
    by_cases hip : i = place <;> by_cases hjp : j = place
    · simp only [hip, hjp, if_true, Prod.mk.injEq, true_and] at heq ⊢
      exact heq
    · simp only [hip, hjp, if_true, if_false, Prod.mk.injEq] at heq
      exact absurd heq.1.symm hj
    · simp only [hip, hjp, if_true, if_false, Prod.mk.injEq] at heq
      exact absurd heq.1 hi
    · simpa only [hip, hjp, if_false] using heq

theorem step_inOrder (h : s.InOrder) (operation : TlsOperation) : (s.step operation).InOrder := by
  cases operation with
  | construct place =>
    unfold step
    dsimp only
    split
    · next hplace =>
      unfold InOrder
      rw [slots_update, ← slots_update_none, ← hplace, Function.update_eq_self]
      exact h
    · exact h
  | moveConstruct place source =>
    unfold step
    dsimp only
    split
    · next other hplace hother =>
      refine h.move ?_ hother
      rintro rfl
      rw [hplace] at hother
      cases hother
    · exact h
  | moveAssign place source =>
    unfold step
    dsimp only
    split
    · next this other hthis hother =>
      unfold TlsSession.moveAssign
      by_cases hsame : place = source
      · -- an object assigned to itself stays as it is
        subst hsame
        rw [hthis] at hother
        cases hother
        simp only [beq_self_eq_true, if_true, ← hthis, Function.update_eq_self]
        exact h
      · simp only [beq_eq_false_iff_ne.mpr hsame, Bool.false_eq_true, if_false]
        exact h.move hsame hother
    · exact h
  | bind place env descriptor => exact h.call place fun _ _ _ ht => ht.bind env descriptor
  | handshake place env =>
    refine h.call place fun _ this p ht => ?_
    cases hresult : this.handshake env .temporary p with
    | ok result => exact ht.handshake hresult
    | error e => exact ht
  | push place =>
    refine h.call place fun _ this p ht => ?_
    cases hresult : this.record p with
    | ok p' => exact ht.record hresult
    | error e => exact ht
  | pull place =>
    refine h.call place fun _ this p ht => ?_
    cases hresult : this.record p with
    | ok p' => exact ht.record hresult
    | error e => exact ht
  | close place => exact h.call place fun _ _ _ ht => ht.close
  | destroy place =>
    unfold step
    dsimp only
    split
    · exact h
    · next this hthis =>
      unfold InOrder
      rw [slots_update_none]
      exact (h.atPlace hthis).freeTlsSession

theorem run_inOrder (h : s.InOrder) (operations : List TlsOperation) :
    (s.run operations).InOrder := by
  induction operations generalizing s with
  | nil => exact h
  | cons operation operations ih => exact ih (step_inOrder h operation)

theorem initial_inOrder (t : Posix.FileTree) : (initial t).InOrder :=
  ⟨Exclusive.empty lawful_nil, by simp [initial, Process.initial, gnutlsActs]⟩

/-- No handle is in two objects, or twice in one; none is freed twice; and none is used
    after it was freed. -/
structure HandlesSafe (s : TlsProgram) : Prop where
  unshared : ∀ x y handle, slots s.objects x = some handle → slots s.objects y = some handle → x = y
  freedOnce : ∀ handle, (gnutlsActs s.process.trace).count (.release handle) ≤ 1
  notAfter : ∀ front act back, gnutlsActs s.process.trace = front ++ act :: back →
    .release act.handle ∉ front

/-- **TLS handles are freed once at most and never used after that**, whatever a program
    does with its `tls_session` objects. -/
theorem handles_safe (t : Posix.FileTree) (operations : List TlsOperation) :
    HandlesSafe ((initial t).run operations) := by
  have horder := run_inOrder (initial_inOrder t) operations
  exact ⟨horder.exclusive.unique, horder.exclusive.lawful.release_once,
    fun _ _ _ heq => horder.exclusive.lawful.not_after_release heq⟩

end TlsProgram

end FtpsServer
