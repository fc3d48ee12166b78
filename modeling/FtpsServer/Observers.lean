import FtpsServer.UserDatabase
import Mathlib.Data.List.Induction
import Mathlib.Data.Set.Insert

/-!
# What observers registered for

To an observer the notifier is a set of registrations, pairs of an observer and an event.
The table behind it is keyed by the observer alone, so that it holds this set only as
long as nobody registers for two events, and nothing in `notify_observers` looks for
`FTP_EVENT_ANY`.
-/

namespace FtpsServer

open Cxx

namespace FtpNotifier

/-! ## 1. The table -/

/-- The calls that change the table. -/
inductive Change where
  | register (observer : Nat) (event : FtpObserveEventT)
  | unregister (observer : Nat) (event : FtpObserveEventT)
deriving DecidableEq, Repr

def apply (observers : FtpNotifier) : Change → FtpNotifier
  | .register observer event => (observers.registerObserver observer event).2
  | .unregister observer event => (observers.unregisterObserver observer event).2

/-- The table after a history of calls on a new notifier. -/
def table (history : List Change) : FtpNotifier := history.foldl apply []

theorem table_concat (history : List Change) (change : Change) :
    table (history ++ [change]) = apply (table history) change := by
  simp [table]

/-- The loop removes the first entry of the pair, if there is one. -/
theorem unregisterObserver_eq (observers : FtpNotifier) (observer : Nat) (event : FtpObserveEventT) :
    observers.unregisterObserver observer event =
      if (observer, event) ∈ observers then (OPERATION_SUCCESS, observers.erase (observer, event))
      else (OPERATION_FAILURE, observers) := by
  induction observers with
  | nil => rfl
  | cons entry rest ih =>
    unfold unregisterObserver
    by_cases hentry : entry = (observer, event)
    · subst hentry
      simp
    · have hparts : ¬ (entry.1 = observer ∧ entry.2 = event) := fun h =>
        hentry (Prod.ext h.1 h.2)
      rw [if_neg hparts, ih]
      by_cases hmem : (observer, event) ∈ rest
      · simp [hmem, hentry]
      · simp [hmem, Ne.symm hentry]

theorem unregisterObserver_success_iff {observers : FtpNotifier} {observer : Nat}
    {event : FtpObserveEventT} :
    (observers.unregisterObserver observer event).1 = OPERATION_SUCCESS ↔
      (observer, event) ∈ observers := by
  rw [unregisterObserver_eq]
  split
  · next h => exact iff_of_true rfl h
  · next h => exact iff_of_false (show OPERATION_FAILURE ≠ OPERATION_SUCCESS by decide) h

/-- What a removal leaves. -/
theorem mem_unregisterObserver {observers : FtpNotifier} (h : StdMap.Ordered observers)
    (observer : Nat) (event : FtpObserveEventT) (x : Nat × FtpObserveEventT) :
    x ∈ (observers.unregisterObserver observer event).2 ↔
      x ∈ observers ∧ x ≠ (observer, event) := by
  rw [unregisterObserver_eq]
  split
  · rw [h.nodup.mem_erase_iff, and_comm]
  · next hfree =>
    refine ⟨fun hx => ⟨hx, ?_⟩, fun hx => hx.1⟩
    rintro rfl
    exact hfree hx

/-- The table stays a map. -/
theorem apply_ordered {observers : FtpNotifier} (h : StdMap.Ordered observers) (change : Change) :
    StdMap.Ordered (apply observers change) := by
  cases change with
  | register observer event => exact h.insert observer event
  | unregister observer event =>
    change StdMap.Ordered (observers.unregisterObserver observer event).2
    rw [unregisterObserver_eq]
    split
    · exact List.Pairwise.sublist List.erase_sublist h
    · exact h

theorem table_ordered (history : List Change) : StdMap.Ordered (table history) := by
  induction history using List.reverseRecOn with
  | nil => exact List.Pairwise.nil
  | append_singleton history change ih =>
    rw [table_concat]
    exact apply_ordered ih change

theorem mem_notifyObservers {observers : FtpNotifier} {observer : Nat} {event : FtpObserveEventT} :
    observer ∈ observers.notifyObservers event ↔ (observer, event) ∈ observers := by
  simp [notifyObservers]

/-- An observer is signalled once for its entry, and else not. -/
theorem count_notifyObservers {observers : FtpNotifier} (h : StdMap.Ordered observers)
    (observer : Nat) (event : FtpObserveEventT) :
    (observers.notifyObservers event).count observer =
      if (observer, event) ∈ observers then 1 else 0 := by
  have hnodup : (observers.notifyObservers event).Nodup := h.keys_nodup _
  rw [hnodup.count]
  exact if_congr mem_notifyObservers rfl rfl

/-! ## 2. The registrations -/

/-- The registrations that are outstanding: `register_observer` returns success in every
    case. -/
def afterChange (outstanding : Set (Nat × FtpObserveEventT)) : Change → Set (Nat × FtpObserveEventT)
  | .register observer event => insert (observer, event) outstanding
  | .unregister observer event => outstanding \ {(observer, event)}

def outstanding (history : List Change) : Set (Nat × FtpObserveEventT) :=
  history.foldl afterChange ∅

theorem outstanding_concat (history : List Change) (change : Change) :
    outstanding (history ++ [change]) = afterChange (outstanding history) change := by
  simp [outstanding]

/-- What observers may expect of a table when `registrations` are outstanding. -/
structure Exact (observers : FtpNotifier) (registrations : Set (Nat × FtpObserveEventT)) :
    Prop where
  signalled : ∀ observer event,
    (observer, event) ∈ registrations ∨ (observer, .any) ∈ registrations →
    (observers.notifyObservers event).count observer = 1
  silent : ∀ observer event,
    ¬ ((observer, event) ∈ registrations ∨ (observer, .any) ∈ registrations) →
    (observers.notifyObservers event).count observer = 0
  unregistered : ∀ observer event,
    (observers.unregisterObserver observer event).1 = OPERATION_SUCCESS ↔
      (observer, event) ∈ registrations
  others : ∀ observer event x, x ≠ (observer, event) →
    (x ∈ (observers.unregisterObserver observer event).2 ↔ x ∈ observers)

/-- No registration for `FTP_EVENT_ANY`, and none by an observer that is registered for
    another event. -/
def Compatible (history : List Change) : Prop :=
  ∀ before observer event, before ++ [.register observer event] <+: history →
    event ≠ .any ∧ ∀ other, (observer, other) ∈ outstanding before → other = event

/-! ## 3. Compatible histories -/

/-- The table holds the registrations, none of them for `FTP_EVENT_ANY`. -/
structure Holds (observers : FtpNotifier) (registrations : Set (Nat × FtpObserveEventT)) :
    Prop where
  ordered : StdMap.Ordered observers
  mem : ∀ x, x ∈ observers ↔ x ∈ registrations
  noAny : ∀ observer, (observer, .any) ∉ registrations

theorem Holds.register {observers : FtpNotifier} {registrations : Set (Nat × FtpObserveEventT)}
    (h : Holds observers registrations) {observer : Nat} {event : FtpObserveEventT}
    (hany : event ≠ .any) (hother : ∀ other, (observer, other) ∈ registrations → other = event) :
    Holds (apply observers (.register observer event))
      (afterChange registrations (.register observer event)) := by
  refine ⟨apply_ordered h.ordered _, ?_, ?_⟩
  · intro x
    change x ∈ StdMap.insert observer event observers ↔ x ∈ insert (observer, event) registrations
    rw [StdMap.mem_insert h.ordered, Set.mem_insert_iff, h.mem, or_comm]
    constructor
    · rintro (⟨hx, -⟩ | hx)
      · exact Or.inl hx
      · exact Or.inr hx
    · rintro (rfl | hx)
      · by_cases hthere : (observer, event) ∈ registrations
        · exact Or.inr hthere
        · -- the key is free, since no other event can hold it
          refine Or.inl ⟨rfl, fun other hin => ?_⟩
          rw [h.mem] at hin
          rw [hother other hin] at hin
          exact hthere hin
      · exact Or.inr hx
  · intro o hin
    rcases Set.mem_insert_iff.mp hin with heq | hin
    · exact hany (Prod.ext_iff.mp heq).2.symm
    · exact h.noAny o hin

theorem Holds.unregister {observers : FtpNotifier} {registrations : Set (Nat × FtpObserveEventT)}
    (h : Holds observers registrations) (observer : Nat) (event : FtpObserveEventT) :
    Holds (apply observers (.unregister observer event))
      (afterChange registrations (.unregister observer event)) := by
  refine ⟨apply_ordered h.ordered _, ?_, fun o hin => h.noAny o hin.1⟩
  intro x
  change x ∈ (observers.unregisterObserver observer event).2 ↔
    x ∈ registrations \ {(observer, event)}
  rw [mem_unregisterObserver h.ordered, h.mem]
  rfl

/-- Along a compatible history the table holds the registrations. -/
theorem holds_of_compatible {history before : List Change} (h : Compatible history)
    (hfront : before <+: history) : Holds (table before) (outstanding before) := by
  induction before using List.reverseRecOn with
  | nil => exact ⟨List.Pairwise.nil, by simp [table, outstanding], by simp [outstanding]⟩
  | append_singleton before change ih =>
    have hbefore := ih ((List.prefix_append before [change]).trans hfront)
    rw [table_concat, outstanding_concat]
    cases change with
    | register observer event =>
      rcases h before observer event hfront with ⟨hany, hother⟩
      exact hbefore.register hany hother
    | unregister observer event => exact hbefore.unregister observer event

theorem Holds.exact {observers : FtpNotifier} {registrations : Set (Nat × FtpObserveEventT)}
    (h : Holds observers registrations) : Exact observers registrations := by
  refine ⟨?_, ?_, ?_, ?_⟩
  · rintro observer event (hin | hin)
    · rw [count_notifyObservers h.ordered, if_pos ((h.mem _).mpr hin)]
    · exact absurd hin (h.noAny observer)
  · intro observer event hnot
    rw [count_notifyObservers h.ordered, if_neg]
    intro hin
    exact hnot (Or.inl ((h.mem _).mp hin))
  · intro observer event
    rw [unregisterObserver_success_iff, h.mem]
  · intro observer event x hne
    rw [mem_unregisterObserver h.ordered]
    exact and_iff_left hne

/-! ## 4. Incompatible registrations -/

/-- After a registration the table is exact only if it was compatible. -/
theorem compatible_of_exact {before : List Change} {observer : Nat} {event : FtpObserveEventT}
    (h : Exact (table (before ++ [.register observer event]))
      (outstanding (before ++ [.register observer event]))) :
    event ≠ .any ∧ ∀ other, (observer, other) ∈ outstanding before → other = event := by
  have hordered := table_ordered (before ++ [.register observer event])
  have hin : ∀ x, x = (observer, event) ∨ x ∈ outstanding before →
      x ∈ outstanding (before ++ [.register observer event]) := by
    intro x hx
    rw [outstanding_concat]
    exact Set.mem_insert_iff.mpr hx
  constructor
  · rintro rfl
    -- one entry would have to serve two events
    have hentry : ∀ wanted, (observer, wanted) ∈ table (before ++ [.register observer .any]) := by
      intro wanted
      have hcount := h.signalled observer wanted (Or.inr (hin _ (Or.inl rfl)))
      rw [count_notifyObservers hordered] at hcount
      by_contra hnot
      rw [if_neg hnot] at hcount
      cases hcount
    cases hordered.unique (hentry .filePut) (hentry .fileGet)
  · intro other hother
    have hfirst := (h.unregistered observer other).mpr (hin _ (Or.inr hother))
    have hsecond := (h.unregistered observer event).mpr (hin _ (Or.inl rfl))
    exact hordered.unique (unregisterObserver_success_iff.mp hfirst)
      (unregisterObserver_success_iff.mp hsecond)

/-- **Observers get exactly what they registered for**, throughout a history, exactly when it
    is compatible. -/
theorem observers_exact_iff (history : List Change) :
    (∀ before, before <+: history → Exact (table before) (outstanding before)) ↔
      Compatible history := by
  constructor
  · intro h before observer event hfront
    exact compatible_of_exact (h _ hfront)
  · intro h before hfront
    exact (holds_of_compatible h hfront).exact

/-- The second event of an observer is not entered, and its removal fails. -/
theorem second_event_dropped :
    ¬ ∀ history, Exact (table history) (outstanding history) := by
  intro h
  have hexact := h [.register 0 .filePut, .register 0 .fileGet]
  have hin : ((0, .fileGet) : Nat × FtpObserveEventT) ∈
      outstanding [.register 0 .filePut, .register 0 .fileGet] := by
    simp [outstanding, afterChange]
  have hsuccess := (hexact.unregistered 0 .fileGet).mpr hin
  exact absurd hsuccess (by decide)

end FtpNotifier

end FtpsServer
