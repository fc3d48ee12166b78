import Mathlib.Logic.Function.Basic
import Mathlib.Data.List.Count

/-!
# Lifetimes of handles

A library hands out handles: one call allocates a handle, others use it, one
releases it.  A log of such calls is `Lawful` when no handle is allocated that was
heard of before, and each one that is used or released is alive.  A program keeps
its handles in slots, each possibly empty.  While no two slots hold the same handle,
every call with the handle of a slot is lawful, and what moves between slots or gets
lost does no harm (`Exclusive`).
-/

namespace Lifetimes

/-! ## 1. Logs -/

inductive Act (ρ : Type) where
  | allocate (handle : ρ)
  | use (handle : ρ)
  | release (handle : ρ)
deriving DecidableEq, Repr

def Act.handle {ρ : Type} : Act ρ → ρ
  | .allocate r => r
  | .use r => r
  | .release r => r

variable {ρ : Type}

/-- Allocated, and not released yet. -/
def Alive (log : List (Act ρ)) (r : ρ) : Prop := .allocate r ∈ log ∧ .release r ∉ log

/-- No call has had the handle. -/
def Fresh (log : List (Act ρ)) (r : ρ) : Prop := ∀ a ∈ log, a.handle ≠ r

/-- The call may follow the log. -/
def Permitted (log : List (Act ρ)) : Act ρ → Prop
  | .allocate r => Fresh log r
  | .use r => Alive log r
  | .release r => Alive log r

/-- **Every call of the log was permitted when it was made.** -/
def Lawful (log : List (Act ρ)) : Prop := ∀ front a back, log = front ++ a :: back → Permitted front a

theorem lawful_nil : Lawful ([] : List (Act ρ)) := by
  intro front a back h
  simp at h

theorem lawful_concat {log : List (Act ρ)} {a : Act ρ} (h : Lawful log) (ha : Permitted log a) :
    Lawful (log ++ [a]) := by
  intro front b back heq
  rcases List.eq_nil_or_concat back with rfl | ⟨back', c, rfl⟩
  · obtain ⟨rfl, rfl⟩ : log = front ∧ a = b := by simpa using heq
    exact ha
  · have hfront : log = front ++ b :: back' := by
      rw [List.concat_eq_append, ← List.cons_append, ← List.append_assoc] at heq
      exact (List.append_inj' heq rfl).1
    exact h front b back' hfront

/-- A handle is released once at most. -/
theorem Lawful.release_once [DecidableEq ρ] {log : List (Act ρ)} (h : Lawful log) (r : ρ) :
    log.count (.release r) ≤ 1 := by
  by_contra hmore
  obtain ⟨front, back, rfl⟩ := List.append_of_mem (List.count_pos_iff.mp (by omega) : .release r ∈ log)
  have hfirst : front.count (.release r) = 0 :=
    List.count_eq_zero.mpr (h front _ back rfl).2
  have hback : .release r ∈ back := by
    rw [List.count_append, List.count_cons_self] at hmore
    exact List.count_pos_iff.mp (by omega)
  obtain ⟨front', back', rfl⟩ := List.append_of_mem hback
  have hlate := h (front ++ .release r :: front') (.release r) back' (by simp)
  exact hlate.2 (by simp)

/-- After its release a handle appears in no call. -/
theorem Lawful.not_after_release {log front back : List (Act ρ)} {a : Act ρ} (h : Lawful log)
    (heq : log = front ++ a :: back) : .release a.handle ∉ front := by
  have ha := h front a back heq
  cases a with
  | allocate r => exact fun hmem => ha _ hmem rfl
  | use r => exact ha.2
  | release r => exact ha.2

theorem Alive.concat {log : List (Act ρ)} {r : ρ} (h : Alive log r) {a : Act ρ}
    (ha : a ≠ .release r) : Alive (log ++ [a]) r := by
  refine ⟨List.mem_append_left _ h.1, ?_⟩
  rw [List.mem_append, List.mem_singleton, not_or]
  exact ⟨h.2, ha.symm⟩

theorem Fresh.not_alive {log : List (Act ρ)} {r : ρ} (h : Fresh log r) : ¬ Alive log r :=
  fun halive => h _ halive.1 rfl

/-! ## 2. Slots -/

variable {ι : Type}

/-- **Exclusive ownership**: what the slots hold is alive, and no handle is in two of them. -/
structure Exclusive (slot : ι → Option ρ) (log : List (Act ρ)) : Prop where
  lawful : Lawful log
  alive : ∀ i r, slot i = some r → Alive log r
  unique : ∀ i j r, slot i = some r → slot j = some r → i = j

namespace Exclusive

variable {slot slot' : ι → Option ρ} {log : List (Act ρ)} {i j : ι} {r : ρ}

theorem empty (h : Lawful log) : Exclusive (fun _ : ι => none) log where
  lawful := h
  alive i r hr := by cases hr
  unique i j r hr := by cases hr

theorem use (h : Exclusive slot log) (hr : slot i = some r) : Exclusive slot (log ++ [.use r]) where
  lawful := lawful_concat h.lawful (h.alive i r hr)
  alive j x hx := (h.alive j x hx).concat (by simp)
  unique := h.unique

/-- Slots whose contents come from different slots. -/
theorem relocate (h : Exclusive slot log) (source : ι → ι)
    (hsource : ∀ i r, slot' i = some r → slot (source i) = some r)
    (hinjective : ∀ i j, (slot' i).isSome → (slot' j).isSome → source i = source j → i = j) :
    Exclusive slot' log where
  lawful := h.lawful
  alive i x hx := h.alive _ x (hsource i x hx)
  unique i j x hi hj := by
    refine hinjective i j (by simp [hi]) (by simp [hj]) ?_
    exact h.unique _ _ x (hsource i x hi) (hsource j x hj)

variable [DecidableEq ι]

/-- A new handle replaces what is in a slot. -/
theorem allocate (h : Exclusive slot log) (hr : Fresh log r) (i : ι) :
    Exclusive (Function.update slot i (some r)) (log ++ [.allocate r]) := by
  have hother : ∀ {j x}, Function.update slot i (some r) j = some x → j ≠ i → slot j = some x := by
    intro j x hx hne
    rwa [Function.update_of_ne hne] at hx
  have hself : ∀ {j x}, Function.update slot i (some r) j = some x → j = i → x = r := by
    rintro j x hx rfl
    rw [Function.update_self] at hx
    exact (Option.some.inj hx).symm
  refine ⟨lawful_concat h.lawful hr, ?_, ?_⟩
  · intro j x hx
    by_cases hj : j = i
    · obtain rfl := hself hx hj
      refine ⟨by simp, ?_⟩
      rw [List.mem_append, List.mem_singleton, not_or]
      exact ⟨fun hmem => hr _ hmem rfl, by simp⟩
    · exact (h.alive j x (hother hx hj)).concat (by simp)
  · intro j k x hj hk
    by_cases hji : j = i <;> by_cases hki : k = i
    · rw [hji, hki]
    · obtain rfl := hself hj hji
      exact absurd (h.alive k x (hother hk hki)) hr.not_alive
    · obtain rfl := hself hk hki
      exact absurd (h.alive j x (hother hj hji)) hr.not_alive
    · exact h.unique j k x (hother hj hji) (hother hk hki)

/-- The handle of a slot is released, and the slot is empty. -/
theorem release (h : Exclusive slot log) (hr : slot i = some r) :
    Exclusive (Function.update slot i none) (log ++ [.release r]) := by
  have hother : ∀ {j x}, Function.update slot i none j = some x → j ≠ i ∧ slot j = some x := by
    intro j x hx
    by_cases hj : j = i
    · rw [hj, Function.update_self] at hx
      cases hx
    · rw [Function.update_of_ne hj] at hx
      exact ⟨hj, hx⟩
  refine ⟨lawful_concat h.lawful (h.alive i r hr), ?_, ?_⟩
  · intro j x hx
    refine (h.alive j x (hother hx).2).concat ?_
    rintro heq
    obtain rfl := Act.release.inj heq
    exact (hother hx).1 (h.unique j i _ (hother hx).2 hr)
  · intro j k x hj hk
    exact h.unique j k x (hother hj).2 (hother hk).2

end Exclusive

end Lifetimes
