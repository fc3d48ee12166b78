import Mathlib.Data.List.Perm.Subperm

/-!
# Descriptor tables and ownership logs

Two notions a program that passes descriptors around needs.  A `Table` holds the
descriptor numbers that are open; the kernel hands out the lowest free one.  They are
integers, since a call that fails returns -1 for one.  An
ownership log records who obtained a resource, who passed it on to whom, who used
it and who gave it up; the log is `Clean` when every use, every passing on and every
giving up was by the owner of that moment.
-/

namespace Ownership

/-! ## 1. Descriptor tables -/

/-- The open descriptor numbers. -/
structure Table where
  opened : List Int
deriving DecidableEq, Repr

namespace Table

/-- POSIX: the lowest number from 0 on that is not open. -/
def lowestFree (t : Table) : Int :=
  Int.ofNat (((List.range (t.opened.length + 1)).find? fun n =>
    !t.opened.contains (Int.ofNat n)).getD t.opened.length)

def allocate (t : Table) : Table := ⟨t.lowestFree :: t.opened⟩

def release (t : Table) (n : Int) : Table := ⟨t.opened.filter (· != n)⟩

/-- Among `length + 1` numbers one is free, so the search succeeds. -/
theorem exists_free (t : Table) :
    ∃ n ∈ List.range (t.opened.length + 1), Int.ofNat n ∉ t.opened := by
  by_contra hall
  have hsub : (List.range (t.opened.length + 1)).map Int.ofNat ⊆ t.opened := by
    intro m hm
    rcases List.mem_map.mp hm with ⟨n, hn, rfl⟩
    by_contra hnot
    exact hall ⟨n, hn, hnot⟩
  have hnodup : ((List.range (t.opened.length + 1)).map Int.ofNat).Nodup :=
    List.Pairwise.map Int.ofNat (fun _ _ hne heq => hne (Int.ofNat.inj heq)) List.nodup_range
  have hle := (List.subperm_of_subset hnodup hsub).length_le
  rw [List.length_map, List.length_range] at hle
  omega

theorem lowestFree_not_mem (t : Table) : t.lowestFree ∉ t.opened := by
  unfold lowestFree
  cases hfind : (List.range (t.opened.length + 1)).find? fun n =>
      !t.opened.contains (Int.ofNat n) with
  | none =>
    rcases t.exists_free with ⟨n, hn, hfree⟩
    have hopen := List.find?_eq_none.mp hfind n hn
    rw [Bool.not_eq_true, Bool.not_eq_false', List.contains_iff_mem] at hopen
    exact absurd hopen hfree
  | some n =>
    have hfree := List.find?_some hfind
    rw [Bool.not_eq_true', ← Bool.not_eq_true, List.contains_iff_mem] at hfree
    exact hfree

theorem lowestFree_nonneg (t : Table) : 0 ≤ t.lowestFree := Int.natCast_nonneg _

@[simp] theorem mem_allocate (t : Table) (n : Int) :
    n ∈ t.allocate.opened ↔ n = t.lowestFree ∨ n ∈ t.opened := by
  simp [allocate]

@[simp] theorem mem_release (t : Table) (n m : Int) :
    n ∈ (t.release m).opened ↔ n ∈ t.opened ∧ n ≠ m := by
  simp [release]

end Table

/-! ## 2. Ownership logs -/

/-- What a party does with a resource. -/
inductive Act (ω ρ : Type) where
  | obtain (owner : ω) (resource : ρ)
  | pass (source target : ω) (resource : ρ)
  | use (owner : ω) (resource : ρ)
  | giveUp (owner : ω) (resource : ρ)
deriving DecidableEq, Repr

section Logs

variable {ω ρ : Type} [DecidableEq ω] [DecidableEq ρ]

/-- Who owns what after one more act. -/
def after (owner : ρ → Option ω) : Act ω ρ → ρ → Option ω
  | .obtain o r => fun x => if x = r then some o else owner x
  | .pass s t r => fun x => if x = r ∧ owner r = some s then some t else owner x
  | .use _ _ => owner
  | .giveUp o r => fun x => if x = r ∧ owner r = some o then none else owner x

/-- Who owns what at the end of a log. -/
def owner (log : List (Act ω ρ)) : ρ → Option ω := log.foldl after fun _ => none

/-- The act is by the owner of its resource. -/
def ByOwner (owner : ρ → Option ω) : Act ω ρ → Prop
  | .obtain _ _ => True
  | .pass _ _ _ => True
  | .use o r => owner r = some o
  | .giveUp o r => owner r = some o

instance (owner : ρ → Option ω) (a : Act ω ρ) : Decidable (ByOwner owner a) := by
  cases a <;> unfold ByOwner <;> infer_instance

/-- **Every use and every giving up in the log is by the owner of that moment.** -/
def Clean (log : List (Act ω ρ)) : Prop :=
  ∀ front a back, log = front ++ a :: back → ByOwner (owner front) a

@[simp] theorem owner_nil (r : ρ) : owner ([] : List (Act ω ρ)) r = none := rfl

theorem owner_concat (log : List (Act ω ρ)) (a : Act ω ρ) :
    owner (log ++ [a]) = after (owner log) a := by
  simp [owner]

section OneMore

variable (log : List (Act ω ρ)) (o target : ω) (r x : ρ)

theorem owner_obtain :
    owner (log ++ [.obtain o r]) x = if x = r then some o else owner log x := by
  rw [owner_concat]
  rfl

theorem owner_pass :
    owner (log ++ [.pass o target r]) x =
      if x = r ∧ owner log r = some o then some target else owner log x := by
  rw [owner_concat]
  rfl

theorem owner_use : owner (log ++ [.use o r]) x = owner log x := by
  rw [owner_concat]
  rfl

theorem owner_giveUp :
    owner (log ++ [.giveUp o r]) x =
      if x = r ∧ owner log r = some o then none else owner log x := by
  rw [owner_concat]
  rfl

end OneMore

theorem clean_nil : Clean ([] : List (Act ω ρ)) := by
  intro front a back h
  simp at h

theorem Clean.front {front back : List (Act ω ρ)} (h : Clean (front ++ back)) : Clean front := by
  intro pre a post heq
  exact h pre a (post ++ back) (by rw [heq]; simp)

theorem clean_concat {log : List (Act ω ρ)} {a : Act ω ρ} :
    Clean (log ++ [a]) ↔ Clean log ∧ ByOwner (owner log) a := by
  constructor
  · intro h
    exact ⟨h.front, h log a [] rfl⟩
  · rintro ⟨hlog, ha⟩ front b back heq
    rcases List.eq_nil_or_concat back with hnil | ⟨back', c, hback⟩
    · subst hnil
      rcases List.append_inj' heq rfl with ⟨rfl, hab⟩
      obtain rfl : a = b := by simpa using hab
      exact ha
    · have heq' : log ++ [a] = (front ++ b :: back') ++ [c] := by
        rw [heq, hback]
        simp
      rcases List.append_inj' heq' rfl with ⟨hfront, -⟩
      exact hlog front b back' hfront

/-- Several more acts, checked one after another. -/
theorem clean_append_cons {log rest : List (Act ω ρ)} {a : Act ω ρ} :
    Clean (log ++ a :: rest) ↔ ByOwner (owner log) a ∧ Clean ((log ++ [a]) ++ rest) := by
  rw [List.append_assoc, List.singleton_append]
  constructor
  · intro h
    exact ⟨h log a rest rfl, h⟩
  · exact And.right

/-! ### Evaluating a log -/

/-- `Clean` from the owners `current` on, as a test. -/
def check (current : ρ → Option ω) : List (Act ω ρ) → Bool
  | [] => true
  | a :: rest => decide (ByOwner current a) && check (after current a) rest

theorem check_owner_iff (log rest : List (Act ω ρ)) (hlog : Clean log) :
    check (owner log) rest = true ↔ Clean (log ++ rest) := by
  induction rest generalizing log with
  | nil => simp [check, hlog]
  | cons a rest ih =>
    rw [check, Bool.and_eq_true, decide_eq_true_eq, clean_append_cons, ← owner_concat]
    constructor
    · rintro ⟨ha, hrest⟩
      exact ⟨ha, (ih _ (clean_concat.mpr ⟨hlog, ha⟩)).mp hrest⟩
    · rintro ⟨ha, hrest⟩
      exact ⟨ha, (ih _ hrest.front).mpr hrest⟩

theorem clean_iff_check (log : List (Act ω ρ)) : Clean log ↔ check (fun _ => none) log = true :=
  (check_owner_iff [] log clean_nil).symm

end Logs

/-! ## 3. Logs beside a table -/

section Sound

variable {ω : Type} [DecidableEq ω] {reserved : Int → Prop} {log : List (Act ω Int)} {t : Table}
  {o : ω} {r : Int}

/-- The log is clean, what is owned is open, and the reserved numbers are open and
    nobody's. -/
structure Sound (reserved : Int → Prop) (log : List (Act ω Int)) (t : Table) : Prop where
  clean : Clean log
  opened : ∀ r o, owner log r = some o → r ∈ t.opened
  standard : ∀ r, reserved r → r ∈ t.opened ∧ owner log r = none

namespace Sound

theorem owner_fresh (h : Sound reserved log t) : owner log t.lowestFree = none := by
  cases howner : owner log t.lowestFree with
  | none => rfl
  | some o => exact absurd (h.opened _ _ howner) t.lowestFree_not_mem

theorem not_reserved_fresh (h : Sound reserved log t) : ¬ reserved t.lowestFree :=
  fun hreserved => t.lowestFree_not_mem (h.standard _ hreserved).1

theorem not_reserved_of_owner (h : Sound reserved log t) (ho : owner log r = some o) :
    ¬ reserved r := by
  intro hreserved
  rw [(h.standard r hreserved).2] at ho
  cases ho

theorem allocate (h : Sound reserved log t) : Sound reserved log t.allocate where
  clean := h.clean
  opened := fun r o ho => (t.mem_allocate r).mpr (Or.inr (h.opened r o ho))
  standard := fun r hr => ⟨(t.mem_allocate r).mpr (Or.inr (h.standard r hr).1), (h.standard r hr).2⟩

theorem obtain' (h : Sound reserved log t) (hopen : r ∈ t.opened) (hfree : ¬ reserved r) (o : ω) :
    Sound reserved (log ++ [.obtain o r]) t where
  clean := clean_concat.mpr ⟨h.clean, trivial⟩
  opened := by
    intro x o' ho
    rw [owner_obtain] at ho
    split at ho
    · next heq => rwa [heq]
    · exact h.opened x o' ho
  standard := by
    intro x hx
    refine ⟨(h.standard x hx).1, ?_⟩
    rw [owner_obtain, if_neg (fun heq : x = r => hfree (heq ▸ hx))]
    exact (h.standard x hx).2

theorem use (h : Sound reserved log t) (ho : owner log r = some o) :
    Sound reserved (log ++ [.use o r]) t where
  clean := clean_concat.mpr ⟨h.clean, ho⟩
  opened := fun x o' hx => h.opened x o' (by rwa [owner_use] at hx)
  standard := fun x hx => ⟨(h.standard x hx).1, by rw [owner_use]; exact (h.standard x hx).2⟩

/-- Passing on what one does not own changes nothing. -/
theorem pass (h : Sound reserved log t) (o target : ω) (r : Int) :
    Sound reserved (log ++ [.pass o target r]) t where
  clean := clean_concat.mpr ⟨h.clean, trivial⟩
  opened := by
    intro x o' hx
    rw [owner_pass] at hx
    split at hx
    · next heq => exact heq.1 ▸ h.opened r o heq.2
    · exact h.opened x o' hx
  standard := by
    intro x hx
    obtain ⟨hopen, hnone⟩ := h.standard x hx
    refine ⟨hopen, ?_⟩
    rw [owner_pass, if_neg, hnone]
    rintro ⟨rfl, howner⟩
    rw [hnone] at howner
    cases howner

theorem giveUp (h : Sound reserved log t) (ho : owner log r = some o) :
    Sound reserved (log ++ [.giveUp o r]) (t.release r) where
  clean := clean_concat.mpr ⟨h.clean, ho⟩
  opened := by
    intro x o' hx
    rw [owner_giveUp] at hx
    split at hx
    · cases hx
    · next hne =>
      exact (t.mem_release x r).mpr ⟨h.opened x o' hx, fun heq => hne ⟨heq, ho⟩⟩
  standard := by
    intro x hx
    have hne : x ≠ r := by
      intro heq
      exact h.not_reserved_of_owner ho (heq ▸ hx)
    refine ⟨(t.mem_release x r).mpr ⟨(h.standard x hx).1, hne⟩, ?_⟩
    rw [owner_giveUp, if_neg (fun heq => hne heq.1)]
    exact (h.standard x hx).2

end Sound

end Sound

end Ownership
