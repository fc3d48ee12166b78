import Mathlib.Order.Lattice
import Mathlib.Data.List.Basic

/-!
# `std::map`

A map of the C++ library as the list of its entries in the order in which an iterator
visits them, which is the order of the keys.  `insert` of a key that is there does
nothing, and says so only in the part of its result that callers tend to ignore.
-/

namespace Cxx.StdMap

variable {κ α : Type} [LinearOrder κ]

/-- Strictly in the order of the keys. -/
def Ordered (m : List (κ × α)) : Prop := m.Pairwise fun x y => x.1 < y.1

/-- `m.insert(std::pair(k, a))`. -/
def insert (k : κ) (a : α) : List (κ × α) → List (κ × α)
  | [] => [(k, a)]
  | entry :: rest =>
    if k < entry.1 then (k, a) :: entry :: rest
    else if k = entry.1 then entry :: rest
    else entry :: insert k a rest

/-- A key has one value. -/
theorem Ordered.unique {m : List (κ × α)} (h : Ordered m) {k : κ} {a b : α} (ha : (k, a) ∈ m)
    (hb : (k, b) ∈ m) : a = b := by
  induction m with
  | nil => cases ha
  | cons entry rest ih =>
    rcases List.pairwise_cons.mp h with ⟨hfirst, hrest⟩
    rcases List.mem_cons.mp ha with rfl | hina
    · rcases List.mem_cons.mp hb with heq | hinb
      · exact (Prod.ext_iff.mp heq).2.symm
      · exact absurd (hfirst (k, b) hinb) (lt_irrefl k)
    · rcases List.mem_cons.mp hb with rfl | hinb
      · exact absurd (hfirst (k, a) hina) (lt_irrefl k)
      · exact ih hrest hina hinb

/-- **What is in a map after an insertion**: what was there, and the new entry when its key
    was free. -/
theorem mem_insert {m : List (κ × α)} (h : Ordered m) (k : κ) (a : α) (x : κ × α) :
    x ∈ insert k a m ↔ x ∈ m ∨ (x = (k, a) ∧ ∀ b, (k, b) ∉ m) := by
  induction m with
  | nil => simp [insert]
  | cons entry rest ih =>
    rcases List.pairwise_cons.mp h with ⟨hfirst, hrest⟩
    unfold insert
    by_cases hbefore : k < entry.1
    · rw [if_pos hbefore]
      have hfree : ∀ b, (k, b) ∉ entry :: rest := by
        intro b hb
        rcases List.mem_cons.mp hb with rfl | hb
        · exact lt_irrefl k hbefore
        · exact lt_irrefl k (lt_trans hbefore (hfirst (k, b) hb))
      rw [List.mem_cons]
      constructor
      · rintro (rfl | hx)
        · exact Or.inr ⟨rfl, hfree⟩
        · exact Or.inl hx
      · rintro (hx | ⟨rfl, -⟩)
        · exact Or.inr hx
        · exact Or.inl rfl
    · rw [if_neg hbefore]
      by_cases hsame : k = entry.1
      · rw [if_pos hsame]
        constructor
        · exact Or.inl
        · rintro (hx | ⟨-, hfree⟩)
          · exact hx
          · subst hsame
            exact absurd List.mem_cons_self (hfree entry.2)
      · rw [if_neg hsame, List.mem_cons, ih hrest, List.mem_cons, or_assoc]
        have hkeys : (∀ b, (k, b) ∉ entry :: rest) ↔ ∀ b, (k, b) ∉ rest := by
          refine forall_congr' fun b => not_congr ?_
          rw [List.mem_cons, or_iff_right]
          rintro rfl
          exact hsame rfl
        rw [hkeys]

theorem Ordered.insert {m : List (κ × α)} (h : Ordered m) (k : κ) (a : α) :
    Ordered (insert k a m) := by
  induction m with
  | nil => exact List.pairwise_singleton _ _
  | cons entry rest ih =>
    rcases List.pairwise_cons.mp h with ⟨hfirst, hrest⟩
    unfold StdMap.insert
    by_cases hbefore : k < entry.1
    · rw [if_pos hbefore]
      refine List.pairwise_cons.mpr ⟨?_, h⟩
      intro x hx
      rcases List.mem_cons.mp hx with rfl | hx
      · exact hbefore
      · exact lt_trans hbefore (hfirst x hx)
    · rw [if_neg hbefore]
      by_cases hsame : k = entry.1
      · rw [if_pos hsame]
        exact h
      · rw [if_neg hsame]
        refine List.pairwise_cons.mpr ⟨?_, ih hrest⟩
        intro x hx
        rcases (mem_insert hrest k a x).mp hx with hx | ⟨rfl, -⟩
        · exact hfirst x hx
        · exact lt_of_le_of_ne (not_lt.mp hbefore) (Ne.symm hsame)

/-- The keys of a selection of entries are all different. -/
theorem Ordered.keys_nodup {m : List (κ × α)} (h : Ordered m) (p : κ × α → Bool) :
    ((m.filter p).map Prod.fst).Nodup := by
  have hfilter : Ordered (m.filter p) := List.Pairwise.filter p h
  exact List.pairwise_map.mpr (hfilter.imp ne_of_lt)

theorem Ordered.nodup {m : List (κ × α)} (h : Ordered m) : m.Nodup := by
  refine h.imp ?_
  rintro x _ hlt rfl
  exact lt_irrefl x.1 hlt

end Cxx.StdMap
