import Mathlib.Data.Set.Defs
import Mathlib.Logic.Function.Basic

/-!
# A store of values

What a store is for, over any places and values: clients put something to a place, drop
what is there, move it to another place, or look what places have something.  Where values
may come, which of them may go, and what putting makes of a value, is fixed by the store.
-/

namespace KeyedStore

universe u v w x y

variable {κ : Type u} {α : Type v} {β : Type w} {φ : Type x} {ι : Type y}

/-- What is fixed in a store. -/
structure Layout (κ : Type u) (α : Type v) (β : Type w) (φ : Type x) where
  /-- What a place holds after something was put there. -/
  put : κ → Option α → β → Option α
  /-- A value may come to the place while there is none. -/
  free : κ → Bool
  /-- The value may leave the place, or make way for another one. -/
  leaves : κ → α → Bool
  /-- The places that are looked at together. -/
  inside : φ → Set κ

/-- A request of a client.  A name that leads nowhere stands for no place. -/
inductive Request (κ : Type u) (β : Type w) (φ : Type x) where
  | put (place : Option κ) (what : β)
  | drop (place : Option κ)
  | move (source target : Option κ)
  | look (folder : φ)

/-- What the client gets to know. -/
inductive Answer (κ : Type u) where
  | dropped (done : Bool)
  | moved (done : Bool)
  | seen (places : Set κ)

section Requests

variable (L : Layout κ α β φ)

/-- There is something at the place, and it may leave. -/
def drops (values : κ → Option α) (place : Option κ) : Bool :=
  place.any fun k => (values k).any (L.leaves k)

/-- A value may be brought to the place, over the one that is there. -/
def receives (values : κ → Option α) (k : κ) : Bool := (values k).elim (L.free k) (L.leaves k)

variable [DecidableEq κ]

/-- There is something to move, and it may go where it is to be; to where it is already, it
    goes anyway. -/
def moves (values : κ → Option α) (source target : Option κ) : Bool :=
  source.any fun k => target.any fun m =>
    (values k).isSome && (decide (k = m) || drops L values (some k) && receives L values m)

theorem moves_eq_true {values : κ → Option α} {source target : Option κ} :
    moves L values source target = true ↔ ∃ k m, source = some k ∧ target = some m ∧
      (values k).isSome = true ∧
        (k = m ∨ drops L values (some k) = true ∧ receives L values m = true) := by
  simp [moves, Option.any_eq_true]

/-- The store after a request. -/
def after (values : κ → Option α) : Request κ β φ → κ → Option α
  | .put (some k) what => Function.update values k (L.put k (values k) what)
  | .drop (some k) => if drops L values (some k) then Function.update values k none else values
  | .move (some k) (some m) =>
    if moves L values (some k) (some m) ∧ k ≠ m then
      Function.update (Function.update values m (values k)) k none
    else values
  | _ => values

@[simp] theorem after_put (values : κ → Option α) (k : κ) (what : β) :
    after L values (.put (some k) what) = Function.update values k (L.put k (values k) what) := rfl

theorem after_drop {values : κ → Option α} {k : κ} (h : drops L values (some k) = true) :
    after L values (.drop (some k) : Request κ β φ) = Function.update values k none := if_pos h

theorem after_drop_of_not {values : κ → Option α} {place : Option κ}
    (h : drops L values place = false) : after L values (.drop place : Request κ β φ) = values := by
  cases place with
  | none => rfl
  | some k => exact if_neg (by simp [h])

theorem after_move {values : κ → Option α} {k m : κ} (h : moves L values (some k) (some m) = true)
    (hne : k ≠ m) : after L values (.move (some k) (some m) : Request κ β φ) =
      Function.update (Function.update values m (values k)) k none := if_pos ⟨h, hne⟩

/-- Moving something to where it is does nothing. -/
theorem after_move_self (values : κ → Option α) (k : κ) :
    after L values (.move (some k) (some k) : Request κ β φ) = values :=
  if_neg fun hand => hand.2 rfl

theorem after_move_of_not {values : κ → Option α} {source target : Option κ}
    (h : moves L values source target = false) :
    after L values (.move source target : Request κ β φ) = values := by
  cases source with
  | none => rfl
  | some k =>
    cases target with
    | none => rfl
    | some m => exact if_neg (by simp [h])

/-- The answer to a request: putting has none. -/
def answer (values : κ → Option α) : Request κ β φ → Option (Answer κ)
  | .put _ _ => none
  | .drop place => some (.dropped (drops L values place))
  | .move source target => some (.moved (moves L values source target))
  | .look folder => some (.seen {k | k ∈ L.inside folder ∧ (values k).isSome})

/-- The store after the requests of any clients, one after the other. -/
def afterAll (values : κ → Option α) (requests : List (ι × Request κ β φ)) : κ → Option α :=
  requests.foldl (fun values r => after L values r.2) values

/-- What is asked and answered, with the client who asks. -/
def exchanges : (κ → Option α) → List (ι × Request κ β φ) → List (ι × Request κ β φ × Answer κ)
  | _, [] => []
  | values, (i, r) :: requests =>
    (answer L values r).toList.map (fun a => (i, r, a)) ++ exchanges (after L values r) requests

@[simp] theorem afterAll_nil (values : κ → Option α) :
    afterAll L values ([] : List (ι × Request κ β φ)) = values := rfl

@[simp] theorem afterAll_cons (values : κ → Option α) (i : ι) (r : Request κ β φ)
    (requests : List (ι × Request κ β φ)) :
    afterAll L values ((i, r) :: requests) = afterAll L (after L values r) requests := rfl

theorem afterAll_append (values : κ → Option α) (front back : List (ι × Request κ β φ)) :
    afterAll L values (front ++ back) = afterAll L (afterAll L values front) back :=
  List.foldl_append

theorem exchanges_append (values : κ → Option α) (front back : List (ι × Request κ β φ)) :
    exchanges L values (front ++ back) =
      exchanges L values front ++ exchanges L (afterAll L values front) back := by
  induction front generalizing values with
  | nil => rfl
  | cons r front ih =>
    rcases r with ⟨i, r⟩
    rw [List.cons_append, exchanges, ih, exchanges, afterAll_cons, List.append_assoc]

end Requests

/-! ### A place that is only put to -/

/-- A drop or a move that names the place. -/
def Request.Takes (k : κ) : Request κ β φ → Prop
  | .drop place => place = some k
  | .move source target => source = some k ∨ target = some k
  | _ => False

variable [DecidableEq κ]

instance (k : κ) : (r : Request κ β φ) → Decidable (r.Takes k)
  | .put _ _ => inferInstanceAs (Decidable False)
  | .drop place => inferInstanceAs (Decidable (place = some k))
  | .move source target => inferInstanceAs (Decidable (source = some k ∨ target = some k))
  | .look _ => inferInstanceAs (Decidable False)

/-- What a request puts to the place. -/
def Request.putTo (k : κ) : Request κ β φ → Option β
  | .put place what => if place = some k then some what else none
  | _ => none

variable (L : Layout κ α β φ)

theorem after_apply {values : κ → Option α} {k : κ} {r : Request κ β φ} (h : ¬ r.Takes k) :
    after L values r k = (r.putTo k).elim (values k) (L.put k (values k)) := by
  cases r with
  | put place what =>
    cases place with
    | none => rfl
    | some m =>
      by_cases heq : m = k
      · subst heq
        simp [after, Request.putTo]
      · have hne : k ≠ m := fun h' => heq h'.symm
        simp [after, Request.putTo, heq, Function.update_of_ne hne]
  | drop place =>
    cases place with
    | none => rfl
    | some m =>
      have hne : k ≠ m := by
        rintro rfl
        exact h rfl
      dsimp only [after, Request.putTo, Option.elim]
      split
      · exact Function.update_of_ne hne _ _
      · rfl
  | move source target =>
    cases source with
    | none => rfl
    | some m =>
      cases target with
      | none => rfl
      | some n =>
        have hne : k ≠ m := by
          rintro rfl
          exact h (Or.inl rfl)
        have hne' : k ≠ n := by
          rintro rfl
          exact h (Or.inr rfl)
        dsimp only [after, Request.putTo, Option.elim]
        split
        · rw [Function.update_of_ne hne, Function.update_of_ne hne']
        · rfl
  | look folder => rfl

/-- **Nothing that is put is lost or doubled**: a place that no request takes from, or moves
    to, has all that was put there, in order. -/
theorem afterAll_apply {values : κ → Option α} {k : κ} {requests : List (ι × Request κ β φ)}
    (h : ∀ r ∈ requests, ¬ r.2.Takes k) :
    afterAll L values requests k =
      (requests.filterMap fun r => r.2.putTo k).foldl (L.put k) (values k) := by
  induction requests generalizing values with
  | nil => rfl
  | cons r requests ih =>
    rcases r with ⟨i, r⟩
    rw [List.forall_mem_cons] at h
    rw [afterAll_cons, ih h.2, after_apply L h.1, List.filterMap_cons]
    cases r.putTo k with
    | none => rfl
    | some what => rfl

end KeyedStore
