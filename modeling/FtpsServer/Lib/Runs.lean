import Mathlib.Data.List.Induction

/-!
# Runs of a fallible step function

A machine is a step function `σ → ι → Except ε σ`: one input takes one state to
the next, or aborts the whole machine.  The rules here are the ones a proof
about such a machine needs: a run over `xs ++ ys` is a run over `xs` and one over
`ys`, an invariant of the step is an invariant of every run, a property of
every step of a run can be replaced by another one that agrees with it step by
step, and a relation between two states that every step preserves relates the
ends of two runs over the same inputs.
-/

namespace Machine

variable {σ ι ε α β : Type}

/-! ### Peeling a bind apart -/

theorem bind_ok_iff {x : Except ε α} {f : α → Except ε β} {b : β} :
    (x >>= f) = .ok b ↔ ∃ a, x = .ok a ∧ f a = .ok b := by
  cases x with
  | error e => simp [bind, Except.bind]
  | ok a => simp [bind, Except.bind]

theorem bind_error_iff {x : Except ε α} {f : α → Except ε β} {e : ε} :
    (x >>= f) = .error e ↔ x = .error e ∨ ∃ a, x = .ok a ∧ f a = .error e := by
  cases x with
  | error e' => simp [bind, Except.bind]
  | ok a => simp [bind, Except.bind]

@[simp] theorem ok_bind (a : α) (f : α → Except ε β) : (Except.ok a >>= f) = f a := rfl

@[simp] theorem error_bind (e : ε) (f : α → Except ε β) :
    ((Except.error e : Except ε α) >>= f) = .error e := rfl

@[simp] theorem pure_ok_iff {a b : α} : (pure a : Except ε α) = .ok b ↔ a = b := by
  simp [pure, Except.pure]

/-! ### Postconditions -/

/-- What the computation returns, if it does, has the property `P`. -/
def Ensures (x : Except ε α) (P : α → Prop) : Prop := ∀ a, x = .ok a → P a

theorem ensures_ok {P : α → Prop} {a : α} (h : P a) : Ensures (.ok a : Except ε α) P := by
  intro b hb
  cases hb
  exact h

theorem ensures_error {P : α → Prop} (e : ε) : Ensures (.error e : Except ε α) P := by
  intro b hb
  cases hb

theorem ensures_bind {x : Except ε α} {f : α → Except ε β} {P : α → Prop} {Q : β → Prop}
    (hx : Ensures x P) (hf : ∀ a, P a → Ensures (f a) Q) : Ensures (x >>= f) Q := by
  intro b hb
  rcases bind_ok_iff.mp hb with ⟨a, ha, hlast⟩
  exact hf a (hx a ha) b hlast

theorem Ensures.mono {x : Except ε α} {P Q : α → Prop} (h : Ensures x P)
    (himp : ∀ a, P a → Q a) : Ensures x Q := fun a hx => himp a (h a hx)

theorem ensures_ite {P : α → Prop} {c : Prop} [Decidable c] {x y : Except ε α} (hx : Ensures x P)
    (hy : Ensures y P) : Ensures (if c then x else y) P := by
  split
  · exact hx
  · exact hy

/-! ### Runs -/

/-- Feed the inputs to the machine one after another. -/
def run (step : σ → ι → Except ε σ) : σ → List ι → Except ε σ
  | s, [] => .ok s
  | s, i :: is => step s i >>= fun s' => run step s' is

variable {step : σ → ι → Except ε σ}

theorem run_cons_ok {s s' : σ} {i : ι} {is : List ι} :
    run step s (i :: is) = .ok s' ↔ ∃ mid, step s i = .ok mid ∧ run step mid is = .ok s' :=
  bind_ok_iff

theorem run_append (s : σ) (xs ys : List ι) :
    run step s (xs ++ ys) = run step s xs >>= fun s' => run step s' ys := by
  induction xs generalizing s with
  | nil => rfl
  | cons x xs ih =>
    simp only [List.cons_append, run]
    cases step s x with
    | error e => rfl
    | ok s' => exact ih s'

theorem run_append_ok {s s' : σ} {xs ys : List ι} :
    run step s (xs ++ ys) = .ok s' ↔
      ∃ mid, run step s xs = .ok mid ∧ run step mid ys = .ok s' := by
  rw [run_append]
  exact bind_ok_iff

/-- A run by its last input. -/
theorem run_concat_ok {s s' : σ} {is : List ι} {i : ι} :
    run step s (is ++ [i]) = .ok s' ↔ ∃ mid, run step s is = .ok mid ∧ step mid i = .ok s' := by
  rw [run_append_ok]
  constructor
  · rintro ⟨mid, hmid, hlast⟩
    rcases run_cons_ok.mp hlast with ⟨next, hnext, hend⟩
    cases hend
    exact ⟨mid, hmid, hnext⟩
  · rintro ⟨mid, hmid, hlast⟩
    exact ⟨mid, hmid, run_cons_ok.mpr ⟨s', hlast, rfl⟩⟩

/-- The run ends in a state with the property `P`; this can be evaluated. -/
def reaches (step : σ → ι → Except ε σ) (s : σ) (is : List ι) (P : σ → Bool) : Bool :=
  match run step s is with
  | .ok s' => P s'
  | .error _ => false

theorem exists_of_reaches (s : σ) (is : List ι) (P : σ → Bool)
    (h : reaches step s is P = true) : ∃ s', run step s is = .ok s' ∧ P s' = true := by
  unfold reaches at h
  cases hrun : run step s is with
  | error e => simp [hrun] at h
  | ok s' => exact ⟨s', rfl, by simpa [hrun] using h⟩

/-- **The invariant rule.** -/
theorem run_invariant {Inv : σ → Prop}
    (hstep : ∀ s i s', Inv s → step s i = .ok s' → Inv s') :
    ∀ {is : List ι} {s s' : σ}, Inv s → run step s is = .ok s' → Inv s' := by
  intro is
  induction is with
  | nil =>
    intro s s' hs hrun
    cases hrun
    exact hs
  | cons i is ih =>
    intro s s' hs hrun
    rcases run_cons_ok.mp hrun with ⟨mid, hmid, hrest⟩
    exact ih (hstep s i mid hs hmid) hrest

/-! ### Properties of every step of a run -/

/-- `P mid i next` for every step `mid --i--> next` of the run from `s`. -/
def EveryStep (step : σ → ι → Except ε σ) (P : σ → ι → σ → Prop) (s : σ) (is : List ι) : Prop :=
  ∀ before i after mid next, is = before ++ i :: after →
    run step s before = .ok mid → step mid i = .ok next → P mid i next

theorem everyStep_nil {P : σ → ι → σ → Prop} {s : σ} : EveryStep step P s [] := by
  intro before i after mid next h
  simp at h

theorem everyStep_cons {P : σ → ι → σ → Prop} {s s' : σ} {i : ι} {is : List ι}
    (h : step s i = .ok s') :
    EveryStep step P s (i :: is) ↔ P s i s' ∧ EveryStep step P s' is := by
  constructor
  · intro hall
    refine ⟨hall [] i is s s' rfl rfl h, ?_⟩
    intro before j after mid next heq hrun hj
    exact hall (i :: before) j after mid next (by rw [heq]; rfl)
      (run_cons_ok.mpr ⟨s', h, hrun⟩) hj
  · rintro ⟨hfirst, hrest⟩ before j after mid next heq hrun hj
    cases before with
    | nil =>
      obtain ⟨rfl, rfl⟩ : i = j ∧ is = after := by simpa using heq
      cases hrun
      rw [h] at hj
      cases hj
      exact hfirst
    | cons k before =>
      obtain ⟨rfl, rfl⟩ : i = k ∧ is = before ++ j :: after := by simpa using heq
      rcases run_cons_ok.mp hrun with ⟨mid', hmid', hrun'⟩
      rw [h] at hmid'
      cases hmid'
      exact hrest before j after mid next rfl hrun' hj

theorem everyStep_append {P : σ → ι → σ → Prop} {s mid : σ} {front : List ι}
    (hrun : run step s front = .ok mid) (back : List ι) :
    EveryStep step P s (front ++ back) ↔ EveryStep step P s front ∧ EveryStep step P mid back := by
  induction front generalizing s with
  | nil =>
    cases hrun
    exact ⟨fun h => ⟨everyStep_nil, h⟩, And.right⟩
  | cons i front ih =>
    rcases run_cons_ok.mp hrun with ⟨s', hs', hrest⟩
    rw [List.cons_append, everyStep_cons hs', everyStep_cons hs', ih hrest, and_assoc]

/-- A test of every state and input of a run; this can be evaluated. -/
def allSteps (step : σ → ι → Except ε σ) (P : σ → ι → Bool) : σ → List ι → Bool
  | _, [] => true
  | s, i :: is =>
    P s i && match step s i with
      | .ok s' => allSteps step P s' is
      | .error _ => true

theorem everyStep_of_allSteps {P : σ → ι → Bool} {s : σ} {is : List ι}
    (h : allSteps step P s is = true) : EveryStep step (fun mid i _ => P mid i = true) s is := by
  induction is generalizing s with
  | nil => exact everyStep_nil
  | cons i is ih =>
    rw [allSteps, Bool.and_eq_true] at h
    cases hi : step s i with
    | ok s' =>
      rw [hi] at h
      exact (everyStep_cons hi).mpr ⟨h.1, ih h.2⟩
    | error e =>
      -- the run ends with its first input
      intro before j after mid next heq hrun hj
      cases before with
      | nil =>
        obtain ⟨rfl, -⟩ : i = j ∧ is = after := by simpa using heq
        cases hrun
        exact h.1
      | cons k before =>
        obtain ⟨rfl, -⟩ : i = k ∧ is = before ++ j :: after := by simpa using heq
        rcases run_cons_ok.mp hrun with ⟨mid', hmid', -⟩
        rw [hi] at hmid'
        cases hmid'

/-- `P before mid i next` for every step `mid --i--> next` of the run from `s`, where the
    inputs `before` have led to `mid`. -/
def EveryStepAfter (step : σ → ι → Except ε σ) (P : List ι → σ → ι → σ → Prop) (s : σ)
    (is : List ι) : Prop :=
  ∀ before i after mid next, is = before ++ i :: after →
    run step s before = .ok mid → step mid i = .ok next → P before mid i next

/-- An invariant of the state and the inputs that have led to it. -/
theorem run_history {Inv : List ι → σ → Prop} {s : σ}
    (hstep : ∀ before mid i next, Inv before mid → step mid i = .ok next →
      Inv (before ++ [i]) next)
    (hs : Inv [] s) {is : List ι} {s' : σ} (hrun : run step s is = .ok s') : Inv is s' := by
  induction is using List.reverseRecOn generalizing s' with
  | nil =>
    cases hrun
    exact hs
  | append_singleton is i ih =>
    rcases run_concat_ok.mp hrun with ⟨mid, hmid, hlast⟩
    exact hstep is mid i s' (ih hmid) hlast

theorem everyStepAfter_congr {P Q : List ι → σ → ι → σ → Prop} {s : σ} {is : List ι}
    (Inv : List ι → σ → Prop)
    (hstep : ∀ before mid i next, Inv before mid → step mid i = .ok next →
      Inv (before ++ [i]) next)
    (hs : Inv [] s)
    (hiff : ∀ before mid i next, Inv before mid → step mid i = .ok next →
      (P before mid i next ↔ Q before mid i next)) :
    EveryStepAfter step P s is ↔ EveryStepAfter step Q s is := by
  constructor
  · intro hP before i after mid next heq hrun hi
    apply (hiff before mid i next (run_history hstep hs hrun) hi).mp
    exact hP before i after mid next heq hrun hi
  · intro hQ before i after mid next heq hrun hi
    apply (hiff before mid i next (run_history hstep hs hrun) hi).mpr
    exact hQ before i after mid next heq hrun hi

/-- `P before mid i` for every input `i` the run from `s` comes to in a state `mid`, where the
    inputs `before` have led to `mid`. -/
def EveryInputAfter (step : σ → ι → Except ε σ) (P : List ι → σ → ι → Prop) (s : σ)
    (is : List ι) : Prop :=
  ∀ before i after mid, is = before ++ i :: after → run step s before = .ok mid → P before mid i

theorem everyInputAfter_congr {P Q : List ι → σ → ι → Prop} {s : σ} {is : List ι}
    (Inv : List ι → σ → Prop)
    (hstep : ∀ before mid i next, Inv before mid → step mid i = .ok next →
      Inv (before ++ [i]) next)
    (hs : Inv [] s) (hiff : ∀ before mid i, Inv before mid → (P before mid i ↔ Q before mid i)) :
    EveryInputAfter step P s is ↔ EveryInputAfter step Q s is := by
  constructor
  · intro hP before i after mid heq hrun
    exact (hiff before mid i (run_history hstep hs hrun)).mp (hP before i after mid heq hrun)
  · intro hQ before i after mid heq hrun
    exact (hiff before mid i (run_history hstep hs hrun)).mpr (hQ before i after mid heq hrun)

/-- Two step properties that agree under an invariant hold of the same runs. -/
theorem everyStep_congr {P Q : σ → ι → σ → Prop} (Inv : σ → Prop)
    (hinv : ∀ s i s', Inv s → step s i = .ok s' → Inv s')
    (hiff : ∀ s i s', Inv s → step s i = .ok s' → (P s i s' ↔ Q s i s'))
    {s : σ} {is : List ι} (hs : Inv s) :
    EveryStep step P s is ↔ EveryStep step Q s is :=
  everyStepAfter_congr (fun _ => Inv) (fun _ => hinv) hs fun _ => hiff

theorem EveryStep.mono {P Q : σ → ι → σ → Prop} (h : ∀ s i s', P s i s' → Q s i s')
    {s : σ} {is : List ι} (hP : EveryStep step P s is) : EveryStep step Q s is :=
  fun before i after mid next heq hrun hi => h _ _ _ (hP before i after mid next heq hrun hi)

/-- `P mid i` for every input `i` the run from `s` comes to in a state `mid`, whether the step
    returns or not. -/
def EveryInput (step : σ → ι → Except ε σ) (P : σ → ι → Prop) (s : σ) (is : List ι) : Prop :=
  ∀ before i after mid, is = before ++ i :: after → run step s before = .ok mid → P mid i

/-- An invariant that a step keeps when it has the property `P`. -/
theorem run_invariant_of_everyStep {P : σ → ι → σ → Prop} {Inv : σ → Prop}
    (hstep : ∀ s i s', Inv s → step s i = .ok s' → P s i s' → Inv s') :
    ∀ {is : List ι} {s s' : σ}, Inv s → EveryStep step P s is →
      run step s is = .ok s' → Inv s' := by
  intro is
  induction is with
  | nil =>
    intro s s' hs _ hrun
    cases hrun
    exact hs
  | cons i is ih =>
    intro s s' hs hall hrun
    rcases run_cons_ok.mp hrun with ⟨mid, hmid, hrest⟩
    obtain ⟨hfirst, hlater⟩ := (everyStep_cons hmid).mp hall
    exact ih (hstep s i mid hs hmid hfirst) hlater hrest

/-- `P` of every state the run from `s` reaches. -/
def EveryState (step : σ → ι → Except ε σ) (P : σ → Prop) (s : σ) (is : List ι) : Prop :=
  ∀ before s', before <+: is → run step s before = .ok s' → P s'

theorem EveryStep.front {P : σ → ι → σ → Prop} {s : σ} {front back : List ι}
    (h : EveryStep step P s (front ++ back)) : EveryStep step P s front := by
  intro before i after mid next heq hrun hi
  apply h before i (after ++ back) mid next _ hrun hi
  rw [heq, List.append_assoc, List.cons_append]

theorem EveryStep.concat {P : σ → ι → σ → Prop} {s mid : σ} {is : List ι} {i : ι}
    (h : EveryStep step P s is) (hrun : run step s is = .ok mid)
    (hlast : ∀ next, step mid i = .ok next → P mid i next) : EveryStep step P s (is ++ [i]) := by
  intro before j after mid' next heq hbefore hj
  rcases List.eq_nil_or_concat after with rfl | ⟨after', k, rfl⟩
  · obtain ⟨rfl, rfl⟩ : is = before ∧ i = j := by simpa using heq
    rw [hrun] at hbefore
    cases hbefore
    exact hlast next hj
  · have hfront : is = before ++ j :: after' := by
      rw [List.concat_eq_append, ← List.cons_append, ← List.append_assoc] at heq
      exact (List.append_inj' heq rfl).1
    exact h before j after' mid' next hfront hbefore hj

/-- **States by their steps.**  Where, from a state with the property `P`, a step leads to
    another one exactly when it has the property `Q`, all states of a run have `P`
    exactly when all its steps have `Q`. -/
theorem everyState_iff_everyStep {P : σ → Prop} {Q : σ → ι → σ → Prop} (Inv : σ → Prop)
    (hinv : ∀ s i s', Inv s → step s i = .ok s' → Inv s')
    (hiff : ∀ s i s', Inv s → P s → step s i = .ok s' → (P s' ↔ Q s i s'))
    {s : σ} (hs : Inv s) (hP : P s) (is : List ι) :
    EveryState step P s is ↔ EveryStep step Q s is := by
  constructor
  · intro hall before i after mid next heq hrun hi
    have hlater : run step s (before ++ [i]) = .ok next := run_concat_ok.mpr ⟨mid, hrun, hi⟩
    apply (hiff mid i next (run_invariant hinv hs hrun) _ hi).mp
    · exact hall (before ++ [i]) next ⟨after, by rw [heq]; simp⟩ hlater
    · exact hall before mid ⟨i :: after, heq.symm⟩ hrun
  · rintro hsteps before s' ⟨after, rfl⟩ hrun
    have hstep : ∀ mid i next, Inv mid ∧ P mid → step mid i = .ok next → Q mid i next →
        Inv next ∧ P next := by
      rintro mid i next ⟨hmid, hPmid⟩ hi hQ
      exact ⟨hinv mid i next hmid hi, (hiff mid i next hmid hPmid hi).mpr hQ⟩
    exact (run_invariant_of_everyStep hstep ⟨hs, hP⟩ hsteps.front hrun).2

/-! ### Two runs side by side -/

section Pairs

variable {τ γ δ : Type}

/-- Both abort in the same way, or both go on and `R` relates the results. -/
def Related (R : α → β → Prop) : Except ε α → Except ε β → Prop
  | .ok a, .ok b => R a b
  | .error e, .error e' => e = e'
  | _, _ => False

namespace Related

variable {R : α → β → Prop} {S : γ → δ → Prop} {x : Except ε α} {y : Except ε β}

theorem mono {R' : α → β → Prop} (h : Related R x y) (hsub : ∀ a b, R a b → R' a b) :
    Related R' x y := by
  cases x <;> cases y
  · exact h
  · exact h.elim
  · exact h.elim
  · exact hsub _ _ h

theorem bind_of_ok {f : α → Except ε γ} {g : β → Except ε δ} (h : Related R x y)
    (hf : ∀ a b, x = .ok a → R a b → Related S (f a) (g b)) : Related S (x >>= f) (y >>= g) := by
  cases x <;> cases y
  · exact h
  · exact h.elim
  · exact h.elim
  · exact hf _ _ rfl h

theorem bind {f : α → Except ε γ} {g : β → Except ε δ} (h : Related R x y)
    (hf : ∀ a b, R a b → Related S (f a) (g b)) : Related S (x >>= f) (y >>= g) :=
  h.bind_of_ok fun a b _ => hf a b

theorem same {f : α → Except ε γ} {g : α → Except ε δ} (x : Except ε α)
    (hf : ∀ a, Related S (f a) (g a)) : Related S (x >>= f) (x >>= g) := by
  cases x with
  | error e => rfl
  | ok a => exact hf a

theorem ite {p : Prop} [Decidable p] {x' : Except ε α} {y' : Except ε β}
    (h : p → Related R x y) (h' : ¬ p → Related R x' y') :
    Related R (if p then x else x') (if p then y else y') := by
  split
  · next hp => exact h hp
  · next hp => exact h' hp

theorem of_ok_left {a : α} (h : Related R (.ok a : Except ε α) y) : ∃ b, y = .ok b ∧ R a b := by
  cases y with
  | error e => exact h.elim
  | ok b => exact ⟨b, rfl, h⟩

theorem of_error_left {e : ε} (h : Related R (.error e) y) : y = .error e := by
  cases y with
  | error e' => exact congrArg Except.error (Eq.symm h)
  | ok b => exact h.elim

end Related

variable {step' : τ → ι → Except ε τ}

/-- After every prefix of the inputs the two machines have aborted in the same way, or `R`
    relates their states. -/
def Abreast (R : σ → τ → Prop) (step : σ → ι → Except ε σ) (step' : τ → ι → Except ε τ)
    (s : σ) (t : τ) (is : List ι) : Prop :=
  ∀ before, before <+: is → Related R (run step s before) (run step' t before)

theorem abreast_nil {R : σ → τ → Prop} {s : σ} {t : τ} : Abreast R step step' s t [] ↔ R s t := by
  constructor
  · intro h
    exact h [] List.nil_prefix
  · intro h before hbefore
    obtain rfl := List.prefix_nil.mp hbefore
    exact h

theorem abreast_cons {R : σ → τ → Prop} {s : σ} {t : τ} {i : ι} {is : List ι} :
    Abreast R step step' s t (i :: is) ↔
      R s t ∧ Related (fun s' t' => Abreast R step step' s' t' is) (step s i) (step' t i) := by
  constructor
  · intro h
    refine ⟨h [] List.nil_prefix, ?_⟩
    have hone := h [i] ⟨is, rfl⟩
    simp only [run] at hone
    cases hs : step s i with
    | error e =>
      cases ht : step' t i with
      | error e' =>
        simp only [hs, ht, error_bind] at hone
        exact hone
      | ok t' => simp [hs, ht, Related] at hone
    | ok s' =>
      cases ht : step' t i with
      | error e' => simp [hs, ht, Related] at hone
      | ok t' =>
        intro before hbefore
        have hlater := h (i :: before) (List.cons_prefix_cons.mpr ⟨rfl, hbefore⟩)
        simpa only [run, hs, ht, ok_bind] using hlater
  · rintro ⟨hR, hfirst⟩ before hbefore
    cases before with
    | nil => exact hR
    | cons k before =>
      rcases List.cons_prefix_cons.mp hbefore with ⟨rfl, hrest⟩
      exact hfirst.bind fun s' t' hlater => hlater before hrest

end Pairs

end Machine
