import Mathlib.Data.List.Infix

/-!
# Streams of lines

A stream of lines that end with a mark of two different symbols.  A reader cuts the
stream behind every mark and gets the lines, and a tail that no mark ends.  It gets back
the messages a writer sent exactly when each of them ends with a mark and has no other.
-/

namespace Lines

variable {α : Type}

structure Mark (α : Type) where
  first : α
  second : α
  ne : first ≠ second

namespace Mark

variable (m : Mark α)

def symbols : List α := [m.first, m.second]

/-- The line ends with the mark, and has no mark before. -/
def IsLine (line : List α) : Prop := ∃ body, line = body ++ m.symbols ∧ ¬ m.symbols <:+: body

/-- A symbol before the first line, or before the tail if there is no line. -/
def extend (a : α) : List (List α) × List α → List (List α) × List α
  | ([], tail) => ([], a :: tail)
  | (line :: lines, tail) => ((a :: line) :: lines, tail)

/-- The lines of a stream, and its tail. -/
def cut [DecidableEq α] : List α → List (List α) × List α
  | [] => ([], [])
  | [a] => ([], [a])
  | a :: b :: stream =>
    if a = m.first ∧ b = m.second then ([a, b] :: (cut stream).1, (cut stream).2)
    else extend a (cut (b :: stream))

/-! ## 1. Marks inside -/

variable {m}

theorem not_infix_of_not_mem {body : List α} (h : m.first ∉ body) : ¬ m.symbols <:+: body :=
  fun hpart => h (hpart.subset (by simp [symbols]))

theorem infix_cons_iff {a : α} {body : List α} :
    m.symbols <:+: a :: body ↔ (a = m.first ∧ body.head? = some m.second) ∨ m.symbols <:+: body := by
  rw [List.infix_cons_iff, symbols]
  apply or_congr_left
  cases body with
  | nil => simp
  | cons b body => simp [List.cons_prefix_cons, eq_comm]

/-- No mark starts in front. -/
theorem infix_append_iff {front body : List α} (h : m.first ∉ front) :
    m.symbols <:+: front ++ body ↔ m.symbols <:+: body := by
  induction front with
  | nil => rfl
  | cons a front ih =>
    rw [List.mem_cons, not_or] at h
    rw [List.cons_append, infix_cons_iff, ih h.2]
    exact or_iff_right fun hmark => h.1 hmark.1.symm

theorem isLine_append_iff {body : List α} : m.IsLine (body ++ m.symbols) ↔ ¬ m.symbols <:+: body := by
  constructor
  · rintro ⟨body', heq, hnone⟩
    rwa [List.append_cancel_right heq]
  · exact fun hnone => ⟨body, rfl, hnone⟩

/-! ## 2. Cutting -/

variable [DecidableEq α]

/-- The lines and the tail are the stream. -/
theorem cut_flatten (stream : List α) : (m.cut stream).1.flatten ++ (m.cut stream).2 = stream := by
  induction stream using Mark.cut.induct (m := m) with
  | case1 => rfl
  | case2 a => rfl
  | case3 a b stream hmark ih => simp [cut, hmark, ih]
  | case4 a b stream hmark ih =>
    rw [cut, if_neg hmark]
    rcases hcut : m.cut (b :: stream) with ⟨lines, tail⟩
    rw [hcut] at ih
    cases lines with
    | nil => simpa [extend] using ih
    | cons line lines => simpa [extend] using ih

theorem isLine_of_mem_cut {stream line : List α} (h : line ∈ (m.cut stream).1) : m.IsLine line := by
  induction stream using Mark.cut.induct (m := m) generalizing line with
  | case1 => cases h
  | case2 a => cases h
  | case3 a b stream hmark ih =>
    rw [cut, if_pos hmark, List.mem_cons] at h
    rcases h with rfl | h
    · exact ⟨[], by simp [symbols, hmark], by simp [symbols]⟩
    · exact ih h
  | case4 a b stream hmark ih =>
    rw [cut, if_neg hmark] at h
    have hstream := m.cut_flatten (b :: stream)
    rcases hcut : m.cut (b :: stream) with ⟨lines, tail⟩
    rw [hcut] at h ih hstream
    cases lines with
    | nil => cases h
    | cons line' lines =>
      rcases List.mem_cons.mp h with rfl | h
      · -- the first line goes on with `b`
        rcases ih (List.mem_cons_self ..) with ⟨body, rfl, hnone⟩
        refine ⟨a :: body, rfl, ?_⟩
        rw [infix_cons_iff, not_or]
        refine ⟨?_, hnone⟩
        rintro ⟨ha, hb⟩
        cases body with
        | nil => cases hb
        | cons c body =>
          obtain rfl : c = b := by
            simp only [List.flatten_cons, List.cons_append, List.cons.injEq] at hstream
            exact hstream.1
          exact hmark ⟨ha, Option.some.inj hb⟩
      · exact ih (List.mem_cons_of_mem _ h)

theorem cut_line {line : List α} (h : m.IsLine line) (rest : List α) :
    m.cut (line ++ rest) = (line :: (m.cut rest).1, (m.cut rest).2) := by
  rcases h with ⟨body, rfl, hnone⟩
  induction body with
  | nil => simp [symbols, cut]
  | cons a body ih =>
    rw [infix_cons_iff, not_or] at hnone
    have hrest := ih hnone.2
    cases body with
    | nil =>
      have hmark : ¬ (a = m.first ∧ m.first = m.second) := fun hboth => m.ne hboth.2
      simp only [List.nil_append, symbols, List.cons_append] at hrest ⊢
      rw [cut, if_neg hmark, hrest]
      rfl
    | cons b body =>
      have hmark : ¬ (a = m.first ∧ b = m.second) :=
        fun hboth => hnone.1 ⟨hboth.1, congrArg some hboth.2⟩
      simp only [List.cons_append] at hrest ⊢
      rw [cut, if_neg hmark, hrest]
      rfl

/-- **A reader gets back the messages** exactly when all of them are lines. -/
theorem cut_flatten_iff {messages : List (List α)} :
    m.cut messages.flatten = (messages, []) ↔ ∀ message ∈ messages, m.IsLine message := by
  constructor
  · intro h message hmem
    have hcut : message ∈ (m.cut messages.flatten).1 := by rwa [h]
    exact isLine_of_mem_cut hcut
  · intro h
    induction messages with
    | nil => rfl
    | cons message messages ih =>
      rw [List.flatten_cons, cut_line (h message (by simp)), ih fun l hl => h l (by simp [hl])]

theorem isLine_iff {line : List α} : m.IsLine line ↔ m.cut line = ([line], []) := by
  have hone : m.cut [line].flatten = ([line], []) ↔ ∀ message ∈ [line], m.IsLine message :=
    cut_flatten_iff
  simpa using hone.symm

instance (line : List α) : Decidable (m.IsLine line) := decidable_of_iff _ isLine_iff.symm

end Mark

end Lines
