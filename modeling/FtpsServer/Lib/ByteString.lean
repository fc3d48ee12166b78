import Mathlib.Data.List.TakeWhile

/-!
# Byte strings

A string of the C and C++ libraries is a list of bytes.  This file fixes the
few notions the readers and the path functions rest on: white space in the "C"
locale, and the C string that starts at an address (the bytes before the first
NUL).
-/

namespace ByteString

abbrev Bytes := List UInt8

/-- The bytes of an ASCII literal. -/
def ascii (s : String) : Bytes := s.toList.map fun c => c.toNat.toUInt8

def SLASH : UInt8 := 47
def DOT : UInt8 := 46
def COMMA : UInt8 := 44
def NUL : UInt8 := 0

/-- `isspace` in the "C" locale: blank, and `\t \n \v \f \r`. -/
def isSpace (b : UInt8) : Bool := b == 32 || (9 ≤ b && b ≤ 13)

/-- The C string at the start of `memory`: everything before the first NUL. -/
def cString (memory : Bytes) : Bytes := memory.takeWhile (· != NUL)

/-- What `dropWhile` leaves starts with a byte that fails the test. -/
theorem head_dropWhile {p : UInt8 → Bool} {l : Bytes} {b : UInt8} {bs : Bytes}
    (h : l.dropWhile p = b :: bs) : p b = false := by
  have hne : l.dropWhile p ≠ [] := by rw [h]; simp
  have hhead := List.head_dropWhile_not p hne
  simpa [h] using hhead

/-! ### C strings -/

@[simp] theorem cString_nil : cString [] = [] := rfl

theorem nul_not_mem_cString (memory : Bytes) : NUL ∉ cString memory := by
  intro h
  have := List.mem_takeWhile_imp h
  simp at this

theorem cString_eq_self {memory : Bytes} (h : NUL ∉ memory) : cString memory = memory := by
  apply List.takeWhile_eq_self_iff.mpr
  intro b hb
  have hne : b ≠ NUL := by
    intro heq
    exact h (heq ▸ hb)
  simpa using hne

theorem cString_append {front back : Bytes} (h : NUL ∉ front) :
    cString (front ++ back) = front ++ cString back := by
  apply List.takeWhile_append_of_pos
  intro b hb
  have hne : b ≠ NUL := by
    intro heq
    exact h (heq ▸ hb)
  simpa using hne

theorem cString_append_nul {front back : Bytes} (h : NUL ∉ front) :
    cString (front ++ NUL :: back) = front := by
  rw [cString_append h]
  simp [cString]

/-- A memory with a NUL in it splits at the first one. -/
theorem cString_split {memory : Bytes} (h : NUL ∈ memory) :
    ∃ rest, memory = cString memory ++ NUL :: rest := by
  have hsplit := List.takeWhile_append_dropWhile (p := (· != NUL)) (l := memory)
  cases hrest : memory.dropWhile (· != NUL) with
  | nil =>
    have hall := List.dropWhile_eq_nil_iff.mp hrest NUL h
    simp at hall
  | cons b bs =>
    have hb : b = NUL := by simpa using head_dropWhile hrest
    refine ⟨bs, ?_⟩
    rw [hrest, hb] at hsplit
    exact hsplit.symm

end ByteString
