import FtpsServer.Lib.ByteString
import Mathlib.Algebra.Order.Ring.Int

/-!
# `std::istringstream`, `std::stoi` and `std::to_string`

The formatted input of the C++ library, as far as a line parser uses it: a
stream is the bytes not read yet and the two state bits a string stream can set.
`operator>>` and `std::getline` construct a sentry first; on a stream that is not
good the sentry fails, sets `failbit` and leaves the caller's string alone, which
is why both take the string that is there before.
-/

namespace Cxx

open ByteString

/-! ## 1. Exceptions and integers -/

/-- The standard exceptions of the partial functions modelled here. -/
inductive StdException where
  | invalidArgument
  | outOfRange
deriving DecidableEq, Repr

def INT_MIN : Int := -2147483648
def INT_MAX : Int := 2147483647

/-- `(high << 8) | low` on `int`. -/
def shiftOr (high low : Int) : Int :=
  (BitVec.ofInt 32 high <<< 8 ||| BitVec.ofInt 32 low).toInt

/-- `value + 1` on `int`, with the wrap-around of the machine. -/
def increment (value : Int) : Int := (BitVec.ofInt 32 (value + 1)).toInt

theorem bitVec_toInt_range (v : BitVec 32) : INT_MIN ≤ v.toInt ∧ v.toInt ≤ INT_MAX := by
  have hlt := v.toInt_lt
  have hle := v.le_toInt
  simp only [INT_MIN, INT_MAX]
  omega

theorem shiftOr_range (high low : Int) :
    INT_MIN ≤ shiftOr high low ∧ shiftOr high low ≤ INT_MAX :=
  bitVec_toInt_range _

theorem increment_eq {value : Int} (hlow : INT_MIN ≤ value) (hhigh : value < INT_MAX) :
    increment value = value + 1 := by
  unfold INT_MIN at hlow
  unfold INT_MAX at hhigh
  unfold increment
  rw [BitVec.toInt_ofInt]
  apply Int.bmod_eq_of_le <;> omega

/-- The two low bytes of an `int`, as `(value & 0xFF00) >> 8` and `value & 0x00FF` make
    them. -/
theorem low_bytes (bits : BitVec 32) :
    ((bits &&& 0xFF00#32).sshiftRight 8).toInt = ((bits.toNat / 256 % 256 : Nat) : Int) ∧
      (bits &&& 0x00FF#32).toInt = ((bits.toNat % 256 : Nat) : Int) := by
  have hlow : (bits &&& 0x00FF#32).toNat = bits.toNat % 256 := by
    rw [BitVec.toNat_and]
    exact Nat.and_two_pow_sub_one_eq_mod bits.toNat 8
  have hle : (bits &&& 0xFF00#32).toNat ≤ 0xFF00 := by
    rw [BitVec.toNat_and]
    exact Nat.and_le_right
  have hhigh : ((bits &&& 0xFF00#32).sshiftRight 8).toNat = bits.toNat / 256 % 256 := by
    rw [BitVec.sshiftRight_eq_of_msb_false (BitVec.msb_eq_false_iff_two_mul_lt.mpr (by omega)),
      BitVec.toNat_ushiftRight, BitVec.toNat_and, Nat.shiftRight_and_distrib,
      Nat.shiftRight_eq_div_pow]
    exact Nat.and_two_pow_sub_one_eq_mod (bits.toNat / 256) 8
  constructor
  · rw [BitVec.toInt_eq_toNat_of_lt, hhigh]
    rw [hhigh]
    omega
  · rw [BitVec.toInt_eq_toNat_of_lt, hlow]
    rw [hlow]
    omega

/-- Two bytes make a 16-bit number. -/
theorem shiftOr_bytes {high low : Nat} (hhigh : high < 256) (hlow : low < 256) :
    shiftOr high low = (high * 256 + low : Nat) := by
  have hor : (BitVec.ofInt 32 high <<< 8 ||| BitVec.ofInt 32 low).toNat = high * 256 + low := by
    rw [BitVec.toNat_or, BitVec.toNat_shiftLeft, BitVec.toNat_ofInt, BitVec.toNat_ofInt,
      Nat.shiftLeft_eq]
    have hshift : ((high : Int) % (2 ^ 32 : Nat)).toNat * 2 ^ 8 % 2 ^ 32 = high <<< 8 := by
      rw [Nat.shiftLeft_eq]
      omega
    have hsame : ((low : Int) % (2 ^ 32 : Nat)).toNat = low := by omega
    rw [hshift, hsame, ← Nat.shiftLeft_add_eq_or_of_lt (by omega), Nat.shiftLeft_eq]
  unfold shiftOr
  rw [BitVec.toInt_eq_toNat_of_lt, hor]
  rw [hor]
  omega

/-- `s.substr(position)`. -/
def substr (s : Bytes) (position : Nat) : Except StdException Bytes :=
  if position ≤ s.length then .ok (s.drop position) else .error .outOfRange

/-! ## 2. Decimal text -/

def MINUS : UInt8 := 45
def PLUS : UInt8 := 43

def isDigit (b : UInt8) : Bool := 48 ≤ b && b ≤ 57

/-- The number a run of digits denotes. -/
def digitsValue (digits : Bytes) : Nat :=
  digits.foldl (fun value b => value * 10 + (b.toNat - 48)) 0

/-- An optional sign, and what follows it. -/
def splitSign : Bytes → Bool × Bytes
  | [] => (false, [])
  | b :: rest => if b = MINUS then (true, rest) else if b = PLUS then (false, rest) else (false, b :: rest)

/-- `std::stoi` in base 10: white space, an optional sign, then as many digits as
    there are; what follows them is ignored. -/
def stoi (s : Bytes) : Except StdException Int :=
  let (negative, body) := splitSign (s.dropWhile isSpace)
  let digits := body.takeWhile isDigit
  if digits = [] then .error .invalidArgument
  else
    let value : Int := if negative then -(digitsValue digits : Int) else digitsValue digits
    if INT_MIN ≤ value ∧ value ≤ INT_MAX then .ok value else .error .outOfRange

/-- The decimal digits of a natural number. -/
def decimal (n : Nat) : Bytes := (Nat.toDigits 10 n).map fun c => c.toNat.toUInt8

/-- `std::to_string` of an `int`. -/
def stdToString (n : Int) : Bytes :=
  if n < 0 then MINUS :: decimal n.natAbs else decimal n.natAbs

theorem digitsValue_append (front : Bytes) (b : UInt8) :
    digitsValue (front ++ [b]) = digitsValue front * 10 + (b.toNat - 48) := by
  simp [digitsValue]

theorem digitChar_byte {d : Nat} (h : d < 10) :
    isDigit ((Nat.digitChar d).toNat.toUInt8) = true ∧
      ((Nat.digitChar d).toNat.toUInt8).toNat - 48 = d := by
  revert d
  decide

theorem decimal_of_lt {n : Nat} (h : n < 10) :
    decimal n = [(Nat.digitChar n).toNat.toUInt8] := by
  simp [decimal, Nat.toDigits_of_lt_base h]

theorem decimal_of_le {n : Nat} (h : 10 ≤ n) :
    decimal n = decimal (n / 10) ++ [(Nat.digitChar (n % 10)).toNat.toUInt8] := by
  simp [decimal, Nat.toDigits_of_base_le (by decide : 1 < 10) h]

theorem decimal_isDigit (n : Nat) : ∀ b ∈ decimal n, isDigit b = true := by
  induction n using Nat.strong_induction_on with
  | _ n ih =>
    intro b hb
    by_cases h : n < 10
    · rw [decimal_of_lt h, List.mem_singleton] at hb
      exact hb ▸ (digitChar_byte h).1
    · rw [decimal_of_le (Nat.not_lt.mp h), List.mem_append, List.mem_singleton] at hb
      rcases hb with hb | hb
      · exact ih (n / 10) (by omega) b hb
      · exact hb ▸ (digitChar_byte (Nat.mod_lt n (by decide))).1

theorem decimal_ne_nil (n : Nat) : decimal n ≠ [] := by
  simp [decimal]

theorem digitsValue_decimal (n : Nat) : digitsValue (decimal n) = n := by
  induction n using Nat.strong_induction_on with
  | _ n ih =>
    by_cases h : n < 10
    · rw [decimal_of_lt h]
      simpa [digitsValue] using (digitChar_byte h).2
    · rw [decimal_of_le (Nat.not_lt.mp h), digitsValue_append, ih (n / 10) (by omega),
        (digitChar_byte (Nat.mod_lt n (by decide))).2]
      omega

theorem not_isSpace_of_isDigit {b : UInt8} (h : isDigit b = true) : isSpace b = false := by
  simp only [isDigit, Bool.and_eq_true, decide_eq_true_eq, UInt8.le_iff_toNat_le] at h
  have h48 : (48 : UInt8).toNat = 48 := rfl
  simp only [isSpace, Bool.or_eq_false_iff, Bool.and_eq_false_iff, beq_eq_false_iff_ne,
    decide_eq_false_iff_not, UInt8.le_iff_toNat_le]
  refine ⟨?_, Or.inr ?_⟩
  · intro hb
    subst hb
    simp at h
  · have h13 : (13 : UInt8).toNat = 13 := rfl
    omega

theorem not_sign_of_isDigit {b : UInt8} (h : isDigit b = true) : b ≠ MINUS ∧ b ≠ PLUS := by
  constructor
  · rintro rfl
    exact absurd h (by decide)
  · rintro rfl
    exact absurd h (by decide)

theorem stoi_of_digits {digits : Bytes} (hne : digits ≠ []) (hdigits : ∀ b ∈ digits, isDigit b = true) :
    splitSign (digits.dropWhile isSpace) = (false, digits) ∧ digits.takeWhile isDigit = digits := by
  cases digits with
  | nil => exact absurd rfl hne
  | cons b bs =>
    have hb := hdigits b (by simp)
    refine ⟨?_, List.takeWhile_eq_self_iff.mpr hdigits⟩
    simp [not_isSpace_of_isDigit hb, splitSign, not_sign_of_isDigit hb]

/-- **`stoi` inverts `to_string`** on the range of `int`. -/
theorem stoi_stdToString {n : Int} (hmin : INT_MIN ≤ n) (hmax : n ≤ INT_MAX) :
    stoi (stdToString n) = .ok n := by
  rcases stoi_of_digits (decimal_ne_nil n.natAbs) (decimal_isDigit n.natAbs) with ⟨hsign, htake⟩
  unfold stoi stdToString
  by_cases hneg : n < 0
  · have habs : -((n.natAbs : Nat) : Int) = n := by omega
    have hminus : isSpace MINUS = false := by decide
    simp [hneg, hminus, splitSign, htake, decimal_ne_nil, digitsValue_decimal, hmin, hmax,
      show -|n| = n by rw [abs_of_neg hneg]; omega]
  · have habs : ((n.natAbs : Nat) : Int) = n := by omega
    rw [if_neg hneg, hsign]
    simp [htake, decimal_ne_nil, digitsValue_decimal, hmin, hmax, abs_of_nonneg (Int.not_lt.mp hneg)]

theorem isDigit_or_minus_of_mem {n : Int} {b : UInt8} (h : b ∈ stdToString n) :
    isDigit b = true ∨ b = MINUS := by
  unfold stdToString at h
  split at h
  · rcases List.mem_cons.mp h with rfl | hin
    · exact Or.inr rfl
    · exact Or.inl (decimal_isDigit _ b hin)
  · exact Or.inl (decimal_isDigit _ b h)

theorem not_mem_decimal {b : UInt8} (h : isDigit b = false) (n : Nat) : b ∉ decimal n := by
  intro hmem
  rw [decimal_isDigit n b hmem] at h
  cases h

theorem not_mem_stdToString {b : UInt8} (hdigit : isDigit b = false) (hminus : b ≠ MINUS) (n : Int) :
    b ∉ stdToString n := by
  intro h
  rcases isDigit_or_minus_of_mem h with hb | hb
  · rw [hb] at hdigit
    cases hdigit
  · exact hminus hb

@[simp] theorem stdToString_natCast (n : Nat) : stdToString n = decimal n := by
  simp [stdToString]

theorem decimal_injective {m n : Nat} (h : decimal m = decimal n) : m = n := by
  rw [← digitsValue_decimal m, h, digitsValue_decimal]

theorem minus_cons_ne_decimal (digits : Bytes) (n : Nat) : MINUS :: digits ≠ decimal n := by
  intro h
  have hdigit := decimal_isDigit n MINUS (h ▸ List.mem_cons_self)
  exact absurd hdigit (by decide)

/-- Different numbers have different texts. -/
theorem stdToString_injective {m n : Int} (h : stdToString m = stdToString n) : m = n := by
  unfold stdToString at h
  split at h
  · next hm =>
    split at h
    · next hn =>
      have habs := decimal_injective (List.cons.inj h).2
      omega
    · exact absurd h (minus_cons_ne_decimal _ _)
  · next hm =>
    split at h
    · exact absurd h.symm (minus_cons_ne_decimal _ _)
    · next hn =>
      have habs := decimal_injective h
      omega

/-! ## 3. String streams -/

/-- An input string stream: the bytes not read yet, `eofbit` and `failbit`. -/
structure InputStream where
  rest : Bytes
  eof : Bool
  fail : Bool
deriving DecidableEq, Repr

namespace InputStream

def ofBytes (s : Bytes) : InputStream := ⟨s, false, false⟩

def good (s : InputStream) : Bool := !s.eof && !s.fail

/-- `stream.str(s)`: a new buffer, and the state bits as they were. -/
def setStr (s : InputStream) (buffer : Bytes) : InputStream := { s with rest := buffer }

/-- `stream >> token`. -/
def extract (s : InputStream) (token : Bytes) : InputStream × Bytes :=
  if s.good then
    match s.rest.dropWhile isSpace with
    -- the sentry runs into the end while it skips white space
    | [] => (⟨[], true, true⟩, token)
    | b :: bs =>
      let rest := (b :: bs).dropWhile fun c => !isSpace c
      (⟨rest, rest.isEmpty, false⟩, (b :: bs).takeWhile fun c => !isSpace c)
  else ({ s with fail := true }, token)

/-- `std::getline(stream, token, delimiter)`. -/
def getline (s : InputStream) (delimiter : UInt8) (token : Bytes) : InputStream × Bytes :=
  if s.good then
    match s.rest.dropWhile fun c => c != delimiter with
    -- the end comes before a delimiter; nothing extracted is a failure
    | [] => (⟨[], true, s.rest.isEmpty⟩, s.rest)
    | _ :: rest => (⟨rest, false, false⟩, s.rest.takeWhile fun c => c != delimiter)
  else ({ s with fail := true }, token)

end InputStream

/-! ## 4. Words

What a sequence of `>>` reads off a string, without the state bits: the first
word, and what is left behind it. -/

/-- The first maximal run of bytes that are no white space. -/
def word (s : Bytes) : Bytes := (s.dropWhile isSpace).takeWhile fun c => !isSpace c

/-- What follows the first word: empty exactly when no white space ends it. -/
def afterWord (s : Bytes) : Bytes := (s.dropWhile isSpace).dropWhile fun c => !isSpace c

@[simp] theorem word_nil : word [] = [] := rfl
@[simp] theorem afterWord_nil : afterWord [] = [] := rfl

theorem word_no_space (s : Bytes) : ∀ b ∈ word s, isSpace b = false := by
  intro b hb
  simpa using List.mem_takeWhile_imp hb

theorem word_append_afterWord (s : Bytes) : word s ++ afterWord s = s.dropWhile isSpace :=
  List.takeWhile_append_dropWhile

theorem afterWord_of_word_nil {s : Bytes} (h : word s = []) : afterWord s = [] := by
  unfold word at h
  unfold afterWord
  cases hskip : s.dropWhile isSpace with
  | nil => rfl
  | cons b bs =>
    rw [hskip] at h
    simp [head_dropWhile hskip] at h

/-- `>>` on a good stream reads the first word; the end it runs into sets `eofbit`. -/
theorem extract_of_good {s : InputStream} (h : s.good = true) (token : Bytes) :
    s.extract token =
      if word s.rest = [] then (⟨[], true, true⟩, token)
      else (⟨afterWord s.rest, (afterWord s.rest).isEmpty, false⟩, word s.rest) := by
  unfold InputStream.extract word afterWord
  rw [if_pos h]
  cases hskip : s.rest.dropWhile isSpace with
  | nil => rfl
  | cons b bs =>
    have hb : isSpace b = false := head_dropWhile hskip
    simp [hb]

theorem extract_of_not_good {s : InputStream} (h : s.good = false) (token : Bytes) :
    s.extract token = ({ s with fail := true }, token) := by
  simp [InputStream.extract, h]

theorem getline_of_not_good {s : InputStream} (h : s.good = false) (delimiter : UInt8)
    (token : Bytes) : s.getline delimiter token = ({ s with fail := true }, token) := by
  simp [InputStream.getline, h]

/-- White space in front of a word is skipped. -/
theorem word_cons_of_space {b : UInt8} (hb : isSpace b = true) (s : Bytes) :
    word (b :: s) = word s ∧ afterWord (b :: s) = afterWord s := by
  simp [word, afterWord, hb]

/-- A word in front of white space. -/
theorem word_append_cons {w : Bytes} (hne : w ≠ []) (hw : ∀ b ∈ w, isSpace b = false) {b : UInt8}
    (hb : isSpace b = true) (rest : Bytes) :
    word (w ++ b :: rest) = w ∧ afterWord (w ++ b :: rest) = b :: rest := by
  have hskip : (w ++ b :: rest).dropWhile isSpace = w ++ b :: rest := by
    cases w with
    | nil => exact absurd rfl hne
    | cons c w => simp [hw c (by simp)]
  have hall : ∀ c ∈ w, (!isSpace c) = true := by
    intro c hc
    simp [hw c hc]
  unfold word afterWord
  rw [hskip, List.takeWhile_append_of_pos hall, List.dropWhile_append_of_pos hall]
  simp [hb]

/-- A word that white space ends does not see what is appended to the string. -/
theorem word_append_of_terminated {s : Bytes} (h : afterWord s ≠ []) (more : Bytes) :
    word (s ++ more) = word s ∧ afterWord (s ++ more) = afterWord s ++ more := by
  have hskip : (s ++ more).dropWhile isSpace = s.dropWhile isSpace ++ more := by
    apply List.dropWhile_append.trans
    have hne : (s.dropWhile isSpace).isEmpty = false := by
      cases hs : s.dropWhile isSpace with
      | nil => simp [afterWord, hs] at h
      | cons b bs => rfl
    simp [hne]
  have hafter : ((s.dropWhile isSpace).dropWhile fun c => !isSpace c).isEmpty = false := by
    simpa [afterWord] using h
  constructor
  · unfold word
    rw [hskip, List.takeWhile_append]
    have hlen : (List.takeWhile (fun c => !isSpace c) (s.dropWhile isSpace)).length ≠
        (s.dropWhile isSpace).length := by
      intro hlen
      have happend := congrArg List.length (word_append_afterWord s)
      rw [List.length_append] at happend
      have hzero : (afterWord s).length = 0 := by
        simp only [word] at happend
        omega
      exact h (List.length_eq_zero_iff.mp hzero)
    rw [if_neg hlen]
  · unfold afterWord
    rw [hskip, List.dropWhile_append, hafter]
    simp

/-- A word that the end of the string cuts off goes on in what is appended. -/
theorem word_append_of_unterminated {s : Bytes} (hne : word s ≠ []) (h : afterWord s = [])
    (more : Bytes) :
    word (s ++ more) = word s ++ more.takeWhile (fun c => !isSpace c) ∧
      afterWord (s ++ more) = more.dropWhile fun c => !isSpace c := by
  have hself : s.dropWhile isSpace = word s := by
    rw [← word_append_afterWord, h, List.append_nil]
  have hskip : (s ++ more).dropWhile isSpace = word s ++ more := by
    rw [List.dropWhile_append, hself]
    simp [hne]
  have hall : ∀ b ∈ word s, (!isSpace b) = true := by
    intro b hb
    simp [word_no_space s b hb]
  constructor
  · unfold word at hall ⊢
    rw [hskip]
    exact List.takeWhile_append_of_pos hall
  · unfold afterWord
    rw [hskip]
    exact List.dropWhile_append_of_pos hall

/-- A string without a word is white space, which `>>` skips. -/
theorem word_append_of_blank {s : Bytes} (h : word s = []) (more : Bytes) :
    word (s ++ more) = word more ∧ afterWord (s ++ more) = afterWord more := by
  have hnil : s.dropWhile isSpace = [] := by
    rw [← word_append_afterWord, h, afterWord_of_word_nil h, List.append_nil]
  have hskip : (s ++ more).dropWhile isSpace = more.dropWhile isSpace := by
    rw [List.dropWhile_append, hnil]
    rfl
  exact ⟨by unfold word; rw [hskip], by unfold afterWord; rw [hskip]⟩

end Cxx
