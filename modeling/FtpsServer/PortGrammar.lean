import FtpsServer.MessageBytes

/-!
# The grammar of PORT

The argument of PORT is `h1,h2,h3,h4,p1,p2`, six decimal numbers that are bytes each.
The constructor of `ftp_command` checks none of this: it takes the fields as they
come, reuses the fifth when there is no sixth, and hands the two for the port to
`std::stoi`.
-/

namespace FtpsServer

open ByteString Cxx

/-! ## 1. Six numbers -/

/-- Decimal digits that denote a byte. -/
structure ByteField where
  digits : Bytes
  ne_nil : digits ≠ []
  isDigit : ∀ b ∈ digits, isDigit b = true
  le : digitsValue digits ≤ 255

namespace ByteField

def value (f : ByteField) : Nat := digitsValue f.digits

theorem not_mem (f : ByteField) {b : UInt8} (h : Cxx.isDigit b = false) : b ∉ f.digits := by
  intro hmem
  rw [f.isDigit b hmem] at h
  cases h

theorem comma_not_mem (f : ByteField) : COMMA ∉ f.digits := f.not_mem (by decide)

/-- Behind a field `>>` has nothing to cut off. -/
theorem word_digits (f : ByteField) : word f.digits = f.digits := by
  have hspace : ∀ b ∈ f.digits, isSpace b = false := fun b hb => not_isSpace_of_isDigit (f.isDigit b hb)
  have hskip : f.digits.dropWhile isSpace = f.digits := by
    cases hdigits : f.digits with
    | nil => rfl
    | cons b bs =>
      have hb := hspace b (by simp [hdigits])
      simp [hb]
  unfold word
  rw [hskip]
  exact List.takeWhile_eq_self_iff.mpr fun b hb => by simp [hspace b hb]

theorem stoi_digits (f : ByteField) : stoi f.digits = .ok f.value := by
  rcases stoi_of_digits f.ne_nil f.isDigit with ⟨hsign, htake⟩
  have hrange : INT_MIN ≤ (f.value : Int) ∧ (f.value : Int) ≤ INT_MAX := by
    have hle : f.value ≤ 255 := f.le
    simp only [INT_MIN, INT_MAX]
    omega
  unfold stoi
  rw [hsign]
  simp only [htake, f.ne_nil, if_false, Bool.false_eq_true]
  exact if_pos hrange

end ByteField

/-- The argument of PORT as the grammar has it. -/
structure HostPort where
  h1 : ByteField
  h2 : ByteField
  h3 : ByteField
  h4 : ByteField
  p1 : ByteField
  p2 : ByteField

namespace HostPort

def text (a : HostPort) : Bytes :=
  a.h1.digits ++ COMMA :: (a.h2.digits ++ COMMA :: (a.h3.digits ++ COMMA :: (a.h4.digits ++
    COMMA :: (a.p1.digits ++ COMMA :: a.p2.digits))))

/-- The address in the dotted notation. -/
def address (a : HostPort) : Bytes :=
  a.h1.digits ++ ascii "." ++ a.h2.digits ++ ascii "." ++ a.h3.digits ++ ascii "." ++ a.h4.digits

def port (a : HostPort) : Nat := a.p1.value * 256 + a.p2.value

theorem port_le (a : HostPort) : a.port ≤ 65535 := by
  have h1 : a.p1.value ≤ 255 := a.p1.le
  have h2 : a.p2.value ≤ 255 := a.p2.le
  unfold port
  omega

end HostPort

namespace FtpCommand

/-- What the grammar derives. -/
def IsHostPort (argument : Bytes) : Prop := ∃ a : HostPort, argument = a.text

theorem portTexts_text (a : HostPort) : portTexts a.text = some (a.p1.digits, a.p2.digits) := by
  have hfifth : afterCommas 4 a.text = some (a.p1.digits ++ COMMA :: a.p2.digits) := by
    unfold HostPort.text
    rw [afterCommas_append_comma a.h1.comma_not_mem, afterCommas_append_comma a.h2.comma_not_mem,
      afterCommas_append_comma a.h3.comma_not_mem, afterCommas_append_comma a.h4.comma_not_mem,
      afterCommas]
  rcases field_append_comma a.p1.comma_not_mem a.p2.digits with ⟨htake, hdrop⟩
  unfold portTexts
  rw [hfifth]
  simp [htake, hdrop, a.p2.word_digits, a.p2.ne_nil]

/-- A field behind the first one is joined by a dot. -/
theorem joinFields_next (f : ByteField) (n : Nat) (rest : Bytes) {address : Bytes}
    (hne : address ≠ []) :
    joinFields (n + 1) (f.digits ++ COMMA :: rest) address =
      joinFields n rest (address ++ ascii "." ++ f.digits) := by
  rw [joinFields_append_comma f.comma_not_mem, if_neg (by simpa using hne)]

theorem joinFields_text (a : HostPort) : joinFields 4 a.text [] = a.address := by
  unfold HostPort.text
  rw [joinFields_append_comma a.h1.comma_not_mem]
  change joinFields 3 _ a.h1.digits = _
  rw [joinFields_next a.h2 _ _ a.h1.ne_nil, joinFields_next a.h3 _ _ (by simp [a.h1.ne_nil]),
    joinFields_next a.h4 _ _ (by simp [a.h1.ne_nil]), joinFields, HostPort.address]

/-- **Six numbers are read as they are meant.** -/
theorem parseFields_text (a : HostPort) :
    parseFields (InputStream.ofBytes a.text) = .ok ⟨.port, [a.address, decimal a.port]⟩ := by
  have hport : stdToString (shiftOr a.p1.value a.p2.value) = decimal a.port := by
    have h1 : a.p1.value ≤ 255 := a.p1.le
    have h2 : a.p2.value ≤ 255 := a.p2.le
    rw [shiftOr_bytes (by omega) (by omega), stdToString_natCast, HostPort.port]
  rw [parseFields_eq, portTexts_text]
  simp only [a.p1.stoi_digits, a.p2.stoi_digits, joinFields_text]
  rw [← hport]
  rfl

/-! ## 2. Fewer than five fields -/

/-- The fifth comma-separated field is missing, or there is nothing in it and behind it. -/
def FewFields (argument : Bytes) : Prop :=
  argument.count COMMA < 4 ∨ argument.count COMMA = 4 ∧ argument.getLast? = some COMMA

instance (argument : Bytes) : Decidable (FewFields argument) := by
  unfold FewFields; infer_instance

theorem afterCommas_split {n : Nat} {s rest : Bytes} (h : afterCommas (n + 1) s = some rest) :
    ∃ front, s = front ++ COMMA :: rest := by
  induction n generalizing s with
  | zero =>
    unfold afterCommas at h
    cases hdrop : s.dropWhile fun b => b != COMMA with
    | nil => simp [hdrop] at h
    | cons b bs =>
      have hb : b = COMMA := by simpa using head_dropWhile hdrop
      have hsplit := List.takeWhile_append_dropWhile (p := fun b => b != COMMA) (l := s)
      simp only [hdrop, afterCommas, Option.some.injEq] at h
      rw [hdrop, hb, h] at hsplit
      exact ⟨_, hsplit.symm⟩
  | succ n ih =>
    rw [afterCommas] at h
    cases hdrop : s.dropWhile fun b => b != COMMA with
    | nil => simp [hdrop] at h
    | cons b bs =>
      have hsplit := List.takeWhile_append_dropWhile (p := fun b => b != COMMA) (l := s)
      rw [hdrop] at h
      rcases ih h with ⟨front, hfront⟩
      refine ⟨s.takeWhile (fun b => b != COMMA) ++ b :: front, ?_⟩
      rw [hdrop, hfront] at hsplit
      rw [List.append_assoc, List.cons_append]
      exact hsplit.symm

theorem portTexts_eq_none_iff (argument : Bytes) :
    portTexts argument = none ↔ FewFields argument := by
  have hcount := afterCommas_count 4 argument
  unfold portTexts FewFields
  cases hcommas : afterCommas 4 argument with
  | none =>
    rw [hcommas] at hcount
    exact iff_of_true rfl (Or.inl hcount)
  | some fifth =>
    rw [hcommas] at hcount
    dsimp only at hcount ⊢
    rcases afterCommas_split hcommas with ⟨front, rfl⟩
    by_cases hnil : fifth = []
    · subst hnil
      rw [if_pos rfl]
      refine iff_of_true rfl (Or.inr ⟨?_, by simp⟩)
      simpa using hcount.symm
    · rw [if_neg hnil]
      constructor
      · intro h
        split at h <;> cases h
      · rintro (hless | ⟨hfour, hlast⟩)
        · omega
        · -- the last comma would be one more in the fifth field
          have hmem : COMMA ∈ fifth := by
            rw [List.getLast?_append_of_ne_nil _ (List.cons_ne_nil _ _),
              List.getLast?_cons_of_ne_nil hnil] at hlast
            exact List.mem_of_getLast? hlast
          have hpos := List.count_pos_iff.mpr hmem
          omega

/-! ## 3. The lines of PORT -/

/-- What the grammar asks of a PORT line: six numbers make the command with the address and
    the port, and everything else is incomplete. -/
def FollowsGrammar (line : Bytes) : Prop :=
  (∀ a : HostPort, word (afterWord line) = a.text →
    a.port ≤ 65535 ∧ ofCommandLine line = .ok ⟨.port, [a.address, decimal a.port]⟩) ∧
  (¬ IsHostPort (word (afterWord line)) → ofCommandLine line = .ok ⟨.incomplete, []⟩)

/-- The weaker reading: a PORT that is accepted is one of the grammar. -/
def OnlyGrammatical (line : Bytes) : Prop :=
  (∀ input, ofCommandLine line = .ok input → input.command = .port →
    ∃ a : HostPort, word (afterWord line) = a.text ∧ a.port ≤ 65535 ∧
      input.getArgument 1 = .ok (decimal a.port)) ∧
  (¬ IsHostPort (word (afterWord line)) → ofCommandLine line = .ok ⟨.incomplete, []⟩)

/-- White space ends the argument, so that the stream is good when the fields are read. -/
def Terminated (line : Bytes) : Prop := afterWord (afterWord line) ≠ []

instance (line : Bytes) : Decidable (Terminated line) := by
  unfold Terminated; infer_instance

theorem lookup_port : lookup (ascii "PORT") = .port := by decide

section Port

variable {line : Bytes} (hport : word line = ascii "PORT")

include hport

theorem ofCommandLine_port :
    ofCommandLine line =
      if Terminated line then parseFields (InputStream.ofBytes (word (afterWord line)))
      else .ok ⟨.incomplete, []⟩ := by
  rw [ofCommandLine_eq, hport, lookup_port]
  unfold Terminated
  by_cases hend : afterWord (afterWord line) = [] <;> simp [takesArgument, hend]

theorem ofCommandLine_port_incomplete_iff :
    ofCommandLine line = .ok ⟨.incomplete, []⟩ ↔
      (Terminated line → FewFields (word (afterWord line))) := by
  rw [ofCommandLine_port hport]
  by_cases hend : Terminated line
  · simp only [hend, if_true, true_implies]
    rw [parseFields_incomplete_iff, portTexts_eq_none_iff]
  · simp [hend]

theorem followsGrammar_iff :
    FollowsGrammar line ↔
      (IsHostPort (word (afterWord line)) → Terminated line) ∧
      (¬ IsHostPort (word (afterWord line)) → Terminated line → FewFields (word (afterWord line))) := by
  unfold FollowsGrammar
  rw [ofCommandLine_port_incomplete_iff hport]
  refine and_congr_left fun _ => ?_
  rw [ofCommandLine_port hport]
  constructor
  · rintro hsix ⟨a, ha⟩
    by_contra hend
    have hparsed := (hsix a ha).2
    rw [if_neg hend] at hparsed
    cases hparsed
  · intro hend a ha
    rw [if_pos (hend ⟨a, ha⟩), ha]
    exact ⟨a.port_le, parseFields_text a⟩

theorem onlyGrammatical_iff :
    OnlyGrammatical line ↔
      (¬ IsHostPort (word (afterWord line)) → Terminated line → FewFields (word (afterWord line))) := by
  unfold OnlyGrammatical
  rw [ofCommandLine_port_incomplete_iff hport]
  refine ⟨fun h => h.2, fun h => ⟨?_, h⟩⟩
  intro input hinput haccepted
  by_cases hsix : IsHostPort (word (afterWord line))
  · rcases hsix with ⟨a, ha⟩
    rw [ofCommandLine_port hport] at hinput
    by_cases hend : Terminated line
    · rw [if_pos hend, ha, parseFields_text] at hinput
      cases hinput
      exact ⟨a, ha, a.port_le, rfl⟩
    · rw [if_neg hend] at hinput
      cases hinput
      cases haccepted
  · rw [(ofCommandLine_port_incomplete_iff hport).mpr (h hsix)] at hinput
    cases hinput
    cases haccepted

end Port

/-- **PORT is parsed by its grammar** exactly when white space ends six numbers, or the
    argument is something else and nothing ends it or it has no fifth field.  Without the
    first condition at least nothing but six numbers is accepted. -/
theorem port_grammar {line : Bytes} (hport : word line = ascii "PORT") :
    (FollowsGrammar line ↔
      (IsHostPort (word (afterWord line)) → Terminated line) ∧
      (¬ IsHostPort (word (afterWord line)) → Terminated line →
        FewFields (word (afterWord line)))) ∧
    (OnlyGrammatical line ↔
      (¬ IsHostPort (word (afterWord line)) → Terminated line →
        FewFields (word (afterWord line)))) :=
  ⟨followsGrammar_iff hport, onlyGrammatical_iff hport⟩

theorem port_grammar_lan :
    (FollowsGrammar (ascii "PORT 192,168,0,1,4,1\r\n") ↔
      (IsHostPort (word (afterWord (ascii "PORT 192,168,0,1,4,1\r\n"))) →
        Terminated (ascii "PORT 192,168,0,1,4,1\r\n")) ∧
      (¬ IsHostPort (word (afterWord (ascii "PORT 192,168,0,1,4,1\r\n"))) →
        Terminated (ascii "PORT 192,168,0,1,4,1\r\n") →
        FewFields (word (afterWord (ascii "PORT 192,168,0,1,4,1\r\n"))))) ∧
    (OnlyGrammatical (ascii "PORT 192,168,0,1,4,1\r\n") ↔
      (¬ IsHostPort (word (afterWord (ascii "PORT 192,168,0,1,4,1\r\n"))) →
        Terminated (ascii "PORT 192,168,0,1,4,1\r\n") →
        FewFields (word (afterWord (ascii "PORT 192,168,0,1,4,1\r\n"))))) :=
  port_grammar (by decide +kernel)

/-- Five numbers are accepted, with the last one as both bytes of the port: neither reading
    holds. -/
theorem port_takes_five :
    ¬ ∀ line, word line = ascii "PORT" → FollowsGrammar line ∨ OnlyGrammatical line := by
  intro h
  have hparsed : ofCommandLine (ascii "PORT 1,2,3,4,5\r\n") =
      .ok ⟨.port, [ascii "1.2.3.4", ascii "1285"]⟩ := by rfl
  have hnot : ¬ IsHostPort (word (afterWord (ascii "PORT 1,2,3,4,5\r\n"))) := by
    rintro ⟨a, ha⟩
    have hcount : a.text.count COMMA = 5 := by
      have hzero : ∀ f : ByteField, f.digits.count COMMA = 0 := fun f =>
        List.count_eq_zero.mpr f.comma_not_mem
      simp [HostPort.text, hzero]
    rw [← ha] at hcount
    exact absurd hcount (by decide +kernel)
  rcases h (ascii "PORT 1,2,3,4,5\r\n") (by decide +kernel) with hfollows | honly
  · rw [hfollows.2 hnot] at hparsed
    cases hparsed
  · rw [honly.2 hnot] at hparsed
    cases hparsed

end FtpCommand

end FtpsServer
