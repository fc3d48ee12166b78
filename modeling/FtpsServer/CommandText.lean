import FtpsServer.Framing
import FtpsServer.PortGrammar

/-!
# What a client sends and what the parser makes of it

The round trip from a command and its argument over the line that carries them, and the
part the line terminator plays.  The parser reads words, so an argument comes back when
it is a word; and only PORT goes on reading after its last word, which fails when the
end of the line has set `eofbit` before.
-/

namespace FtpsServer

open ByteString Cxx

namespace FtpCommand

def BLANK : UInt8 := 32

/-! ## 1. The line terminator -/

/-- The line does not end in white space. -/
def EndsInWord (line : Bytes) : Prop := ∀ b, line.getLast? = some b → isSpace b = false

theorem endsInWord_iff (line : Bytes) :
    (line.getLast?.all fun b => !isSpace b) = true ↔ EndsInWord line := by
  unfold EndsInWord
  cases line.getLast? <;> simp

instance (line : Bytes) : Decidable (EndsInWord line) := decidable_of_iff _ (endsInWord_iff line)

theorem EndsInWord.suffix {line rest : Bytes} (h : EndsInWord line) (hsuffix : rest <:+ line)
    (hne : rest ≠ []) : EndsInWord rest := by
  rcases hsuffix with ⟨front, rfl⟩
  intro b hb
  apply h b
  rw [List.getLast?_append_of_ne_nil front hne]
  exact hb

theorem EndsInWord.word_ne_nil {line : Bytes} (h : EndsInWord line) (hne : line ≠ []) :
    word line ≠ [] := by
  intro hnil
  have hblank : line.dropWhile isSpace = [] := by
    rw [← word_append_afterWord, hnil, afterWord_of_word_nil hnil, List.append_nil]
  have hlast := List.getLast?_eq_some_getLast hne
  have hspace := List.dropWhile_eq_nil_iff.mp hblank _ (List.getLast_mem hne)
  rw [h _ hlast] at hspace
  cases hspace

/-- A terminator behind a word ends it, and is not part of it. -/
theorem word_append_crlf {line : Bytes} (h : EndsInWord line) (hne : line ≠ []) :
    word (line ++ CRLF) = word line ∧ afterWord (line ++ CRLF) = afterWord line ++ CRLF := by
  by_cases hcut : afterWord line = []
  · have hword := word_append_of_unterminated (h.word_ne_nil hne) hcut CRLF
    rw [hcut]
    refine ⟨hword.1.trans ?_, hword.2⟩
    rw [show CRLF.takeWhile (fun c => !isSpace c) = [] from rfl, List.append_nil]
  · exact word_append_of_terminated hcut CRLF

theorem afterWord_suffix (line : Bytes) : afterWord line <:+ line :=
  (List.dropWhile_suffix _).trans (List.dropWhile_suffix _)

section Terminator

variable {line : Bytes} (hend : EndsInWord line)

include hend

theorem word_line_crlf : word (line ++ CRLF) = word line := by
  by_cases hne : line = []
  · subst hne
    rfl
  · exact (word_append_crlf hend hne).1

/-- The second word does not see the terminator. -/
theorem word_afterWord_crlf :
    word (afterWord (line ++ CRLF)) = word (afterWord line) := by
  by_cases hne : line = []
  · subst hne
    rfl
  · rw [(word_append_crlf hend hne).2]
    by_cases hcut : afterWord line = []
    · rw [hcut]
      rfl
    · exact (word_append_crlf (hend.suffix (afterWord_suffix line) hcut) hcut).1

/-- A line with a second word is terminated with the terminator behind it. -/
theorem terminated_crlf_iff : Terminated (line ++ CRLF) ↔ afterWord line ≠ [] := by
  unfold Terminated
  by_cases hne : line = []
  · subst hne
    exact iff_of_false (not_not.mpr rfl) (not_not.mpr rfl)
  · rw [(word_append_crlf hend hne).2]
    by_cases hcut : afterWord line = []
    · rw [hcut]
      exact iff_of_false (not_not.mpr rfl) (not_not.mpr rfl)
    · rw [(word_append_crlf (hend.suffix (afterWord_suffix line) hcut) hcut).2]
      refine iff_of_true ?_ hcut
      exact List.append_ne_nil_of_right_ne_nil _ (by decide)

theorem ofCommandLine_crlf_of_ne_port (hport : lookup (word line) ≠ .port) :
    ofCommandLine (line ++ CRLF) = ofCommandLine line := by
  rw [ofCommandLine_eq, ofCommandLine_eq line, word_line_crlf hend, word_afterWord_crlf hend,
    if_neg hport, if_neg hport]

/-- With the terminator the fields are always read. -/
theorem ofCommandLine_crlf_port (hport : word line = ascii "PORT") :
    ofCommandLine (line ++ CRLF) = parseFields (InputStream.ofBytes (word (afterWord line))) := by
  have hport' : word (line ++ CRLF) = ascii "PORT" := (word_line_crlf hend).trans hport
  rw [ofCommandLine_port hport', word_afterWord_crlf hend]
  split
  · rfl
  · next hnot =>
    rw [terminated_crlf_iff hend, not_not] at hnot
    rw [hnot]
    rfl

end Terminator

/-- With and without the terminator the constructor raises, or makes the same command with
    the same arguments. -/
def SameOutcome (line : Bytes) : Prop :=
  (∃ e e', ofCommandLine line = .error e ∧ ofCommandLine (line ++ CRLF) = .error e') ∨
    ∃ input, ofCommandLine line = .ok input ∧ ofCommandLine (line ++ CRLF) = .ok input

theorem sameOutcome_of_eq {line : Bytes} (h : ofCommandLine (line ++ CRLF) = ofCommandLine line) :
    SameOutcome line := by
  cases hparsed : ofCommandLine line with
  | error e => exact Or.inl ⟨e, e, hparsed, h.trans hparsed⟩
  | ok input => exact Or.inr ⟨input, hparsed, h.trans hparsed⟩

theorem lookup_eq_port_iff {w : Bytes} : lookup w = .port ↔ w = ascii "PORT" := by
  constructor
  · intro h
    have hall : ∀ k ∈ FTP_MAP_COMMAND.map Prod.fst, lookup k = .port → k = ascii "PORT" := by decide
    exact hall w (mem_keys_of_lookup (by rw [h]; decide)) h
  · rintro rfl
    exact lookup_port

/-- **The terminator does not matter**, except to a PORT with a fifth field whose argument
    the end of the line cuts off. -/
theorem terminator_iff {line : Bytes} (hend : EndsInWord line) :
    SameOutcome line ↔
      ¬ (word line = ascii "PORT" ∧ ¬ Terminated line ∧ ¬ FewFields (word (afterWord line))) := by
  by_cases hport : word line = ascii "PORT"
  · by_cases hterminated : Terminated line
    · simp only [hterminated, not_true, false_and, and_false, not_false_eq_true, iff_true]
      apply sameOutcome_of_eq
      rw [ofCommandLine_crlf_port hend hport, ofCommandLine_port hport, if_pos hterminated]
    · simp only [hport, hterminated, not_false_eq_true, true_and, not_not]
      have hcut : ofCommandLine line = .ok ⟨.incomplete, []⟩ := by
        rw [ofCommandLine_port hport, if_neg hterminated]
      rw [← portTexts_eq_none_iff, ← parseFields_incomplete_iff,
        ← ofCommandLine_crlf_port hend hport]
      constructor
      · rintro (⟨e, e', herror, -⟩ | ⟨input, hplain, hcrlf⟩)
        · rw [hcut] at herror
          cases herror
        · rw [hcut] at hplain
          cases hplain
          exact hcrlf
      · intro hcrlf
        exact Or.inr ⟨_, hcut, hcrlf⟩
  · have hlookup : lookup (word line) ≠ .port := fun h => hport (lookup_eq_port_iff.mp h)
    simp only [hport, false_and, not_false_eq_true, iff_true]
    exact sameOutcome_of_eq (ofCommandLine_crlf_of_ne_port hend hlookup)

theorem terminator_iff_port :
    (SameOutcome (ascii "PORT 1,2,3,4,5,6") ↔
      ¬ (word (ascii "PORT 1,2,3,4,5,6") = ascii "PORT" ∧ ¬ Terminated (ascii "PORT 1,2,3,4,5,6") ∧
        ¬ FewFields (word (afterWord (ascii "PORT 1,2,3,4,5,6"))))) ∧
    (SameOutcome (ascii "PORT 1,2,3,4") ↔
      ¬ (word (ascii "PORT 1,2,3,4") = ascii "PORT" ∧ ¬ Terminated (ascii "PORT 1,2,3,4") ∧
        ¬ FewFields (word (afterWord (ascii "PORT 1,2,3,4"))))) :=
  ⟨terminator_iff (by decide), terminator_iff (by decide)⟩

/-- A PORT that is right with a terminator is incomplete without one. -/
theorem port_needs_terminator : ¬ ∀ line, EndsInWord line → SameOutcome line := by
  intro h
  have hplain : ofCommandLine (ascii "PORT 1,2,3,4,5,6") = .ok ⟨.incomplete, []⟩ := by rfl
  have hcrlf : ofCommandLine (ascii "PORT 1,2,3,4,5,6" ++ CRLF) =
      .ok ⟨.port, [ascii "1.2.3.4", ascii "1286"]⟩ := by rfl
  rcases h (ascii "PORT 1,2,3,4,5,6") (by decide) with ⟨e, e', herror, -⟩ | ⟨input, h1, h2⟩
  · rw [hplain] at herror
    cases herror
  · rw [hplain] at h1
    rw [hcrlf] at h2
    cases h1
    cases h2

/-! ## 2. Commands that are sent -/

/-- An argument as a client may send it: not empty, on one line, and with no blank at
    either end. -/
structure Argument where
  bytes : Bytes
  ne_nil : bytes ≠ []
  line : ∀ b ∈ bytes, b ≠ 13 ∧ b ≠ 10
  head : bytes.head? ≠ some BLANK
  last : bytes.getLast? ≠ some BLANK

/-- Neither an argument, nor PORT or SITE UTIME. -/
def isBare (command : FtpCommandT) : Bool :=
  !takesArgument command && command != .port && command != .siteUtime

/-- A command of the table other than PORT, with what belongs to it. -/
inductive Request where
  | bare (name : Bytes) (command : FtpCommandT) (entry : (name, command) ∈ FTP_MAP_COMMAND)
      (kind : isBare command = true)
  | argument (name : Bytes) (command : FtpCommandT) (entry : (name, command) ∈ FTP_MAP_COMMAND)
      (kind : takesArgument command = true) (sent : Argument)
  | siteUtime (name : Bytes) (entry : (name, .siteUtime) ∈ FTP_MAP_COMMAND)
      (time fileName : Argument)

namespace Request

/-- The line that is sent. -/
def text : Request → Bytes
  | .bare name _ _ _ => name ++ CRLF
  | .argument name _ _ _ sent => name ++ BLANK :: (sent.bytes ++ CRLF)
  | .siteUtime name _ time fileName =>
    name ++ BLANK :: (time.bytes ++ BLANK :: (fileName.bytes ++ CRLF))

/-- The command that is meant. -/
def meaning : Request → FtpCommand
  | .bare _ command _ _ => ⟨command, []⟩
  | .argument _ command _ _ sent => ⟨command, [sent.bytes]⟩
  | .siteUtime _ _ _ fileName => ⟨.siteUtime, [fileName.bytes]⟩

/-- No white space in the argument, and no name of two words. -/
def OneWord : Request → Prop
  | .bare .. => True
  | .argument _ _ _ _ sent => ∀ b ∈ sent.bytes, isSpace b = false
  | .siteUtime .. => False

end Request

/-- The names of one word are words, and found in the table. -/
theorem name_of_entry {name : Bytes} {command : FtpCommandT}
    (entry : (name, command) ∈ FTP_MAP_COMMAND) (hsite : command ≠ .siteUtime) :
    name ≠ [] ∧ (∀ b ∈ name, isSpace b = false) ∧ lookup name = command := by
  have hall : ∀ e ∈ FTP_MAP_COMMAND, e.2 ≠ .siteUtime →
      e.1 ≠ [] ∧ (e.1.all fun b => !isSpace b) = true ∧ lookup e.1 = e.2 := by decide
  rcases hall _ entry hsite with ⟨hne, hspace, hlookup⟩
  exact ⟨hne, by simpa using hspace, hlookup⟩

/-- The argument comes back as its first word. -/
theorem ofCommandLine_argument {name : Bytes} {command : FtpCommandT}
    (entry : (name, command) ∈ FTP_MAP_COMMAND) (kind : takesArgument command = true)
    (bytes : Bytes) :
    ofCommandLine (name ++ BLANK :: (bytes ++ CRLF)) =
      .ok ⟨command, [word (bytes ++ CRLF)]⟩ := by
  have hsite : command ≠ .siteUtime := by
    rintro rfl
    cases kind
  rcases name_of_entry entry hsite with ⟨hne, hspace, hlookup⟩
  rcases word_append_cons hne hspace (b := BLANK) (by decide) (bytes ++ CRLF) with ⟨hword, hafter⟩
  rw [ofCommandLine_eq, hword, hafter, hlookup, if_pos kind,
    (word_cons_of_space (b := BLANK) (by decide) _).1]

theorem word_argument_iff (argument : Argument) :
    word (argument.bytes ++ CRLF) = argument.bytes ↔ ∀ b ∈ argument.bytes, isSpace b = false := by
  constructor
  · intro h b hb
    rw [← h] at hb
    exact word_no_space _ b hb
  · intro h
    exact (word_append_cons argument.ne_nil h (b := 13) (by decide) [10]).1

theorem ofCommandLine_ne_siteUtime (line : Bytes) (arguments : List Bytes) :
    ofCommandLine line ≠ .ok ⟨.siteUtime, arguments⟩ := by
  intro h
  rcases command_of_ok h with hlookup | ⟨-, heq⟩
  · exact lookup_word_ne_siteUtime line hlookup.symm
  · cases heq

/-- **The parser recovers the command that was sent** exactly when its argument is one word
    and it is not SITE UTIME. -/
theorem parser_recovers_iff (r : Request) :
    ofCommandLine r.text = .ok r.meaning ↔ r.OneWord := by
  cases r with
  | bare name command entry kind =>
    have hsite : command ≠ .siteUtime := by
      rintro rfl
      cases kind
    have htakes : takesArgument command = false := by
      revert kind
      unfold isBare
      cases takesArgument command <;> simp
    have hport : command ≠ .port := by
      rintro rfl
      cases kind
    rcases name_of_entry entry hsite with ⟨hne, hspace, hlookup⟩
    have hword := (word_append_cons hne hspace (b := 13) (by decide) [10]).1
    refine iff_of_true ?_ trivial
    change ofCommandLine (name ++ 13 :: [10]) = _
    rw [ofCommandLine_eq, hword, hlookup, htakes, if_neg hport]
    rfl
  | argument name command entry kind sent =>
    rw [Request.text, ofCommandLine_argument entry kind, Request.meaning, Request.OneWord,
      ← word_argument_iff]
    simp
  | siteUtime name entry time fileName =>
    exact iff_of_false (ofCommandLine_ne_siteUtime _ _) id

/-- DELE of a name with a blank in it acts on the first part. -/
theorem dele_takes_first_part : ¬ ∀ r : Request, ofCommandLine r.text = .ok r.meaning := by
  intro h
  have hparsed := h (.argument (ascii "DELE") .dele (by decide) rfl
    ⟨ascii "my file", by decide, by simp [ascii], by decide, by decide⟩)
  have hcut : ofCommandLine (ascii "DELE my file\r\n") = .ok ⟨.dele, [ascii "my"]⟩ := by rfl
  rw [show Request.text _ = ascii "DELE my file\r\n" from by decide +kernel, hcut] at hparsed
  simp [Request.meaning, ascii] at hparsed

end FtpCommand

end FtpsServer
