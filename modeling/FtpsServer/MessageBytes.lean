import FtpsServer.SessionThread

/-!
# What of the buffer a command depends on

The parser reads the string up to the first NUL, so the bytes behind a message belong
to its last word when nothing in the message ends that word.  This module says for
which messages the command is the one of the message's own bytes.
-/

namespace FtpsServer

open ByteString Cxx

namespace FtpCommand

/-! ## 1. Lines that say everything themselves -/

def COMMAND_WORDS : List Bytes :=
  (FTP_MAP_COMMAND.map Prod.fst).filter fun key => key.all fun b => !isSpace b

def readsArgument (command : FtpCommandT) : Prop := takesArgument command = true ∨ command = .port

instance (command : FtpCommandT) : Decidable (readsArgument command) := by
  unfold readsArgument; infer_instance

/-- **A settled line**: white space ends every word the parser reads, or the first word
    is cut off and no command word begins with it. -/
def Settled (line : Bytes) : Prop :=
  if afterWord line = [] then ∀ key ∈ COMMAND_WORDS, ¬ word line <+: key
  else readsArgument (lookup (word line)) → afterWord (afterWord line) ≠ []

instance (line : Bytes) : Decidable (Settled line) := by
  unfold Settled; infer_instance

theorem mem_COMMAND_WORDS {line : Bytes} (h : lookup (word line) ≠ .unknown) :
    word line ∈ COMMAND_WORDS := by
  refine List.mem_filter.mpr ⟨mem_keys_of_lookup h, ?_⟩
  rw [List.all_eq_true]
  intro b hb
  simp [word_no_space line b hb]

/-- The command of a line is the one of its first word, or an incomplete PORT. -/
theorem command_of_ok {line : Bytes} {input : FtpCommand} (h : ofCommandLine line = .ok input) :
    input.command = lookup (word line) ∨
      lookup (word line) = .port ∧ input = ⟨.incomplete, []⟩ := by
  rw [ofCommandLine_eq] at h
  split at h
  · cases h
    exact Or.inl rfl
  · split at h
    · next hport =>
      split at h
      · cases h
        exact Or.inr ⟨hport, rfl⟩
      · rcases parseFields_port h with rfl | ⟨address, high, low, rfl⟩
        · exact Or.inr ⟨hport, rfl⟩
        · exact Or.inl hport.symm
    · cases h
      exact Or.inl rfl

theorem ofCommandLine_unknown_iff (line : Bytes) :
    ofCommandLine line = .ok ⟨.unknown, []⟩ ↔ lookup (word line) = .unknown := by
  constructor
  · intro h
    rcases command_of_ok h with hunknown | ⟨-, heq⟩
    · exact hunknown.symm
    · cases heq
  · intro h
    rw [ofCommandLine_eq, h]
    rfl

/-- Words that are not cut off do not see what follows the line. -/
theorem ofCommandLine_append_of_settled {line : Bytes} (h : Settled line) (more : Bytes) :
    ofCommandLine (line ++ more) = ofCommandLine line := by
  unfold Settled at h
  by_cases hcut : afterWord line = []
  · rw [if_pos hcut] at h
    have hne : word line ≠ [] := by
      intro hnil
      exact h (ascii "USER") (by decide) (hnil ▸ List.nil_prefix)
    rcases word_append_of_unterminated hne hcut more with ⟨hword, -⟩
    have hunknown : ∀ rest, word line <+: word (line ++ rest) →
        lookup (word (line ++ rest)) = .unknown := by
      intro rest hfront
      by_contra hknown
      exact h _ (mem_COMMAND_WORDS hknown) hfront
    have hmore := (ofCommandLine_unknown_iff (line ++ more)).mpr
      (hunknown more (hword ▸ List.prefix_append ..))
    have hself := (ofCommandLine_unknown_iff (line ++ [])).mpr
      (hunknown [] (by simp))
    rw [hmore, ← hself, List.append_nil]
  · rw [if_neg hcut] at h
    rcases word_append_of_terminated hcut more with ⟨hword, hafter⟩
    rw [ofCommandLine_eq, ofCommandLine_eq, hword, hafter]
    by_cases hreads : readsArgument (lookup (word line))
    · rcases word_append_of_terminated (h hreads) more with ⟨hsecond, hbehind⟩
      rw [hsecond, hbehind]
      simp only [List.append_eq_nil_iff, h hreads, false_and, if_false]
    · have htakes : takesArgument (lookup (word line)) = false := by
        simpa using fun hyes => hreads (Or.inl hyes)
      have hport : lookup (word line) ≠ .port := by
        intro heq
        exact hreads (Or.inr heq)
      simp only [htakes, hport, Bool.false_eq_true, if_false]

/-! ## 2. Lines that do not -/

/-- `,,,,,1 ` completes any PORT argument. -/
def FIELDS : Bytes := ascii ",,,,,1"

theorem afterCommas_count (n : Nat) (s : Bytes) :
    match afterCommas n s with
    | none => s.count COMMA < n
    | some rest => rest.count COMMA + n = s.count COMMA := by
  induction n generalizing s with
  | zero => rfl
  | succ n ih =>
    have hsplit := List.takeWhile_append_dropWhile (p := fun b => b != COMMA) (l := s)
    have hzero : (s.takeWhile fun b => b != COMMA).count COMMA = 0 := by
      rw [List.count_eq_zero]
      intro hmem
      have := List.mem_takeWhile_imp hmem
      simp at this
    unfold afterCommas
    cases hdrop : s.dropWhile fun b => b != COMMA with
    | nil =>
      rw [hdrop, List.append_nil] at hsplit
      rw [hsplit] at hzero
      simp [hzero]
    | cons b rest =>
      have hb : b = COMMA := by simpa using head_dropWhile hdrop
      rw [hdrop] at hsplit
      have hcount : s.count COMMA = rest.count COMMA + 1 := by
        rw [← hsplit, List.count_append, hzero, hb, List.count_cons_self, Nat.zero_add]
      have hrest := ih rest
      dsimp only
      cases hmore : afterCommas n rest with
      | none =>
        rw [hmore] at hrest
        dsimp only at hrest ⊢
        omega
      | some fifth =>
        rw [hmore] at hrest
        dsimp only at hrest ⊢
        omega

theorem portTexts_of_count {argument : Bytes} (h : 5 ≤ argument.count COMMA) :
    portTexts argument ≠ none := by
  have hcount := afterCommas_count 4 argument
  unfold portTexts
  cases hcommas : afterCommas 4 argument with
  | none =>
    rw [hcommas] at hcount
    dsimp only at hcount
    omega
  | some fifth =>
    rw [hcommas] at hcount
    dsimp only at hcount ⊢
    have hne : fifth ≠ [] := by
      rintro rfl
      simp at hcount
      omega
    rw [if_neg hne]
    split <;> simp

theorem parseFields_incomplete_iff (argument : Bytes) :
    parseFields (InputStream.ofBytes argument) = .ok ⟨.incomplete, []⟩ ↔
      portTexts argument = none := by
  rw [parseFields_eq]
  cases htexts : portTexts argument with
  | none => simp
  | some texts =>
    rcases texts with ⟨high, low⟩
    simp only [reduceCtorEq, iff_false]
    cases hhigh : stoi high with
    | error e => simp
    | ok h =>
      cases hlow : stoi low with
      | error e => simp
      | ok l => simp [pure, Except.pure]

theorem lookup_append {key : Bytes} (h : lookup key ≠ .unknown) : lookup (key ++ [88]) = .unknown := by
  have hall : ∀ k ∈ FTP_MAP_COMMAND.map Prod.fst, lookup (k ++ [88]) = .unknown := by decide
  exact hall key (mem_keys_of_lookup h)

theorem lookup_COMMAND_WORDS : ∀ key ∈ COMMAND_WORDS, lookup key ≠ .unknown := by decide

theorem COMMAND_WORDS_no_space :
    ∀ key ∈ COMMAND_WORDS, ∀ b ∈ key, isSpace b = false ∧ b ≠ NUL := by
  have hall : ∀ key ∈ COMMAND_WORDS, (key.all fun b => !isSpace b && b != NUL) = true := by decide
  intro key hkey b hb
  simpa using List.all_eq_true.mp (hall key hkey) b hb

/-- The word of a line that is cut off, with something without white space behind it. -/
theorem word_append_cut {line more : Bytes} (hcut : afterWord line = [])
    (hmore : ∀ b ∈ more, isSpace b = false) : word (line ++ more) = word line ++ more := by
  have hall : more.takeWhile (fun b => !isSpace b) = more :=
    List.takeWhile_eq_self_iff.mpr fun b hb => by simp [hmore b hb]
  by_cases hne : word line = []
  · have hskip : more.dropWhile isSpace = more := by
      cases more with
      | nil => rfl
      | cons b bs => simp [hmore b (by simp)]
    rw [(word_append_of_blank hne more).1, hne, List.nil_append]
    unfold word
    rw [hskip, hall]
  · rw [(word_append_of_unterminated hne hcut more).1, hall]

/-- **A line that is not settled** has a continuation with which it is another command. -/
theorem exists_append_of_not_settled {line : Bytes} (h : ¬ Settled line) :
    ∃ more, NUL ∉ more ∧ ofCommandLine (line ++ more) ≠ ofCommandLine line := by
  unfold Settled at h
  by_cases hcut : afterWord line = []
  · rw [if_pos hcut] at h
    push Not at h
    rcases h with ⟨key, hkey, rest, hrest⟩
    by_cases hunknown : lookup (word line) = .unknown
    · -- the rest of the key makes a command of it
      have hsmall : ∀ b ∈ rest, isSpace b = false ∧ b ≠ NUL := fun b hb =>
        COMMAND_WORDS_no_space key hkey b (hrest ▸ List.mem_append_right _ hb)
      refine ⟨rest, fun hnul => (hsmall NUL hnul).2 rfl, ?_⟩
      rw [(ofCommandLine_unknown_iff line).mpr hunknown, Ne, ofCommandLine_unknown_iff,
        word_append_cut hcut fun b hb => (hsmall b hb).1, hrest]
      exact lookup_COMMAND_WORDS key hkey
    · -- one more letter makes it unknown
      refine ⟨[88], by decide, ?_⟩
      have hmore := (ofCommandLine_unknown_iff (line ++ [88])).mpr (by
        rw [word_append_cut hcut (List.forall_mem_singleton.mpr (by decide))]
        exact lookup_append hunknown)
      rw [hmore]
      intro heq
      exact hunknown ((ofCommandLine_unknown_iff line).mp heq.symm)
  · rw [if_neg hcut] at h
    push Not at h
    rcases h with ⟨hreads, hend⟩
    rcases hreads with htakes | hport
    · -- one more letter in the argument
      refine ⟨[120], by decide, ?_⟩
      obtain ⟨hword, hafter⟩ := word_append_of_terminated hcut [120]
      rw [ofCommandLine_eq, ofCommandLine_eq, hword, hafter,
        word_append_cut hend (List.forall_mem_singleton.mpr (by decide))]
      simp [htakes]
    · -- five commas make the PORT complete
      refine ⟨FIELDS ++ [32], by decide, ?_⟩
      rcases word_append_of_terminated hcut (FIELDS ++ [32]) with ⟨hword, hafter⟩
      have hcut' : afterWord (afterWord line ++ (FIELDS ++ [32])) ≠ [] := by
        by_cases hne : word (afterWord line) = []
        · rw [(word_append_of_blank hne _).2]
          decide
        · rw [(word_append_of_unterminated hne hend _).2]
          decide
      have hword' : word (afterWord line ++ (FIELDS ++ [32])) = word (afterWord line) ++ FIELDS := by
        by_cases hne : word (afterWord line) = []
        · rw [(word_append_of_blank hne _).1, hne]
          decide
        · rw [(word_append_of_unterminated hne hend _).1]
          rfl
      have hcount : 5 ≤ (word (afterWord line) ++ FIELDS).count COMMA := by
        rw [List.count_append, show FIELDS.count COMMA = 5 from by decide]
        omega
      rw [ofCommandLine_eq, ofCommandLine_eq, hword, hafter, hword']
      simp only [hport, takesArgument, Bool.false_eq_true, if_false, if_true, hend, hcut']
      rw [Ne, parseFields_incomplete_iff]
      exact portTexts_of_count hcount

/-! ## 3. Messages with a NUL in them

The parser gets such a message up to the NUL, and nothing behind the message. -/

/-- **A message that its NUL does not change**: the words up to the NUL are ended by white
    space, or make no command; or they make a PORT that is incomplete either way. -/
def CutSettled (message : Bytes) : Prop :=
  let line := cString message
  if afterWord line = [] then lookup (word line) = .unknown
  else
    (takesArgument (lookup (word line)) = true → afterWord (afterWord line) ≠ []) ∧
      (lookup (word line) = .port → afterWord (afterWord line) ≠ [] ∨
        afterWord (afterWord message) = [] ∨ portTexts (word (afterWord message)) = none)

instance (message : Bytes) : Decidable (CutSettled message) := by
  unfold CutSettled; infer_instance

theorem mem_of_mem_word {b : UInt8} {s : Bytes} (h : b ∈ word s) : b ∈ s :=
  (List.dropWhile_suffix _).mem ((List.takeWhile_prefix _).mem h)

theorem mem_of_mem_afterWord {b : UInt8} {s : Bytes} (h : b ∈ afterWord s) : b ∈ s :=
  (List.dropWhile_suffix _).mem ((List.dropWhile_suffix _).mem h)

/-- A NUL behind a word that is cut off is part of the word. -/
theorem nul_mem_word {line : Bytes} (hcut : afterWord line = []) (rest : Bytes) :
    NUL ∈ word (line ++ NUL :: rest) := by
  have hnul : isSpace NUL = false := by decide
  by_cases hne : word line = []
  · rw [(word_append_of_blank hne _).1]
    simp [word, hnul]
  · rw [(word_append_of_unterminated hne hcut _).1]
    simp [hnul]

theorem lookup_of_nul {key : Bytes} (h : NUL ∈ key) : lookup key = .unknown := by
  by_contra hknown
  have hall : ∀ k ∈ FTP_MAP_COMMAND.map Prod.fst, NUL ∉ k := by decide
  exact hall key (mem_keys_of_lookup hknown) h

theorem ofCommandLine_cString_iff {message : Bytes} (h : NUL ∈ message) :
    ofCommandLine (cString message) = ofCommandLine message ↔ CutSettled message := by
  rcases cString_split h with ⟨rest, hsplit⟩
  have hfree := nul_not_mem_cString message
  unfold CutSettled
  dsimp only
  generalize cString message = line at hsplit hfree ⊢
  subst hsplit
  by_cases hcut : afterWord line = []
  · have hmessage := (ofCommandLine_unknown_iff (line ++ NUL :: rest)).mpr
      (lookup_of_nul (nul_mem_word hcut rest))
    rw [if_pos hcut, hmessage, ofCommandLine_unknown_iff]
  · rw [if_neg hcut]
    rcases word_append_of_terminated hcut (NUL :: rest) with ⟨hword, hafter⟩
    by_cases hend : afterWord (afterWord line) = []
    · rw [ofCommandLine_eq line, ofCommandLine_eq (line ++ NUL :: rest), hword, hafter]
      simp only [hend, ne_eq, not_true, imp_false, false_or, if_true]
      by_cases htakes : takesArgument (lookup (word line)) = true
      · -- the argument of the message has the NUL in it
        refine iff_of_false ?_ fun hboth => hboth.1 htakes
        simp only [htakes, if_true, Except.ok.injEq, FtpCommand.mk.injEq, List.cons.injEq, and_true,
          true_and]
        intro heq
        refine hfree (mem_of_mem_afterWord (mem_of_mem_word ?_))
        rw [heq]
        exact nul_mem_word hend rest
      · by_cases hport : lookup (word line) = .port
        · simp only [hport, takesArgument, Bool.false_eq_true, if_false, if_true, not_false_eq_true,
            true_and, true_implies]
          by_cases hmore : afterWord (afterWord line ++ NUL :: rest) = []
          · simp [hmore]
          · simp only [hmore, if_false, false_or]
            rw [eq_comm, parseFields_incomplete_iff]
        · simp [htakes, hport]
    · have hsettled : Settled line := by
        unfold Settled
        rw [if_neg hcut]
        intro _
        exact hend
      rw [ofCommandLine_append_of_settled hsettled]
      simp [hend]

end FtpCommand

/-! ## 4. The command of a turn -/

namespace SessionThread

open FtpCommand

/-- The string the parser gets: the message, and what lies behind it. -/
theorem commandLine_receive (buffer : MessageBuffer) (message : Chunk) (behind : Bytes) :
    (buffer.receive message).commandLine behind =
      cString (message.bytes ++ (buffer.bytes.drop message.bytes.length ++ behind)) := by
  simp only [MessageBuffer.commandLine, MessageBuffer.receive, List.append_assoc]

/-- Whatever is to lie behind a message can be in the buffer before it comes. -/
theorem exists_leftover (message : Chunk) {more : Bytes} (h : NUL ∉ more) :
    ∃ (buffer : MessageBuffer) (behind : Bytes),
      cString (buffer.bytes.drop message.bytes.length ++ behind) = more := by
  have hfits := message.fits
  let memory := List.replicate message.bytes.length NUL ++
    (more ++ NUL :: List.replicate BUFFER_SIZE NUL)
  have hlength : (memory.take BUFFER_SIZE).length = BUFFER_SIZE := by
    simp only [memory, List.length_take, List.length_append, List.length_replicate,
      List.length_cons]
    omega
  refine ⟨⟨memory.take BUFFER_SIZE, hlength⟩, memory.drop BUFFER_SIZE, ?_⟩
  have hle : message.bytes.length ≤ (memory.take BUFFER_SIZE).length := by
    rw [hlength]
    exact hfits
  rw [← List.drop_append_of_le_length hle, List.take_append_drop]
  have hmore : memory.drop message.bytes.length = more ++ NUL :: List.replicate BUFFER_SIZE NUL :=
    List.drop_left' List.length_replicate
  rw [hmore, cString_append_nul h]

/-- What lies behind a NUL of the message is not seen. -/
theorem commandLine_of_nul {message : Chunk} (h : NUL ∈ message.bytes) (buffer : MessageBuffer)
    (behind : Bytes) :
    (buffer.receive message).commandLine behind = cString message.bytes := by
  rcases cString_split h with ⟨rest, hsplit⟩
  rw [commandLine_receive]
  conv_lhs => rw [hsplit, List.append_assoc, List.cons_append]
  exact cString_append_nul (nul_not_mem_cString _)

/-- Without a NUL in the message, anything may come behind it. -/
theorem exists_command {message : Chunk} (h : NUL ∉ message.bytes) {more : Bytes}
    (hmore : NUL ∉ more) :
    ∃ buffer behind, command buffer message behind = ofCommandLine (message.bytes ++ more) := by
  rcases exists_leftover message hmore with ⟨buffer, behind, heq⟩
  refine ⟨buffer, behind, ?_⟩
  rw [command, commandLine_receive, cString_append h, heq]

/-- **Messages that make their own command**, whatever lies behind them. -/
def OwnBytes (message : Bytes) : Prop :=
  if NUL ∈ message then CutSettled message else Settled message

instance (message : Bytes) : Decidable (OwnBytes message) := by
  unfold OwnBytes; infer_instance

/-- **The command of a message is the one of its own bytes**, for every content of the
    buffer and of the stack behind it, exactly when the message is one of these. -/
theorem command_own_iff (message : Chunk) :
    (∀ buffer behind, command buffer message behind = ofCommandLine message.bytes) ↔
      OwnBytes message.bytes := by
  unfold OwnBytes
  by_cases hnul : NUL ∈ message.bytes
  · rw [if_pos hnul, ← ofCommandLine_cString_iff hnul]
    simp only [command, commandLine_of_nul hnul]
    exact ⟨fun h => h .zero [], fun h _ _ => h⟩
  · rw [if_neg hnul]
    constructor
    · intro hall
      by_contra hnot
      rcases exists_append_of_not_settled hnot with ⟨more, hfree, hne⟩
      rcases exists_command hnul hfree with ⟨buffer, behind, hcommand⟩
      exact hne (hcommand.symm.trans (hall buffer behind))
    · intro hsettled buffer behind
      rw [command, commandLine_receive, cString_append hnul,
        ofCommandLine_append_of_settled hsettled]

/-- **Two sessions that receive the same message** build the same command whatever came
    before, exactly when a NUL ends the message or it is settled. -/
theorem command_independent_iff (message : Chunk) :
    (∀ buffer behind buffer' behind', command buffer message behind =
        command buffer' message behind') ↔
      NUL ∈ message.bytes ∨ Settled message.bytes := by
  by_cases hnul : NUL ∈ message.bytes
  · simp only [command, commandLine_of_nul hnul, implies_true, hnul, true_or]
  · simp only [hnul, false_or]
    constructor
    · intro hall
      by_contra hnot
      rcases exists_append_of_not_settled hnot with ⟨more, hfree, hne⟩
      rcases exists_command hnul hfree with ⟨buffer, behind, hcommand⟩
      rcases exists_command hnul List.not_mem_nil with ⟨buffer', behind', halone⟩
      rw [List.append_nil] at halone
      exact hne (hcommand.symm.trans ((hall buffer behind buffer' behind').trans halone))
    · intro hsettled buffer behind buffer' behind'
      rw [command, command, commandLine_receive, commandLine_receive, cString_append hnul,
        cString_append hnul, ofCommandLine_append_of_settled hsettled,
        ofCommandLine_append_of_settled hsettled]

/-- **What a command depends on**: both characterisations together. -/
theorem command_from_message (message : Chunk) :
    ((∀ buffer behind, command buffer message behind = ofCommandLine message.bytes) ↔
        OwnBytes message.bytes) ∧
      ((∀ buffer behind buffer' behind', command buffer message behind =
          command buffer' message behind') ↔
        NUL ∈ message.bytes ∨ Settled message.bytes) :=
  ⟨command_own_iff message, command_independent_iff message⟩

/-- Behind `PASS secret` a bare `USER` logs in as `secret`. -/
theorem user_takes_leftover :
    ¬ ∀ (buffer : MessageBuffer) (behind : Bytes) (message : Chunk),
      command buffer message behind = ofCommandLine message.bytes := by
  intro h
  let leftover := MessageBuffer.zero.receive ⟨ascii "PASS secret\r\n", by decide, by decide⟩
  have hleft : command leftover ⟨ascii "USER", by decide, by decide⟩ [] =
      .ok ⟨.user, [ascii "secret"]⟩ := rfl
  have hright : ofCommandLine (ascii "USER") = .ok ⟨.user, [[]]⟩ := rfl
  rw [h, hright] at hleft
  simp [ascii] at hleft

end SessionThread

end FtpsServer
