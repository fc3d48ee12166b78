import FtpsServer.Lib.InputStream

/-!
# `ftp_command.cpp`: parsing a command line

The constructor of `ftp_command` reads words off an `istringstream`; for PORT it
puts the argument back into the same stream and reads comma-separated fields, with
the state bits of the first reading still set.  `ofCommandLine_eq` says what the
parser does in terms of the words of the line alone.
-/

namespace FtpsServer

open ByteString Cxx

inductive FtpCommandT where
  | user
  | pass
  | syst
  | pwd
  | cwd
  | port
  | list
  | stor
  | type
  | quit
  | feat
  | auth
  | pbsz
  | prot
  | pasv
  | allo
  | dele
  | rnfr
  | rnto
  | siteUtime
  | unknown
  | incomplete
deriving DecidableEq, Repr

structure FtpCommand where
  command : FtpCommandT
  arguments : List Bytes
deriving DecidableEq, Repr

namespace FtpCommand

def FTP_MAP_COMMAND : List (Bytes × FtpCommandT) :=
  [(ascii "USER", .user), (ascii "PASS", .pass), (ascii "SYST", .syst), (ascii "PWD", .pwd),
    (ascii "CWD", .cwd), (ascii "PORT", .port), (ascii "STOR", .stor), (ascii "TYPE", .type),
    (ascii "QUIT", .quit), (ascii "LIST", .list), (ascii "FEAT", .feat), (ascii "AUTH", .auth),
    (ascii "PBSZ", .pbsz), (ascii "PROT", .prot), (ascii "PASV", .pasv), (ascii "ALLO", .allo),
    (ascii "DELE", .dele), (ascii "RNFR", .rnfr), (ascii "RNTO", .rnto),
    (ascii "SITE UTIME", .siteUtime)]

/-- `FTP_MAP_COMMAND.find`, and `FTP_COMMAND_UNKNOWN` for a word that is no key. -/
def lookup (asciiCommand : Bytes) : FtpCommandT := (FTP_MAP_COMMAND.lookup asciiCommand).getD .unknown

/-- `get_argument(index)`, which is `vector::at`. -/
def getArgument (input : FtpCommand) (index : Nat) : Except StdException Bytes :=
  match input.arguments[index]? with
  | some argument => .ok argument
  | none => .error .outOfRange

/-! ## 1. PORT -/

/-- The loop that joins the first `fields` comma-separated fields by dots; `none` is
    the early return with `FTP_COMMAND_INCOMPLETE`. -/
def extractAddress : Nat → InputStream → Bytes → Option (InputStream × Bytes)
  | 0, stream, address => some (stream, address)
  | fields + 1, stream, address =>
    let (stream, token) := stream.getline COMMA []
    if stream.fail then none
    else extractAddress fields stream (if address.isEmpty then token else address ++ ascii "." ++ token)

/-- The port number: the fifth field, and whatever `>>` reads behind it.  When
    nothing is left, `token` still holds the fifth field. -/
def extractPort (stream : InputStream) : Except StdException (Option Bytes) := do
  let (stream, token) := stream.getline COMMA []
  if stream.fail then return none
  let high ← stoi token
  let (_, token) := stream.extract token
  let low ← stoi token
  return some (stdToString (shiftOr high low))

/-- The fields of the argument, once it has been put back into the stream. -/
def parseFields (stream : InputStream) : Except StdException FtpCommand :=
  match extractAddress 4 stream [] with
  | none => .ok ⟨.incomplete, []⟩
  | some (stream, address) => do
    match ← extractPort stream with
    | none => return ⟨.incomplete, []⟩
    | some port => return ⟨.port, [address, port]⟩

/-- The case `FTP_COMMAND_PORT` of the constructor. -/
def parsePort (stream : InputStream) : Except StdException FtpCommand :=
  let (stream, argument) := stream.extract []
  parseFields (stream.setStr argument)

/-! ## 2. The constructor -/

/-- `ftp_command::ftp_command(command_line)`. -/
def ofCommandLine (commandLine : Bytes) : Except StdException FtpCommand :=
  let stream := InputStream.ofBytes commandLine
  let (stream, asciiCommand) := stream.extract []
  let command := lookup asciiCommand
  match command with
  | .user | .pass | .type | .auth | .pbsz | .prot | .allo | .dele | .rnfr | .rnto | .stor | .cwd =>
    let (_, argument) := stream.extract []
    .ok ⟨command, [argument]⟩
  | .siteUtime =>
    let (stream, argument) := stream.extract []
    let (_, argument) := stream.extract argument
    .ok ⟨command, [argument]⟩
  | .port => parsePort stream
  | .syst | .pwd | .list | .quit | .feat | .pasv | .unknown | .incomplete => .ok ⟨command, []⟩

/-! ## 3. The parser in terms of words

The state bits only matter where the line ends: a word that white space ends leaves
the stream good, a word that the end of the line cuts off sets `eofbit` for all
later reading.  The argument of a one-argument command does not show the
difference; the one of PORT does, because the fields are read from the same
stream. -/

/-- The commands whose handler gets the second word of the line. -/
def takesArgument : FtpCommandT → Bool
  | .user | .pass | .type | .auth | .pbsz | .prot | .allo | .dele | .rnfr | .rnto | .stor | .cwd =>
    true
  | _ => false

theorem mem_keys_of_lookup {w : Bytes} (h : lookup w ≠ .unknown) :
    w ∈ FTP_MAP_COMMAND.map Prod.fst := by
  unfold lookup at h
  cases hfind : FTP_MAP_COMMAND.lookup w with
  | none => simp [hfind] at h
  | some c =>
    rcases List.lookup_eq_some_iff.mp hfind with ⟨front, back, heq, -⟩
    rw [heq]
    simp

/-- The key with a blank in it is none that a word can be. -/
theorem lookup_word_ne_siteUtime (line : Bytes) : lookup (word line) ≠ .siteUtime := by
  intro h
  have hmem := mem_keys_of_lookup (w := word line) (by rw [h]; decide)
  have hspace : ∀ k ∈ FTP_MAP_COMMAND.map Prod.fst, (k.all fun b => !isSpace b) = true →
      lookup k ≠ .siteUtime := by decide
  apply hspace _ hmem _ h
  simpa [List.all_eq_true] using word_no_space line

theorem extract_first (line : Bytes) :
    ((InputStream.ofBytes line).extract []).2 = word line ∧
      ((InputStream.ofBytes line).extract []).1.rest = afterWord line ∧
      ((InputStream.ofBytes line).extract []).1.good = !(afterWord line).isEmpty := by
  rw [extract_of_good rfl]
  by_cases h : word line = []
  · simp [InputStream.ofBytes, h, afterWord_of_word_nil h, InputStream.good]
  · simp [InputStream.ofBytes, h, InputStream.good]

theorem extract_next {stream : InputStream} {rest : Bytes} (hrest : stream.rest = rest)
    (hgood : stream.good = !rest.isEmpty) :
    (stream.extract []).2 = word rest ∧
      (stream.extract []).1.good = !(afterWord rest).isEmpty := by
  cases hcase : stream.good with
  | true =>
    rw [extract_of_good hcase, hrest]
    by_cases h : word rest = []
    · simp [h, afterWord_of_word_nil h, InputStream.good]
    · simp [h, InputStream.good]
  | false =>
    have hnil : rest = [] := by simpa [hcase] using hgood
    rw [extract_of_not_good hcase, hnil]
    simp [InputStream.good]

theorem setStr_of_good {stream : InputStream} (h : stream.good = true) (buffer : Bytes) :
    stream.setStr buffer = InputStream.ofBytes buffer := by
  rcases stream with ⟨rest, eof, fail⟩
  simp only [InputStream.good, Bool.and_eq_true, Bool.not_eq_true'] at h
  simp [InputStream.setStr, InputStream.ofBytes, h]

theorem parseFields_of_not_good {stream : InputStream} (h : stream.good = false) :
    parseFields stream = .ok ⟨.incomplete, []⟩ := by
  simp [parseFields, extractAddress, getline_of_not_good h]

/-- **The parser on words.** -/
theorem ofCommandLine_eq (line : Bytes) :
    ofCommandLine line =
      if takesArgument (lookup (word line)) then
        .ok ⟨lookup (word line), [word (afterWord line)]⟩
      else if lookup (word line) = .port then
        if afterWord (afterWord line) = [] then .ok ⟨.incomplete, []⟩
        else parseFields (InputStream.ofBytes (word (afterWord line)))
      else .ok ⟨lookup (word line), []⟩ := by
  rcases extract_first line with ⟨hword, hrest, hgood⟩
  rcases extract_next hrest hgood with ⟨hargument, hgood'⟩
  have hsite := lookup_word_ne_siteUtime line
  have hport : parsePort ((InputStream.ofBytes line).extract []).1 =
      if afterWord (afterWord line) = [] then .ok ⟨.incomplete, []⟩
      else parseFields (InputStream.ofBytes (word (afterWord line))) := by
    unfold parsePort
    by_cases hend : afterWord (afterWord line) = []
    · rw [if_pos hend]
      apply parseFields_of_not_good
      rw [hend] at hgood'
      exact hgood'
    · rw [if_neg hend]
      have hcase : (((InputStream.ofBytes line).extract []).1.extract []).1.good = true := by
        rw [hgood']
        simpa using hend
      dsimp only
      rw [setStr_of_good hcase, hargument]
  unfold ofCommandLine
  dsimp only
  rw [hword, hport, hargument]
  cases hlookup : lookup (word line) <;> simp_all [takesArgument]

/-! ## 4. The fields of PORT -/

def afterCommas : Nat → Bytes → Option Bytes
  | 0, s => some s
  | n + 1, s =>
    match s.dropWhile fun b => b != COMMA with
    | [] => none
    | _ :: rest => afterCommas n rest

/-- The first `n` fields, joined by dots behind `address`. -/
def joinFields : Nat → Bytes → Bytes → Bytes
  | 0, _, address => address
  | n + 1, s, address =>
    let field := s.takeWhile fun b => b != COMMA
    joinFields n ((s.dropWhile fun b => b != COMMA).drop 1)
      (if address.isEmpty then field else address ++ ascii "." ++ field)

/-- The two texts the port number is read from, when there are five fields: the
    fifth, and the word behind its comma or else the fifth again. -/
def portTexts (argument : Bytes) : Option (Bytes × Bytes) :=
  match afterCommas 4 argument with
  | none => none
  | some fifth =>
    if fifth = [] then none
    else
      let high := fifth.takeWhile fun b => b != COMMA
      match fifth.dropWhile fun b => b != COMMA with
      | [] => some (high, high)
      | _ :: rest => some (high, if word rest = [] then high else word rest)

section Fields

variable {field : Bytes} (hfield : COMMA ∉ field)

include hfield

/-- A field ends at its comma. -/
theorem field_append_comma (rest : Bytes) :
    (field ++ COMMA :: rest).takeWhile (fun b => b != COMMA) = field ∧
      (field ++ COMMA :: rest).dropWhile (fun b => b != COMMA) = COMMA :: rest := by
  have hall : ∀ b ∈ field, (b != COMMA) = true := by
    intro b hb
    rw [bne_iff_ne]
    rintro rfl
    exact hfield hb
  rw [List.takeWhile_append_of_pos hall, List.dropWhile_append_of_pos hall]
  simp

theorem afterCommas_append_comma (n : Nat) (rest : Bytes) :
    afterCommas (n + 1) (field ++ COMMA :: rest) = afterCommas n rest := by
  rw [afterCommas, (field_append_comma hfield rest).2]

theorem joinFields_append_comma (n : Nat) (rest address : Bytes) :
    joinFields (n + 1) (field ++ COMMA :: rest) address =
      joinFields n rest (if address.isEmpty then field else address ++ ascii "." ++ field) := by
  rw [joinFields, (field_append_comma hfield rest).1, (field_append_comma hfield rest).2]
  rfl

end Fields

theorem extractAddress_eq (n : Nat) (s address : Bytes) :
    match afterCommas n s with
    | some rest =>
      extractAddress n (InputStream.ofBytes s) address =
        some (InputStream.ofBytes rest, joinFields n s address)
    | none =>
      extractAddress n (InputStream.ofBytes s) address = none ∨
        ∃ stream address', extractAddress n (InputStream.ofBytes s) address = some (stream, address') ∧
          stream.good = false := by
  induction n generalizing s address with
  | zero => rfl
  | succ n ih =>
    simp only [afterCommas, extractAddress, joinFields, InputStream.getline, InputStream.ofBytes,
      InputStream.good, Bool.not_false, Bool.and_self, if_true]
    cases hdrop : s.dropWhile fun b => b != COMMA with
    | nil =>
      dsimp only
      cases hs : s.isEmpty with
      | true => exact Or.inl (by simp)
      | false =>
        -- the last field without a comma behind it: `eofbit` stops what follows
        simp only [Bool.false_eq_true, if_false]
        cases n with
        | zero => exact Or.inr ⟨_, _, rfl, rfl⟩
        | succ n =>
          apply Or.inl
          simp [extractAddress, getline_of_not_good, InputStream.good]
    | cons b rest => exact ih rest _

/-- **PORT**: without five fields the command is incomplete; otherwise both texts
    go through `stoi`. -/
theorem parseFields_eq (argument : Bytes) :
    parseFields (InputStream.ofBytes argument) =
      match portTexts argument with
      | none => .ok ⟨.incomplete, []⟩
      | some (high, low) => do
        let h ← stoi high
        let l ← stoi low
        return ⟨.port, [joinFields 4 argument [], stdToString (shiftOr h l)]⟩ := by
  have haddress := extractAddress_eq 4 argument []
  unfold parseFields portTexts
  cases hcommas : afterCommas 4 argument with
  | none =>
    rw [hcommas] at haddress
    rcases haddress with hnone | ⟨stream, address, hsome, hgood⟩
    · rw [hnone]
    · rw [hsome]
      simp [extractPort, getline_of_not_good hgood]
      rfl
  | some fifth =>
    rw [hcommas] at haddress
    dsimp only at haddress ⊢
    rw [haddress]
    by_cases hnil : fifth = []
    · subst hnil
      rfl
    · rw [if_neg hnil]
      have hne : fifth.isEmpty = false := by simpa using hnil
      dsimp only
      cases hdrop : fifth.dropWhile fun b => b != COMMA with
      | nil =>
        have hself : fifth.takeWhile (fun b => b != COMMA) = fifth := by
          have := List.takeWhile_append_dropWhile (p := fun b => b != COMMA) (l := fifth)
          rwa [hdrop, List.append_nil] at this
        simp only [extractPort, InputStream.getline, InputStream.ofBytes, InputStream.good, hdrop,
          hne, hself, Bool.not_false, Bool.and_self, if_true, Bool.false_eq_true, if_false,
          InputStream.extract, Bool.not_true, Bool.false_and, bind_assoc, pure_bind]
      | cons b rest =>
        have hextract : ((InputStream.ofBytes rest).extract
            (fifth.takeWhile fun b => b != COMMA)).2 =
              if word rest = [] then fifth.takeWhile fun b => b != COMMA else word rest := by
          rw [extract_of_good rfl]
          split <;> simp_all [InputStream.ofBytes]
        simp only [extractPort, InputStream.getline, InputStream.ofBytes, InputStream.good, hdrop,
          Bool.not_false, Bool.and_self, if_true, Bool.false_eq_true, if_false,
          bind_assoc, pure_bind] at hextract ⊢
        simp only [hextract]

/-- The second argument of a parsed PORT is the text of an `int`. -/
theorem parseFields_port {argument : Bytes} {input : FtpCommand}
    (h : parseFields (InputStream.ofBytes argument) = .ok input) :
    input = ⟨.incomplete, []⟩ ∨
      ∃ address high low, input = ⟨.port, [address, stdToString (shiftOr high low)]⟩ := by
  rw [parseFields_eq] at h
  cases htexts : portTexts argument with
  | none =>
    rw [htexts] at h
    exact Or.inl (Except.ok.inj h).symm
  | some texts =>
    rcases texts with ⟨high, low⟩
    rw [htexts] at h
    simp only at h
    cases hhigh : stoi high with
    | error e => rw [hhigh] at h; cases h
    | ok a =>
      cases hlow : stoi low with
      | error e => rw [hhigh, hlow] at h; cases h
      | ok b =>
        rw [hhigh, hlow] at h
        exact Or.inr ⟨_, a, b, (Except.ok.inj h).symm⟩

end FtpCommand

end FtpsServer
