import FtpsServer.PassivePort

/-!
# PASV writes what PORT reads

The 227 reply of `command_pasv` has address and port as six numbers between
parentheses, and the argument of PORT is six such numbers.  The two sides are written
apart; a client that sends the text of the reply back names the same address and port.
-/

namespace FtpsServer

open ByteString Cxx Machine

/-! ## 1. Addresses -/

/-- The four numbers of an IPv4 address. -/
structure Ipv4Address where
  h1 : Fin 256
  h2 : Fin 256
  h3 : Fin 256
  h4 : Fin 256
deriving DecidableEq, Repr

/-- Four decimal numbers with a separator between them. -/
def Ipv4Address.joined (a : Ipv4Address) (separator : UInt8) : Bytes :=
  decimal a.h1 ++ separator :: (decimal a.h2 ++ separator :: (decimal a.h3 ++
    separator :: decimal a.h4))

/-- The text that `inet_ntoa` makes of an address. -/
def Ipv4Address.dotted (a : Ipv4Address) : Bytes := a.joined DOT

def LEFT_PARENTHESIS : UInt8 := 40
def RIGHT_PARENTHESIS : UInt8 := 41

/-- What stands between the parentheses of a message. -/
def parenthesised (message : Bytes) : Bytes :=
  ((message.dropWhile fun b => b != LEFT_PARENTHESIS).drop 1).takeWhile
    fun b => b != RIGHT_PARENTHESIS

theorem commas_of_dotted (a : Ipv4Address) :
    (a.dotted.map fun b => if b = DOT then COMMA else b) = a.joined COMMA := by
  have hnumber : ∀ n, ((decimal n).map fun b => if b = DOT then COMMA else b) = decimal n := by
    intro n
    refine (List.map_congr_left fun b hb => ?_).trans (List.map_id' _)
    rw [if_neg]
    rintro rfl
    exact not_mem_decimal (by decide) n hb
  simp [Ipv4Address.dotted, Ipv4Address.joined, hnumber]

/-! ## 2. The six numbers -/

/-- The six numbers that `command_pasv` writes. -/
def sixNumbers (a : Ipv4Address) (port : Nat) : Bytes :=
  a.joined COMMA ++ COMMA :: (decimal (port / 256) ++ COMMA :: decimal (port % 256))

theorem mem_sixNumbers {a : Ipv4Address} {port : Nat} {b : UInt8} (h : b ∈ sixNumbers a port) :
    isDigit b = true ∨ b = COMMA := by
  simp only [sixNumbers, Ipv4Address.joined, List.mem_append, List.mem_cons] at h
  rcases h with (h | rfl | h | rfl | h | rfl | h) | rfl | h | rfl | h <;>
    first
    | exact Or.inr rfl
    | exact Or.inl (decimal_isDigit _ b h)

theorem sixNumbers_no_space (a : Ipv4Address) (port : Nat) :
    ∀ b ∈ sixNumbers a port, isSpace b = false := by
  intro b hb
  rcases mem_sixNumbers hb with hdigit | rfl
  · exact not_isSpace_of_isDigit hdigit
  · decide

theorem sixNumbers_ne_nil (a : Ipv4Address) (port : Nat) : sixNumbers a port ≠ [] := by
  simp [sixNumbers]

namespace FtpSession

theorem parenthesised_passiveReply (a : Ipv4Address) (port : Fin 65536) :
    parenthesised (passiveReply a.dotted port) = sixNumbers a port := by
  rcases low_bytes (BitVec.ofInt 32 port) with ⟨hhigh, hlow⟩
  have hbits : (BitVec.ofInt 32 port).toNat = port := by
    rw [BitVec.toNat_ofInt]
    omega
  have hreply : passiveReply a.dotted port =
      ascii "227 Entering Passive Mode " ++
        LEFT_PARENTHESIS :: (sixNumbers a port ++ RIGHT_PARENTHESIS :: ascii "\r\n") := by
    have hbyte : (port : Nat) / 256 % 256 = port / 256 := by omega
    unfold passiveReply
    dsimp only
    rw [hhigh, hlow, hbits, hbyte, commas_of_dotted, stdToString_natCast, stdToString_natCast]
    simp [sixNumbers, ascii, LEFT_PARENTHESIS, RIGHT_PARENTHESIS, COMMA]
  have hfront : ∀ b ∈ ascii "227 Entering Passive Mode ", (b != LEFT_PARENTHESIS) = true := by
    decide +kernel
  have hnumbers : ∀ b ∈ sixNumbers a port, (b != RIGHT_PARENTHESIS) = true := by
    intro b hb
    rcases mem_sixNumbers hb with hdigit | rfl
    · rw [bne_iff_ne]
      rintro rfl
      exact absurd hdigit (by decide)
    · decide
  unfold parenthesised
  rw [hreply, List.dropWhile_append_of_pos hfront, List.dropWhile_cons_of_neg (by decide),
    List.drop_one, List.tail_cons, List.takeWhile_append_of_pos hnumbers]
  simp

end FtpSession

/-! ## 3. Reading them -/

namespace FtpCommand

theorem joinFields_sixNumbers (a : Ipv4Address) (port : Nat) :
    joinFields 4 (sixNumbers a port) [] = a.dotted := by
  have hcomma : ∀ n, COMMA ∉ decimal n := not_mem_decimal (by decide)
  unfold sixNumbers Ipv4Address.joined
  simp only [List.append_assoc, List.cons_append]
  rw [joinFields_append_comma (hcomma _), joinFields_append_comma (hcomma _),
    joinFields_append_comma (hcomma _), joinFields_append_comma (hcomma _), joinFields]
  have hne : ∀ n, (decimal n).isEmpty = false := by
    intro n
    simp [decimal_ne_nil]
  simp [hne, Ipv4Address.dotted, Ipv4Address.joined, ascii, DOT, decimal_ne_nil]

theorem portTexts_sixNumbers (a : Ipv4Address) (port : Nat) :
    portTexts (sixNumbers a port) = some (decimal (port / 256), decimal (port % 256)) := by
  have hcomma : ∀ n, COMMA ∉ decimal n := not_mem_decimal (by decide)
  have hfifth : afterCommas 4 (sixNumbers a port) =
      some (decimal (port / 256) ++ COMMA :: decimal (port % 256)) := by
    unfold sixNumbers Ipv4Address.joined
    simp only [List.append_assoc, List.cons_append]
    rw [afterCommas_append_comma (hcomma _), afterCommas_append_comma (hcomma _),
      afterCommas_append_comma (hcomma _), afterCommas_append_comma (hcomma _), afterCommas]
  have hlast : word (decimal (port % 256)) = decimal (port % 256) := by
    have hspace : ∀ b ∈ decimal (port % 256), isSpace b = false := fun b hb =>
      not_isSpace_of_isDigit (decimal_isDigit _ b hb)
    unfold word
    rw [List.dropWhile_eq_self_iff.mpr, List.takeWhile_eq_self_iff.mpr]
    · intro b hb
      simp [hspace b hb]
    · intro hlen
      simp [hspace _ (List.getElem_mem hlen)]
  rcases field_append_comma (hcomma (port / 256)) (decimal (port % 256)) with ⟨htake, hdrop⟩
  unfold portTexts
  rw [hfifth]
  dsimp only
  rw [htake, hdrop, if_neg (by simp)]
  dsimp only
  rw [hlast, if_neg (decimal_ne_nil _)]

theorem stoi_decimal {n : Nat} (h : n ≤ 65535) : stoi (decimal n) = .ok (n : Int) := by
  have hback := stoi_stdToString (n := n) (by simp only [INT_MIN]; omega) (by simp only [INT_MAX]; omega)
  rwa [stdToString_natCast] at hback

theorem parseFields_sixNumbers (a : Ipv4Address) (port : Fin 65536) :
    parseFields (InputStream.ofBytes (sixNumbers a port)) =
      .ok ⟨.port, [a.dotted, stdToString (port : Nat)]⟩ := by
  rw [parseFields_eq, portTexts_sixNumbers, joinFields_sixNumbers]
  dsimp only
  rw [stoi_decimal (by omega), stoi_decimal (by omega), ok_bind, ok_bind,
    shiftOr_bytes (by omega) (by omega), Nat.div_add_mod']
  rfl

/-- **PORT inverts PASV.**  The text between the parentheses of the 227 reply, sent back as
    the argument of PORT, is parsed as the address and the port of the reply. -/
theorem port_inverts_pasv (a : Ipv4Address) (port : Fin 65536) :
    ∃ input, ofCommandLine (ascii "PORT " ++
        parenthesised (FtpSession.passiveReply a.dotted port) ++ ascii "\r\n") = .ok input ∧
      input.command = .port ∧ input.getArgument 0 = .ok a.dotted ∧
      (do stoi (← input.getArgument 1)) = .ok ((port : Nat) : Int) := by
  rw [FtpSession.parenthesised_passiveReply]
  have hline : ascii "PORT " ++ sixNumbers a port ++ ascii "\r\n" =
      ascii "PORT" ++ 32 :: (sixNumbers a port ++ 13 :: [10]) := by
    simp [ascii]
  rcases word_append_cons (w := ascii "PORT") (b := 32) (by decide) (by decide +kernel) (by decide)
    (sixNumbers a port ++ 13 :: [10]) with ⟨hword, hafter⟩
  rcases word_cons_of_space (b := 32) (by decide) (sixNumbers a port ++ 13 :: [10]) with
    ⟨hskip, hskip'⟩
  rcases word_append_cons (sixNumbers_ne_nil a port) (sixNumbers_no_space a port) (b := 13)
    (by decide) [10] with ⟨hargument, hrest⟩
  refine ⟨⟨.port, [a.dotted, stdToString (port : Nat)]⟩, ?_, rfl, rfl, ?_⟩
  · rw [hline, ofCommandLine_eq, hword, hafter, hskip, hskip', hargument, hrest]
    exact parseFields_sixNumbers a port
  · rw [stdToString_natCast]
    exact stoi_decimal (by omega)

end FtpCommand

end FtpsServer
