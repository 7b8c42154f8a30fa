import TradeDesk.Proofs.Json.Numerals
import TradeDesk.Proofs.Json.Text

/-!
# Lexing

Every token takes at least one byte, so text is lexed token by token and the bound on their number
never matters.
-/

namespace TradeDesk.Json.Token

variable {bytes rest : List UInt8} {t : Token}

theorem length_lt_of_textBytes? {high : Option Nat} {tail : Option (List UInt8)}
    (h : textBytes? high bytes = some (tail, rest)) : rest.length < bytes.length := by
  fun_induction textBytes? high bytes generalizing tail with
  | case1 => cases h
  | case2 =>
    cases h
    exact Nat.lt_succ_self _
  | case3 => cases h
  | case7 => cases h
  | case9 => cases h
  | _ =>
    rename_i ih
    obtain ⟨⟨tail', rest'⟩, hmore, heq⟩ := Option.map_eq_some_iff.mp h
    obtain ⟨-, rfl⟩ := Prod.mk.inj heq
    have := ih hmore
    simp only [List.length_cons]
    omega

/-- Every token takes at least one byte. -/
theorem length_lt_of_next? (h : next? bytes = some (t, rest)) : rest.length < bytes.length := by
  unfold next? at h
  split at h
  case h_10 =>
    obtain ⟨⟨tail, rest'⟩, hmore, heq⟩ := Option.map_eq_some_iff.mp h
    obtain ⟨-, rfl⟩ := Prod.mk.inj heq
    exact Nat.lt_succ_of_lt (length_lt_of_textBytes? hmore)
  case h_11 =>
    obtain ⟨⟨n, rest'⟩, hnumeral, heq⟩ := Option.map_eq_some_iff.mp h
    obtain ⟨-, rfl⟩ := Prod.mk.inj heq
    obtain ⟨taken, hne, rfl, -⟩ := numeral?_taken hnumeral
    rw [List.length_append]
    exact Nat.lt_add_of_pos_left (List.length_pos_iff.mpr hne)
  all_goals
    obtain ⟨-, rfl⟩ := Prod.mk.inj (Option.some.inj h)
    simp only [List.length_cons]
    omega

/-- The bound on the number of tokens is never reached. -/
theorem lexWithin_congr {fuel fuel' : Nat} (hfuel : bytes.length ≤ fuel)
    (hfuel' : bytes.length ≤ fuel') : lexWithin fuel bytes = lexWithin fuel' bytes := by
  induction fuel generalizing fuel' bytes with
  | zero =>
    obtain rfl := List.eq_nil_of_length_eq_zero (Nat.le_zero.mp hfuel)
    cases fuel' <;> rfl
  | succ fuel ih =>
    cases fuel' with
    | zero =>
      obtain rfl := List.eq_nil_of_length_eq_zero (Nat.le_zero.mp hfuel')
      rfl
    | succ fuel' =>
      have hdrop := (List.dropWhile_suffix isBlank (l := bytes)).length_le
      unfold lexWithin
      split
      · rfl
      · cases hnext : next? (bytes.dropWhile isBlank) with
        | none => rfl
        | some x =>
          obtain ⟨token, rest⟩ := x
          have hrest := length_lt_of_next? hnext
          simp only [Option.bind_eq_bind, Option.bind_some]
          have hfewer : rest.length ≤ fuel ∧ rest.length ≤ fuel' := by omega
          rw [ih hfewer.1 hfewer.2]

/-- Text is lexed token by token, with blanks between them. -/
theorem lex_eq {b : UInt8} {more : List UInt8} (h : bytes.dropWhile isBlank = b :: more) :
    lex bytes = (next? (b :: more)).bind fun x ↦ (lex x.2).map (x.1 :: ·) := by
  have hdrop := (List.dropWhile_suffix isBlank (l := bytes)).length_le
  rw [lex, lexWithin_congr (Nat.le_refl _) (Nat.le_succ bytes.length)]
  simp only [lexWithin, h]
  cases hnext : next? (b :: more) with
  | none => rfl
  | some x =>
    have hrest := length_lt_of_next? hnext
    rw [← h] at hrest
    have hsame : lexWithin bytes.length x.2 = lex x.2 :=
      lexWithin_congr (by omega) (Nat.le_refl _)
    exact congrArg (Option.map (x.1 :: ·)) hsame

/-- A token that text begins with, and those of what follows it. -/
theorem lex_of_next? {b : UInt8} (hb : isBlank b = false)
    (h : next? (b :: bytes) = some (t, rest)) :
    lex (b :: bytes) = (lex rest).map (t :: ·) := by
  rw [lex_eq (List.dropWhile_cons_of_neg (Bool.eq_false_iff.mp hb)), h]
  rfl

end TradeDesk.Json.Token

namespace TradeDesk.Json

open Token (isDigit isBlank)

/-! ### What text begins with -/

theorem ofUtf8?_utf8 (s : String) : ofUtf8? (utf8 s) = some s := by
  unfold ofUtf8? utf8 String.fromUTF8?
  rw [dif_pos s.isValidUTF8]
  rfl

/-- Written text is one token. -/
theorem lex_quote (s : String) (rest : List UInt8) :
    Token.lex (quote s ++ rest) = (Token.lex rest).map (.text (some s) :: ·) := by
  apply Token.lex_of_next? (by decide)
  have htext : Token.textBytes? none (((utf8 s).flatMap escapeByte ++ [0x22]).append rest) =
      some (some (utf8 s), rest) := textBytes?_quote s rest
  change (Token.textBytes? none _).map _ = _
  rw [htext, Option.map_some]
  exact congrArg (fun text ↦ some (Token.text text, rest)) (ofUtf8?_utf8 s)

/-- The bytes that numbers are written with. -/
def isNumeric (b : UInt8) : Bool := isDigit b || b = 0x2E || b = 0x65 || b = 0x2B || b = 0x2D

theorem isNumeric_of_isNumeric {c : Char} (hc : Decimal.isNumeric c = true) :
    isNumeric c.toNat.toUInt8 = true := by
  simp only [Decimal.isNumeric, Bool.or_eq_true, decide_eq_true_eq] at hc
  rcases hc with (((hc | rfl) | rfl) | rfl) | rfl
  · simp [isNumeric, (isDigit_byte hc).1]
  all_goals decide

theorem isBlank_eq_false {b : UInt8} (hb : isNumeric b = true) : isBlank b = false := by
  refine Bool.eq_false_iff.mpr fun hblank ↦ ?_
  simp only [isBlank, Bool.or_eq_true, decide_eq_true_eq] at hblank
  rcases hblank with ((rfl | rfl) | rfl) | rfl
  all_goals exact absurd hb (by decide)

/-- Nothing but a number begins with one of those bytes. -/
theorem next?_of_isNumeric {b : UInt8} (hb : isNumeric b = true) (bytes : List UInt8) :
    Token.next? (b :: bytes) =
      (Token.numeral? (b :: bytes)).map fun x ↦ (.number x.1, x.2) := by
  unfold Token.next?
  split
  case h_11 => rfl
  all_goals
    next heq =>
    obtain ⟨rfl, -⟩ := List.cons.inj heq
    exact absurd hb (by decide)

/-- A number is one token. -/
theorem lex_of_numeral? {bytes rest : List UInt8} {n : Numeral}
    (h : Token.numeral? bytes = some (n, rest)) :
    Token.lex bytes = (Token.lex rest).map (.number n :: ·) := by
  obtain ⟨b, more, rfl, hb⟩ : ∃ b more, bytes = b :: more ∧ isNumeric b = true := by
    obtain ⟨body, afterWhole, afterPlaces, hbytes, hwhole, -⟩ := Token.numeral?_eq_some h
    obtain ⟨digits, hne, hall, rfl⟩ := Token.whole?_taken hwhole
    cases digits with
    | nil => exact absurd rfl hne
    | cons d digits =>
      split at hbytes
      · exact ⟨0x2D, _, hbytes, by decide⟩
      · exact ⟨d, _, hbytes, by simp [isNumeric, hall d List.mem_cons_self]⟩
  apply Token.lex_of_next? (isBlank_eq_false hb)
  rw [next?_of_isNumeric hb, h, Option.map_some]

end TradeDesk.Json
