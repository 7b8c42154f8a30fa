import Mathlib.Data.List.Induction
import TradeDesk.Console.Program
import TradeDesk.Proofs.Json.Lexing

/-!
# Lines of the input

The input is cut at line feeds, and a carriage return before one makes no difference to how a line is
read.
-/

namespace TradeDesk

namespace Json

theorem utf8_ofList (cs : List Char) :
    utf8 (String.ofList cs) = cs.flatMap String.utf8EncodeChar := by
  simp [utf8, List.utf8Encode]

theorem utf8_eq (s : String) : utf8 s = s.toList.flatMap String.utf8EncodeChar := by
  rw [← utf8_ofList, String.ofList_toList]

/-- Bytes that are UTF-8 are those of their text. -/
theorem eq_utf8_of_ofUtf8? {bytes : List UInt8} {s : String} (h : ofUtf8? bytes = some s) :
    bytes = utf8 s := by
  unfold ofUtf8? String.fromUTF8? at h
  split at h
  · cases h
    rfl
  · cases h

/-- A character of several bytes does not end with that of a carriage return. -/
private theorem eq_nil_of_utf8EncodeChar {c : Char} {l : List UInt8}
    (h : String.utf8EncodeChar c = l ++ [0x0D]) : l = [] := by
  have hlast : (String.utf8EncodeChar c).getLast? = some 0x0D := by rw [h, List.getLast?_concat]
  have hcontinuation (n : Nat) : UInt8.ofNat (n % 64 + 128) ≠ 0x0D := by
    intro heq
    have hnat := congrArg UInt8.toNat heq
    rw [UInt8.toNat_ofNat', Nat.mod_eq_of_lt (by omega)] at hnat
    change n % 64 + 128 = 13 at hnat
    omega
  unfold String.utf8EncodeChar at hlast h
  simp only at hlast h
  split at hlast
  · next hascii =>
    rw [if_pos hascii] at h
    have hlength := congrArg List.length h
    rw [List.length_append, List.length_singleton, List.length_singleton] at hlength
    exact List.eq_nil_of_length_eq_zero (by omega)
  · split at hlast
    · exact absurd (Option.some.inj hlast) (hcontinuation _)
    · split at hlast
      · exact absurd (Option.some.inj hlast) (hcontinuation _)
      · exact absurd (Option.some.inj hlast) (hcontinuation _)

/-- A carriage return behind bytes is one behind their text. -/
theorem ofUtf8?_concat_cr (bytes : List UInt8) :
    ofUtf8? (bytes ++ [0x0D]) = (ofUtf8? bytes).map (·.push '\r') := by
  cases h : ofUtf8? bytes with
  | some s =>
    have hpush : utf8 s ++ [0x0D] = utf8 (s.push '\r') := by
      rw [utf8_eq, utf8_eq, String.toList_push, List.flatMap_append]
      rfl
    rw [eq_utf8_of_ofUtf8? h, hpush, ofUtf8?_utf8]
    rfl
  | none =>
    cases ht : ofUtf8? (bytes ++ [0x0D]) with
    | none => rfl
    | some t =>
      have hbytes := eq_utf8_of_ofUtf8? ht
      rw [utf8_eq] at hbytes
      -- the last byte is all of the last character
      rcases List.eq_nil_or_concat t.toList with hnil | ⟨cs, c, hcs⟩
      · rw [hnil] at hbytes
        exact absurd hbytes (List.append_ne_nil_of_right_ne_nil _ (List.cons_ne_nil _ _))
      · rw [hcs, List.concat_eq_append, List.flatMap_append, List.flatMap_singleton] at hbytes
        rcases List.eq_nil_or_concat (String.utf8EncodeChar c) with hc | ⟨l, b, hc⟩
        · exact absurd hc String.utf8EncodeChar_ne_nil
        · rw [hc, List.concat_eq_append, ← List.append_assoc] at hbytes
          obtain ⟨hinit, hlast⟩ := List.append_inj' hbytes rfl
          cases hlast
          rw [List.concat_eq_append] at hc
          rw [eq_nil_of_utf8EncodeChar hc, List.append_nil, ← utf8_ofList] at hinit
          rw [hinit, ofUtf8?_utf8] at h
          cases h

end Json

namespace Console

open Json

/-- White space behind text is trimmed. -/
theorem trim_concat {c : Char} (hc : isSpace c = true) (s : List Char) :
    trim (s ++ [c]) = trim s := by
  unfold trim
  rw [List.dropWhile_append]
  split
  · next hempty =>
    rw [List.isEmpty_iff] at hempty
    rw [hempty, List.dropWhile_cons_of_pos hc]
    rfl
  · rw [List.reverse_append, List.reverse_singleton, List.singleton_append,
      List.dropWhile_cons_of_pos hc]

/-- A carriage return at the end of a line makes no difference. -/
theorem Reading.ofBytes_concat_cr (bytes : List UInt8) :
    Reading.ofBytes (bytes ++ [0x0D]) = Reading.ofBytes bytes := by
  have hmessage (line : String) : message? (line.push '\r') = message? line := by
    unfold message?
    rw [String.toList_push, trim_concat (by decide)]
  unfold Reading.ofBytes
  rw [ofUtf8?_concat_cr]
  cases ofUtf8? bytes with
  | none => rfl
  | some line => simp only [Option.map_some, hmessage]

private theorem linesFrom_append {line bytes : List UInt8} (h : 0x0A ∉ bytes)
    (rest : List UInt8) :
    linesFrom line (bytes ++ 0x0A :: rest) = (line.reverse ++ bytes) :: linesFrom [] rest := by
  induction bytes generalizing line with
  | nil => simp [linesFrom]
  | cons b bytes ih =>
    obtain ⟨hb, hbytes⟩ := not_or.mp (List.mem_cons.not.mp h)
    have hnext : linesFrom line (b :: (bytes ++ 0x0A :: rest)) =
        linesFrom (b :: line) (bytes ++ 0x0A :: rest) := by
      rw [linesFrom]
      exact fun heq ↦ hb heq.symm
    rw [List.cons_append, hnext, ih hbytes]
    simp

/-- Input is cut at its line feeds. -/
theorem lines_flatMap {input : List (List UInt8)} (h : ∀ bytes ∈ input, 0x0A ∉ bytes) :
    lines (input.flatMap (· ++ [0x0A])) = input := by
  induction input with
  | nil => rfl
  | cons bytes rest ih =>
    obtain ⟨hbytes, hrest⟩ := List.forall_mem_cons.mp h
    rw [List.flatMap_cons, List.append_assoc, List.singleton_append, lines,
      linesFrom_append hbytes, List.reverse_nil, List.nil_append]
    exact congrArg (bytes :: ·) (ih hrest)

end Console

end TradeDesk
