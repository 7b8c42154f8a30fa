import TradeDesk.Json.Token

/-!
# Written text is read back

Text between quotes is read back as the bytes that were escaped, whatever follows the closing quote.
Hence written text is told apart from all other text by where it ends.
-/

namespace TradeDesk.Json

/-! ### Single bytes -/

private theorem hexUnit?_hexDigit (n : Fin 32) :
    Token.hexUnit? 0x30 0x30 (hexDigit (UInt8.ofNat n / 16)) (hexDigit (UInt8.ofNat n % 16)) =
      some n.val := by
  revert n
  decide

private theorem pointBytes_control (n : Fin 32) : Token.pointBytes n = [UInt8.ofNat n] := by
  revert n
  decide

private theorem textBytes?_control (n : Fin 32) (rest : List UInt8) :
    Token.textBytes? none (0x5C :: 0x75 :: 0x30 :: 0x30 :: hexDigit (UInt8.ofNat n / 16) ::
        hexDigit (UInt8.ofNat n % 16) :: rest) =
      (Token.textBytes? none rest).map fun p ↦ (p.1.map (UInt8.ofNat n :: ·), p.2) := by
  have hn := n.isLt
  have hlow : ¬ (0xDC00 ≤ n.val ∧ n.val ≤ 0xDFFF) := by omega
  have hhigh : ¬ (0xD800 ≤ n.val ∧ n.val ≤ 0xDBFF) := by omega
  rw [Token.textBytes?, hexUnit?_hexDigit]
  simp only [if_neg hlow, if_neg hhigh, pointBytes_control]
  rfl

private theorem textBytes?_plain {b : UInt8} (hq : b ≠ 0x22) (hs : b ≠ 0x5C) (hc : ¬ b < 0x20)
    (rest : List UInt8) :
    Token.textBytes? none (b :: rest) =
      (Token.textBytes? none rest).map fun p ↦ (p.1.map (b :: ·), p.2) := by
  rw [Token.textBytes?]
  · rw [if_neg (by simp [hc, hs])]
    rfl
  · exact hq
  · exact fun _ _ _ _ _ he _ ↦ hs he
  · exact fun _ _ he _ ↦ hs he

/-- An escaped byte is read back. -/
theorem textBytes?_escapeByte (b : UInt8) (rest : List UInt8) :
    Token.textBytes? none (escapeByte b ++ rest) =
      (Token.textBytes? none rest).map fun p ↦ (p.1.map (b :: ·), p.2) := by
  by_cases hq : b = 0x22
  · rw [hq]
    rfl
  by_cases hs : b = 0x5C
  · rw [hs]
    rfl
  by_cases hb : b = 0x08
  · rw [hb]
    rfl
  by_cases hf : b = 0x0C
  · rw [hf]
    rfl
  by_cases hn : b = 0x0A
  · rw [hn]
    rfl
  by_cases hr : b = 0x0D
  · rw [hr]
    rfl
  by_cases ht : b = 0x09
  · rw [ht]
    rfl
  rw [escapeByte, if_neg hq, if_neg hs, if_neg hb, if_neg hf, if_neg hn, if_neg hr, if_neg ht]
  split
  · next hc =>
    have hlt : b.toNat < 32 := UInt8.lt_iff_toNat_lt.mp hc
    have h := textBytes?_control ⟨b.toNat, hlt⟩ rest
    rw [UInt8.ofNat_toNat] at h
    exact h
  · next hc => exact textBytes?_plain hq hs hc rest

/-! ### Text -/

/-- Escaped bytes are read back up to the closing quote. -/
theorem textBytes?_flatMap_escapeByte (bytes rest : List UInt8) :
    Token.textBytes? none (bytes.flatMap escapeByte ++ 0x22 :: rest) = some (some bytes, rest) := by
  induction bytes with
  | nil => rfl
  | cons b bytes ih =>
    rw [List.flatMap_cons, List.append_assoc, textBytes?_escapeByte, ih]
    rfl

/-- Written text is read back from its opening quote on, up to the closing one. -/
theorem textBytes?_quote (s : String) (rest : List UInt8) :
    Token.textBytes? none ((quote s ++ rest).tail) = some (some (utf8 s), rest) := by
  have h := textBytes?_flatMap_escapeByte (utf8 s) rest
  rw [← List.singleton_append, ← List.append_assoc] at h
  exact h

/-- Text is determined by its bytes. -/
theorem utf8_injective {s t : String} (h : utf8 s = utf8 t) : s = t := by
  apply String.toByteArray_inj.mp
  apply ByteArray.ext
  apply Array.toList_inj.mp
  exact h

/-- Written text, followed by anything, determines the text and what follows. -/
theorem quote_append_inj {s t : String} {rest rest' : List UInt8}
    (h : quote s ++ rest = quote t ++ rest') : s = t ∧ rest = rest' := by
  have hs := textBytes?_quote s rest
  rw [h, textBytes?_quote t rest'] at hs
  obtain ⟨hu, hr⟩ := Prod.mk.inj (Option.some.inj hs)
  exact ⟨utf8_injective (Option.some.inj hu).symm, hr.symm⟩

/-! ### Members -/

private theorem writeMembers_cons (m : String × Value) {rest : List (String × Value)}
    (h : rest ≠ []) :
    Value.writeMembers (m :: rest) =
      quote m.1 ++ (0x3A :: m.2.write ++ 0x2C :: Value.writeMembers rest) := by
  obtain ⟨n, rest, rfl⟩ := List.exists_cons_of_ne_nil h
  rw [← List.append_assoc]
  rfl

/-- Members are written one after another with commas between them. -/
theorem writeMembers_append {members more : List (String × Value)} (h : members ≠ [])
    (hm : more ≠ []) :
    Value.writeMembers (members ++ more) =
      Value.writeMembers members ++ 0x2C :: Value.writeMembers more := by
  induction members with
  | nil => exact absurd rfl h
  | cons m rest ih =>
    cases rest with
    | nil =>
      rw [List.singleton_append, writeMembers_cons m hm, ← List.append_assoc]
      rfl
    | cons n rest =>
      have hne : n :: rest ≠ [] := List.cons_ne_nil n rest
      rw [List.cons_append, writeMembers_cons m (List.append_ne_nil_of_left_ne_nil hne more),
        ih hne, writeMembers_cons m hne]
      simp only [List.append_assoc, List.cons_append]

end TradeDesk.Json
