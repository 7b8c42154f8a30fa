import TradeDesk.Json.Token

/-!
# Numbers in text

A number is read digit by digit, and it ends where nothing can go on with it, whatever comes after.
An integer is read as it was written.
-/

namespace TradeDesk.Json.Token

variable {bytes rest left : List UInt8} {run : List Nat} {n : Numeral} {p : Option Int}

/-! ### Digits -/

/-- Text that does not begin with a digit. -/
def NoDigit (rest : List UInt8) : Prop := ∀ b ∈ rest.head?, isDigit b = false

theorem digits?_append {digits : List UInt8} (hne : digits ≠ []) (hall : ∀ b ∈ digits, isDigit b)
    (hrest : NoDigit rest) :
    digits? (digits ++ rest) = some (digits.map fun b ↦ b.toNat - 0x30, rest) := by
  have hstop : rest.takeWhile isDigit = [] ∧ rest.dropWhile isDigit = rest := by
    cases rest with
    | nil => exact ⟨rfl, rfl⟩
    | cons b rest => simp [hrest b rfl]
  unfold digits?
  rw [List.takeWhile_append_of_pos hall, List.dropWhile_append_of_pos hall, hstop.1, hstop.2,
    List.append_nil]
  cases digits with
  | nil => exact absurd rfl hne
  | cons b digits => rfl

/-- What is read as digits are all digits up to something else. -/
theorem digits?_eq_some (h : digits? bytes = some (run, rest)) :
    ∃ digits, digits ≠ [] ∧ (∀ b ∈ digits, isDigit b = true) ∧ bytes = digits ++ rest ∧
      run = digits.map (fun b ↦ b.toNat - 0x30) ∧ NoDigit rest := by
  unfold digits? at h
  split at h
  · cases h
  · next hne =>
    cases h
    refine ⟨bytes.takeWhile isDigit, hne, List.all_eq_true.mp List.all_takeWhile,
      List.takeWhile_append_dropWhile.symm, rfl, fun b hb ↦ ?_⟩
    have hhead := List.head?_dropWhile_not isDigit bytes
    rw [hb] at hhead
    exact hhead

/-- Text that no digits can go on with. -/
theorem noDigit_append (hleft : NoDigit left) (hrest : NoDigit rest) : NoDigit (left ++ rest) := by
  cases left with
  | nil => exact hrest
  | cons b left => exact hleft

theorem digits?_eq_some_append (h : digits? bytes = some (run, left)) (hrest : NoDigit rest) :
    digits? (bytes ++ rest) = some (run, left ++ rest) := by
  obtain ⟨digits, hne, hall, rfl, rfl, hleft⟩ := digits?_eq_some h
  rw [List.append_assoc, digits?_append hne hall (noDigit_append hleft hrest)]

/-! ### Numbers -/

/-- Text with which no number goes on. -/
structure NoNumber (rest : List UInt8) : Prop where
  noDigit : NoDigit rest
  noPoint : ∀ b ∈ rest.head?, b ≠ 0x2E
  noPower : ∀ b ∈ rest.head?, b ≠ 0x65 ∧ b ≠ 0x45

theorem whole?_zero (hrest : NoDigit rest) : whole? (0x30 :: rest) = some ([0], rest) := by
  cases rest with
  | nil => rfl
  | cons b rest =>
    have hb : ¬ isDigit b = true := Bool.eq_false_iff.mp (hrest b rfl)
    exact if_neg hb

theorem whole?_of_ne {b : UInt8} (hb : b ≠ 0x30) : whole? (b :: rest) = digits? (b :: rest) := by
  unfold whole?
  split
  · next heq => exact absurd (List.cons.inj heq).1 hb
  · rfl

/-- The digits before a point are a zero, or they begin with something else. -/
theorem whole?_eq_some (h : whole? bytes = some (run, rest)) :
    (bytes = 0x30 :: rest ∧ run = [0] ∧ NoDigit rest) ∨
      ((∀ more, bytes ≠ 0x30 :: more) ∧ digits? bytes = some (run, rest)) := by
  unfold whole? at h
  split at h
  · next more =>
    split at h
    · cases h
    · next hmore =>
      cases h
      refine Or.inl ⟨rfl, rfl, fun b hb ↦ ?_⟩
      rw [hb] at hmore
      exact Bool.eq_false_iff.mpr hmore
  · next hzero => exact Or.inr ⟨hzero, h⟩

/-- The digits before a point are digits. -/
theorem whole?_taken (h : whole? bytes = some (run, rest)) :
    ∃ digits, digits ≠ [] ∧ (∀ b ∈ digits, isDigit b = true) ∧ bytes = digits ++ rest := by
  rcases whole?_eq_some h with ⟨rfl, -, -⟩ | ⟨-, h⟩
  · exact ⟨[0x30], List.cons_ne_nil _ _, fun b hb ↦ List.mem_singleton.mp hb ▸ rfl, rfl⟩
  · obtain ⟨digits, hne, hall, hbytes, -⟩ := digits?_eq_some h
    exact ⟨digits, hne, hall, hbytes⟩

theorem whole?_append (h : whole? bytes = some (run, left)) (hrest : NoDigit rest) :
    whole? (bytes ++ rest) = some (run, left ++ rest) := by
  rcases whole?_eq_some h with ⟨rfl, rfl, hleft⟩ | ⟨hzero, h⟩
  · exact whole?_zero (noDigit_append hleft hrest)
  · have hmore := digits?_eq_some_append h hrest
    cases bytes with
    | nil => cases h
    | cons b bytes =>
      rw [List.cons_append] at hmore ⊢
      rw [whole?_of_ne fun hb ↦ hzero bytes (hb ▸ rfl), hmore]

theorem fraction?_of_ne (hpoint : ∀ b ∈ bytes.head?, b ≠ 0x2E) :
    fraction? bytes = some ([], bytes) := by
  unfold fraction?
  split
  · exact absurd rfl (hpoint 0x2E rfl)
  · rfl

/-- There are no digits after a point, or there is a point. -/
theorem fraction?_eq_some (h : fraction? bytes = some (run, rest)) :
    (run = [] ∧ bytes = rest ∧ ∀ b ∈ bytes.head?, b ≠ 0x2E) ∨
      ∃ more, bytes = 0x2E :: more ∧ digits? more = some (run, rest) := by
  unfold fraction? at h
  split at h
  · next more => exact Or.inr ⟨more, rfl, h⟩
  · next hpoint =>
    cases h
    refine Or.inl ⟨rfl, rfl, fun b hb heq ↦ ?_⟩
    obtain ⟨more, hmore⟩ := List.head?_eq_some_iff.mp hb
    exact hpoint more (heq ▸ hmore)

theorem fraction?_append (h : fraction? bytes = some (run, left)) (hrest : NoNumber rest) :
    fraction? (bytes ++ rest) = some (run, left ++ rest) := by
  rcases fraction?_eq_some h with ⟨rfl, rfl, hpoint⟩ | ⟨more, rfl, h⟩
  · apply fraction?_of_ne
    cases bytes with
    | nil => exact hrest.noPoint
    | cons b bytes => exact hpoint
  · exact digits?_eq_some_append h hrest.noDigit

theorem fraction?_taken (h : fraction? bytes = some (run, rest)) :
    ∃ taken, bytes = taken ++ rest ∧ (run = [] → taken = []) := by
  rcases fraction?_eq_some h with ⟨-, rfl, -⟩ | ⟨more, rfl, hmore⟩
  · exact ⟨[], rfl, fun _ ↦ rfl⟩
  · obtain ⟨digits, hne, -, rfl, hrun, -⟩ := digits?_eq_some hmore
    refine ⟨0x2E :: digits, rfl, fun hnil ↦ absurd ?_ hne⟩
    exact List.map_eq_nil_iff.mp (hrun.symm.trans hnil)

theorem power?_of_ne (hpower : ∀ b ∈ bytes.head?, b ≠ 0x65 ∧ b ≠ 0x45) :
    power? bytes = some (none, bytes) := by
  unfold power?
  split
  · exact absurd rfl (hpower 0x65 rfl).1
  · exact absurd rfl (hpower 0x45 rfl).2
  · rfl

/-- There is no power of ten, or there are digits after a mark. -/
theorem power?_cases (bytes : List UInt8) :
    (∀ rest, NoNumber rest → power? (bytes ++ rest) = some (none, bytes ++ rest)) ∨
      power? bytes = none ∨
      ∃ (mark more : List UInt8) (sign : Int), bytes = mark ++ more ∧
        ∀ rest, power? (bytes ++ rest) =
          (digits? (more ++ rest)).map fun x ↦ (some (sign * (Numeral.value x.1 : Int)), x.2) := by
  cases bytes with
  | nil => exact Or.inl fun rest hrest ↦ power?_of_ne hrest.noPower
  | cons b more =>
    by_cases hmark : b = 0x65 ∨ b = 0x45
    · right
      cases more with
      | nil =>
        left
        rcases hmark with rfl | rfl <;> rfl
      | cons c more =>
        right
        by_cases hplus : c = 0x2B
        · refine ⟨[b, c], more, 1, rfl, fun rest ↦ ?_⟩
          rcases hmark with rfl | rfl <;> subst hplus <;> rfl
        by_cases hminus : c = 0x2D
        · refine ⟨[b, c], more, -1, rfl, fun rest ↦ ?_⟩
          rcases hmark with rfl | rfl <;> subst hminus <;> rfl
        refine ⟨[b], c :: more, 1, rfl, fun rest ↦ ?_⟩
        rcases hmark with rfl | rfl
        all_goals
          simp only [power?, List.cons_append]
          split
          · next heq => exact absurd (List.cons.inj heq).1 hplus
          · next heq => exact absurd (List.cons.inj heq).1 hminus
          · rfl
    · exact Or.inl fun rest _ ↦ power?_of_ne fun c hc ↦ by
        cases hc
        exact not_or.mp hmark

theorem power?_eq_some (h : power? bytes = some (p, rest)) :
    (p = none ∧ bytes = rest ∧
        ∀ more, NoNumber more → power? (bytes ++ more) = some (none, bytes ++ more)) ∨
      ∃ (mark digits : List UInt8) (run : List Nat) (sign : Int), bytes = mark ++ digits ∧
        digits? digits = some (run, rest) ∧ p = some (sign * (Numeral.value run : Int)) ∧
        ∀ more, power? (bytes ++ more) =
          (digits? (digits ++ more)).map fun x ↦ (some (sign * (Numeral.value x.1 : Int)), x.2) := by
  rcases power?_cases bytes with hnone | hnone | ⟨mark, digits, sign, hbytes, hdigits⟩
  · have hsame := hnone [] ⟨nofun, nofun, nofun⟩
    rw [List.append_nil, h] at hsame
    cases hsame
    exact Or.inl ⟨rfl, rfl, hnone⟩
  · rw [hnone] at h
    cases h
  · have hsame := hdigits []
    rw [List.append_nil, List.append_nil, h] at hsame
    obtain ⟨⟨run, rest'⟩, hrun, heq⟩ := Option.map_eq_some_iff.mp hsame.symm
    cases heq
    exact Or.inr ⟨mark, digits, run, sign, hbytes, hrun, rfl, hdigits⟩

theorem power?_append (h : power? bytes = some (p, left)) (hrest : NoNumber rest) :
    power? (bytes ++ rest) = some (p, left ++ rest) := by
  rcases power?_eq_some h with ⟨rfl, rfl, hnone⟩ | ⟨_, digits, run, sign, -, hrun, rfl, hdigits⟩
  · exact hnone rest hrest
  · rw [hdigits, digits?_eq_some_append hrun hrest.noDigit]
    rfl

theorem power?_taken (h : power? bytes = some (p, rest)) :
    ∃ taken, bytes = taken ++ rest ∧ (p = none → taken = []) := by
  rcases power?_eq_some h with ⟨-, rfl, -⟩ | ⟨mark, digits, run, sign, rfl, hrun, rfl, -⟩
  · exact ⟨[], rfl, fun _ ↦ rfl⟩
  · obtain ⟨taken, -, -, rfl, -, -⟩ := digits?_eq_some hrun
    exact ⟨mark ++ taken, (List.append_assoc _ _ _).symm, nofun⟩

/-- A number is read in three parts, after a minus sign or not. -/
theorem numeral?_eq_some (h : numeral? bytes = some (n, rest)) :
    ∃ body afterWhole afterPlaces,
      bytes = (if n.negative then 0x2D :: body else body) ∧
        whole? body = some (n.whole, afterWhole) ∧
        fraction? afterWhole = some (n.places, afterPlaces) ∧
        power? afterPlaces = some (n.power, rest) := by
  unfold numeral? at h
  simp only at h
  obtain ⟨⟨whole, afterWhole⟩, hwhole, h⟩ := Option.bind_eq_some_iff.mp h
  obtain ⟨⟨places, afterPlaces⟩, hplaces, h⟩ := Option.bind_eq_some_iff.mp h
  obtain ⟨⟨power, rest'⟩, hpower, h⟩ := Option.bind_eq_some_iff.mp h
  cases h
  refine ⟨_, afterWhole, afterPlaces, ?_, hwhole, hplaces, hpower⟩
  split
  · rfl
  · rfl

theorem numeral?_of_parts (negative : Bool) {body afterWhole afterPlaces : List UInt8}
    {whole places : List Nat} (hwhole : whole? body = some (whole, afterWhole))
    (hplaces : fraction? afterWhole = some (places, afterPlaces))
    (hpower : power? afterPlaces = some (p, rest)) :
    numeral? (if negative then 0x2D :: body else body) =
      some (⟨negative, whole, places, p⟩, rest) := by
  cases negative with
  | true => simp [numeral?, hwhole, hplaces, hpower]
  | false =>
    obtain ⟨digits, hne, hall, rfl⟩ := whole?_taken hwhole
    cases digits with
    | nil => exact absurd rfl hne
    | cons b digits =>
      have hb : b ≠ 0x2D := by
        rintro rfl
        exact absurd (hall 0x2D List.mem_cons_self) (by decide)
      rw [List.cons_append] at hwhole
      rw [if_neg Bool.false_ne_true, List.cons_append]
      unfold numeral?
      split
      next heq =>
        split at heq
        · next heq' => exact absurd (List.cons.inj heq').1 hb
        · cases heq
          simp [hwhole, hplaces, hpower]

/-- A number is read as far as it goes, whatever comes after that no number goes on with. -/
theorem numeral?_append (h : numeral? bytes = some (n, left)) (hrest : NoNumber rest) :
    numeral? (bytes ++ rest) = some (n, left ++ rest) := by
  obtain ⟨body, afterWhole, afterPlaces, rfl, hwhole, hplaces, hpower⟩ := numeral?_eq_some h
  have hall := numeral?_of_parts n.negative (whole?_append hwhole hrest.noDigit)
    (fraction?_append hplaces hrest) (power?_append hpower hrest)
  rw [← hall]
  cases n.negative <;> rfl

/-- A number takes at least one byte, and nothing but digits after a minus sign or not if it has
neither places nor a power. -/
theorem numeral?_taken (h : numeral? bytes = some (n, rest)) :
    ∃ taken, taken ≠ [] ∧ bytes = taken ++ rest ∧
      (n.places = [] → n.power = none → ∀ b ∈ taken, b = 0x2D ∨ isDigit b = true) := by
  obtain ⟨body, afterWhole, afterPlaces, rfl, hwhole, hplaces, hpower⟩ := numeral?_eq_some h
  obtain ⟨digits, hne, hall, rfl⟩ := whole?_taken hwhole
  obtain ⟨places, rfl, hnoPlaces⟩ := fraction?_taken hplaces
  obtain ⟨power, rfl, hnoPower⟩ := power?_taken hpower
  refine ⟨(if n.negative then [0x2D] else []) ++ digits ++ places ++ power, ?_, ?_, ?_⟩
  · simp [hne]
  · cases n.negative <;> simp
  · intro hnil hnone b hb
    rw [hnoPlaces hnil, hnoPower hnone, List.append_nil, List.append_nil, List.mem_append] at hb
    cases hb with
    | inl hb =>
      split at hb
      · exact Or.inl (List.mem_singleton.mp hb)
      · cases hb
    | inr hb => exact Or.inr (hall b hb)

end TradeDesk.Json.Token

namespace TradeDesk.Json

open Token (isDigit NoDigit NoNumber)

/-! ### Written integers -/

namespace Numeral

/-- The numeral that an integer is written as. -/
def ofInt (i : Int) : Numeral :=
  ⟨decide (i < 0), (Nat.toDigits 10 i.natAbs).map fun c ↦ c.toNat - '0'.toNat, [], none⟩

/-- An integer is read back. -/
theorem toInt?_ofInt (i : Int) : (ofInt i).toInt? = some i := by
  have hvalue : value (ofInt i).whole = i.natAbs := by
    rw [ofInt, value, List.foldl_map]
    exact Nat.ofDigitChars_toDigits (by decide) (by decide)
  unfold toInt?
  rw [hvalue]
  cases i with
  | ofNat n => rfl
  | negSucc n =>
    have hneg : (ofInt (Int.negSucc n)).negative = true := decide_eq_true (Int.negSucc_lt_zero n)
    rw [hneg, Int.natAbs_negSucc]
    rfl

end Numeral

/-- The byte of a digit. -/
theorem isDigit_byte {c : Char} (hc : c.isDigit = true) :
    isDigit c.toNat.toUInt8 = true ∧ c.toNat.toUInt8.toNat = c.toNat := by
  obtain ⟨hlow, hhigh⟩ : 48 ≤ c.toNat ∧ c.toNat ≤ 57 := by
    simpa [Char.isDigit, UInt32.le_iff_toNat_le] using hc
  have hbyte : c.toNat.toUInt8.toNat = c.toNat := Nat.mod_eq_of_lt (by omega)
  refine ⟨?_, hbyte⟩
  simp only [isDigit, Bool.and_eq_true, decide_eq_true_eq, UInt8.le_iff_toNat_le, hbyte]
  exact ⟨hlow, hhigh⟩

/-- The bytes of digits are digits. -/
theorem isDigit_of_mem_ascii {n : Nat} {b : UInt8} (hb : b ∈ ascii (Nat.toDigits 10 n)) :
    isDigit b = true := by
  obtain ⟨c, hc, rfl⟩ := List.mem_map.mp hb
  exact (isDigit_byte (Nat.isDigit_of_mem_toDigits (by decide) (by decide) hc)).1

theorem ascii_toDigits_ne_nil (n : Nat) : ascii (Nat.toDigits 10 n) ≠ [] :=
  fun h ↦ Nat.toDigits_ne_nil (List.map_eq_nil_iff.mp h)

theorem map_ascii_toDigits (n : Nat) :
    (ascii (Nat.toDigits 10 n)).map (fun b ↦ b.toNat - 0x30) =
      (Nat.toDigits 10 n).map fun c ↦ c.toNat - '0'.toNat := by
  rw [ascii, List.map_map]
  refine List.map_congr_left fun c hc ↦ ?_
  rw [Function.comp_apply,
    (isDigit_byte (Nat.isDigit_of_mem_toDigits (by decide) (by decide) hc)).2]
  rfl

/-- Only zero is written with a leading zero. -/
theorem head?_toDigits {n : Nat} (hn : n ≠ 0) : (Nat.toDigits 10 n).head? ≠ some '0' := by
  induction n using Nat.strongRecOn with
  | ind n ih =>
    rw [Nat.toDigits_eq_if (by decide)]
    split
    · next hlt =>
      intro h
      have hzero : ∀ d : Fin 10, d.val ≠ 0 → Nat.digitChar d ≠ '0' := by decide
      exact hzero ⟨n, hlt⟩ hn (Option.some.inj h)
    · next hge =>
      have hquotient := ih (n / 10) (by omega) (by omega)
      cases hdigits : Nat.toDigits 10 (n / 10) with
      | nil => exact absurd hdigits Nat.toDigits_ne_nil
      | cons c digits =>
        rw [hdigits] at hquotient
        exact hquotient

theorem whole?_toDigits (n : Nat) {rest : List UInt8} (hrest : NoDigit rest) :
    Token.whole? (ascii (Nat.toDigits 10 n) ++ rest) =
      some ((Nat.toDigits 10 n).map fun c ↦ c.toNat - '0'.toNat, rest) := by
  by_cases hn : n = 0
  · subst hn
    exact Token.whole?_zero hrest
  · have hdigits := Token.digits?_append (ascii_toDigits_ne_nil n)
      (fun b ↦ isDigit_of_mem_ascii) hrest
    rw [map_ascii_toDigits] at hdigits
    have hhead := head?_toDigits hn
    cases htext : Nat.toDigits 10 n with
    | nil => exact absurd htext Nat.toDigits_ne_nil
    | cons c digits =>
      rw [htext] at hdigits hhead
      have hc : c.toNat.toUInt8 ≠ 0x30 := by
        intro hc
        have hdigit : c.isDigit = true := Nat.isDigit_of_mem_toDigits (b := 10) (n := n) (by decide)
          (by decide) (htext ▸ List.mem_cons_self)
        have hval := (isDigit_byte hdigit).2
        rw [hc] at hval
        exact hhead (congrArg some (Char.toNat_inj.mp hval.symm))
      rw [← hdigits]
      exact Token.whole?_of_ne hc

/-- A written integer is read as its numeral. -/
theorem numeral?_integer (i : Int) {rest : List UInt8} (hrest : NoNumber rest) :
    Token.numeral? (integer i ++ rest) = some (.ofInt i, rest) := by
  have hparts := fun negative ↦ Token.numeral?_of_parts negative
    (whole?_toDigits i.natAbs hrest.noDigit) (Token.fraction?_of_ne hrest.noPoint)
    (Token.power?_of_ne hrest.noPower)
  cases i with
  | ofNat n => exact hparts false
  | negSucc n =>
    have hneg : decide (Int.negSucc n < 0) = true := decide_eq_true (Int.negSucc_lt_zero n)
    rw [Numeral.ofInt, hneg]
    exact hparts true

end TradeDesk.Json
