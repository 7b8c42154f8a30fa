import TradeDesk.Json.Codec
import TradeDesk.Proofs.Json.Building
import TradeDesk.Proofs.Json.Lexing

/-!
# Written values are parsed

The text of a value is parsed as the document that lists the same items and members in the same
order, provided that its doubles are read back. Reading rounds more than once, so not every double
is; that it is, is asked of each double on its own.
-/

namespace TradeDesk.Json

open Token (isDigit isBlank NoDigit NoNumber)

/-- The text of a double is read back as that double. -/
def ReadsBack (x : Float) : Prop := Codec.parse? (Value.float x).write = some x

instance (x : Float) : Decidable (ReadsBack x) :=
  inferInstanceAs (Decidable (Codec.parse? (Value.float x).write = some x))

/-- If a double is finite, its text is read back as that double. -/
def KeptIfFinite (x : Float) : Prop := x.isFinite = true → ReadsBack x

instance (x : Float) : Decidable (KeptIfFinite x) :=
  inferInstanceAs (Decidable (x.isFinite = true → ReadsBack x))

-- Its digits, read as an integer, are rounded once, and divided by a power of ten once more.
example : ¬ KeptIfFinite 0.49139999999999995 := by decide +kernel

/-- The numeral that a double is written as. -/
def Numeral.ofFloat (x : Float) : Numeral :=
  ((Token.numeral? (float x)).map Prod.fst).getD (ofInt 0)

/-! ### Written doubles -/

variable {x : Float}

/-- Text without tokens has none of the bytes of a number. -/
theorem eq_nil_of_lex {bytes : List UInt8} (hbytes : ∀ b ∈ bytes, isNumeric b = true)
    (h : Token.lex bytes = some []) : bytes = [] := by
  cases bytes with
  | nil => rfl
  | cons b more =>
    have hb := Bool.eq_false_iff.mp (isBlank_eq_false (hbytes b List.mem_cons_self))
    rw [Token.lex_eq (List.dropWhile_cons_of_neg hb)] at h
    obtain ⟨x, -, hx⟩ := Option.bind_eq_some_iff.mp h
    obtain ⟨ts, -, hts⟩ := Option.map_eq_some_iff.mp hx
    cases hts

/-- Text of such bytes that is parsed is one numeral. -/
theorem numeral?_of_parse? {bytes : List UInt8} {d : Document}
    (hbytes : ∀ b ∈ bytes, isNumeric b = true) (h : Document.parse? bytes = some d) :
    ∃ n, d = .number n ∧ Token.numeral? bytes = some (n, []) := by
  obtain ⟨tokens, hlex, htokens⟩ := Option.bind_eq_some_iff.mp h
  cases bytes with
  | nil =>
    cases hlex
    cases htokens
  | cons b more =>
    have hb := hbytes b List.mem_cons_self
    rw [Token.lex_eq (List.dropWhile_cons_of_neg (Bool.eq_false_iff.mp (isBlank_eq_false hb))),
      next?_of_isNumeric hb] at hlex
    obtain ⟨x, hx, hrest⟩ := Option.bind_eq_some_iff.mp hlex
    obtain ⟨⟨n, rest⟩, hnumeral, rfl⟩ := Option.map_eq_some_iff.mp hx
    obtain ⟨ts, hts, rfl⟩ := Option.map_eq_some_iff.mp hrest
    obtain ⟨taken, -, htaken, -⟩ := Token.numeral?_taken hnumeral
    -- After a number at the start the document is done, and no token may follow.
    cases ts with
    | cons t ts => cases htokens
    | nil =>
      cases htokens
      have hempty : rest = [] := eq_nil_of_lex
        (fun b hb ↦ hbytes b (htaken ▸ List.mem_append_right taken hb)) hts
      exact ⟨n, rfl, hempty ▸ hnumeral⟩

/-- The text of a double that is read back is a numeral, and not one of an integer. -/
theorem numeral?_float (h : ReadsBack x) :
    Token.numeral? (float x) = some (.ofFloat x, []) ∧ (Numeral.ofFloat x).toInt? = none ∧
      (Numeral.ofFloat x).toFloat? = some x := by
  obtain ⟨d, hparse, hread⟩ := Option.bind_eq_some_iff.mp h
  cases hwire : Binary64.wire? x with
  | none =>
    have hnull : Document.parse? (ascii ['n', 'u', 'l', 'l']) = some .null := rfl
    rw [Value.write, float, hwire] at hparse
    cases hnull.symm.trans hparse
    cases hread
  | some text =>
    obtain ⟨hall, hmark⟩ := Binary64.wire?_eq_some hwire
    have hfloat : float x = ascii text := by rw [float, hwire, Option.getD_some]
    have hbytes : ∀ b ∈ float x, isNumeric b = true := by
      intro b hb
      rw [hfloat] at hb
      obtain ⟨c, hc, rfl⟩ := List.mem_map.mp hb
      exact isNumeric_of_isNumeric (hall c hc)
    obtain ⟨n, rfl, hnumeral⟩ := numeral?_of_parse? hbytes hparse
    have hn : Numeral.ofFloat x = n := by rw [Numeral.ofFloat, hnumeral]; rfl
    rw [hn]
    refine ⟨hnumeral, ?_, hread⟩
    obtain ⟨taken, -, htaken, hplain⟩ := Token.numeral?_taken hnumeral
    rw [List.append_nil] at htaken
    subst htaken
    have hpoint : (0x2E : UInt8) ∈ float x ∨ (0x65 : UInt8) ∈ float x := by
      rw [hfloat]
      exact hmark.imp (List.mem_map_of_mem (f := fun c : Char ↦ c.toNat.toUInt8))
        (List.mem_map_of_mem (f := fun c : Char ↦ c.toNat.toUInt8))
    unfold Numeral.toInt?
    split
    · next hinteger =>
      simp only [Bool.and_eq_true, List.isEmpty_iff, Option.isNone_iff_eq_none] at hinteger
      have hdigits := hplain hinteger.1 hinteger.2
      rcases hpoint with hpoint | hpoint
      · exact absurd (hdigits _ hpoint) (by decide)
      · exact absurd (hdigits _ hpoint) (by decide)
    · rfl

namespace Value

mutual

/-- The doubles of a value. -/
def floats : Value → List Float
  | null => []
  | bool _ => []
  | int _ => []
  | float x => [x]
  | text _ => []
  | array items => itemFloats items
  | object members => memberFloats members

/-- The doubles of items. -/
def itemFloats : List Value → List Float
  | [] => []
  | v :: rest => floats v ++ itemFloats rest

/-- The doubles of members. -/
def memberFloats : List (String × Value) → List Float
  | [] => []
  | (_, v) :: rest => floats v ++ memberFloats rest

end

mutual

/-- The document that the text of a value is parsed as. -/
def document : Value → Document
  | null => .null
  | bool b => .bool b
  | int n => .number (.ofInt n)
  | float x => .number (.ofFloat x)
  | text s => .text (some s)
  | array items => .array (itemDocuments items)
  | object members => .object (memberDocuments members)

/-- The documents of items. -/
def itemDocuments : List Value → List Document
  | [] => []
  | v :: rest => document v :: itemDocuments rest

/-- The documents of members. -/
def memberDocuments : List (String × Value) → List (Option String × Document)
  | [] => []
  | (k, v) :: rest => (some k, document v) :: memberDocuments rest

end

theorem itemFloats_eq (items : List Value) : itemFloats items = items.flatMap floats := by
  induction items with
  | nil => rfl
  | cons v rest ih => rw [itemFloats, ih, List.flatMap_cons]

theorem memberFloats_eq (members : List (String × Value)) :
    memberFloats members = members.flatMap (·.2.floats) := by
  induction members with
  | nil => rfl
  | cons m rest ih => rw [memberFloats, ih, List.flatMap_cons]

theorem memberFloats_append (members more : List (String × Value)) :
    memberFloats (members ++ more) = memberFloats members ++ memberFloats more := by
  rw [memberFloats_eq, memberFloats_eq, memberFloats_eq, List.flatMap_append]

theorem itemDocuments_eq (items : List Value) : itemDocuments items = items.map document := by
  induction items with
  | nil => rfl
  | cons v rest ih => rw [itemDocuments, ih, List.map_cons]

theorem memberDocuments_eq (members : List (String × Value)) :
    memberDocuments members = members.map fun m ↦ (some m.1, m.2.document) := by
  induction members with
  | nil => rfl
  | cons m rest ih => rw [memberDocuments, ih, List.map_cons]

/-! ### The tokens of written values -/

theorem noNumber_cons {b : UInt8} (hb : b = 0x2C ∨ b = 0x5D ∨ b = 0x7D) (rest : List UInt8) :
    NoNumber (b :: rest) := by
  refine ⟨fun c hc ↦ ?_, fun c hc ↦ ?_, fun c hc ↦ ?_⟩
  all_goals
    cases hc
    rcases hb with rfl | rfl | rfl <;> decide

mutual

/-- The tokens of written text are those of the value and then those of what follows. -/
theorem lex_write (v : Value) (hv : ∀ x ∈ v.floats, ReadsBack x) {rest : List UInt8}
    (hrest : NoNumber rest) :
    Token.lex (v.write ++ rest) = (Token.lex rest).map (v.document.tokens ++ ·) := by
  cases v with
  | null => exact Token.lex_of_next? rfl rfl
  | bool b =>
    cases b with
    | true => exact Token.lex_of_next? rfl rfl
    | false => exact Token.lex_of_next? rfl rfl
  | int n => exact lex_of_numeral? (numeral?_integer n hrest)
  | float x =>
    have hx := (numeral?_float (hv x List.mem_cons_self)).1
    exact lex_of_numeral? (Token.numeral?_append hx hrest)
  | text s => exact lex_quote s rest
  | array items =>
    have hopen : Token.lex (0x5B :: (writeItems items ++ (0x5D :: rest))) =
      (Token.lex (writeItems items ++ (0x5D :: rest))).map (.arrayOpen :: ·) :=
      Token.lex_of_next? rfl rfl
    have hclose : Token.lex (0x5D :: rest) = (Token.lex rest).map (.arrayClose :: ·) :=
      Token.lex_of_next? rfl rfl
    rw [write, List.cons_append, List.append_assoc, List.singleton_append, hopen,
      lex_writeItems items hv rest, hclose]
    simp [document, Document.tokens, Function.comp_def]
  | object members =>
    have hopen : Token.lex (0x7B :: (writeMembers members ++ (0x7D :: rest))) =
      (Token.lex (writeMembers members ++ (0x7D :: rest))).map (.objectOpen :: ·) :=
      Token.lex_of_next? rfl rfl
    have hclose : Token.lex (0x7D :: rest) = (Token.lex rest).map (.objectClose :: ·) :=
      Token.lex_of_next? rfl rfl
    rw [write, List.cons_append, List.append_assoc, List.singleton_append, hopen,
      lex_writeMembers members hv rest, hclose]
    simp [document, Document.tokens, Function.comp_def]

theorem lex_writeItems (items : List Value) (hitems : ∀ x ∈ itemFloats items, ReadsBack x)
    (rest : List UInt8) :
    Token.lex (writeItems items ++ (0x5D :: rest)) =
      (Token.lex (0x5D :: rest)).map (Document.itemTokens (itemDocuments items) ++ ·) := by
  cases items with
  | nil => exact Option.map_id'.symm
  | cons v items =>
    obtain ⟨hv, hitems⟩ := List.forall_mem_append.mp hitems
    cases items with
    | nil =>
      exact lex_write v hv (noNumber_cons (by decide) rest)
    | cons v' items =>
      have hcomma : ∀ bytes, Token.lex (0x2C :: bytes) = (Token.lex bytes).map (.comma :: ·) :=
        fun bytes ↦ Token.lex_of_next? rfl rfl
      have hrest := lex_writeItems (v' :: items) hitems rest
      rw [writeItems, List.append_assoc, List.cons_append,
        lex_write v hv (noNumber_cons (by decide) _), hcomma, hrest]
      · simp [itemDocuments, Document.itemTokens, Function.comp_def]
      · exact nofun

theorem lex_writeMembers (members : List (String × Value))
    (hmembers : ∀ x ∈ memberFloats members, ReadsBack x) (rest : List UInt8) :
    Token.lex (writeMembers members ++ (0x7D :: rest)) =
      (Token.lex (0x7D :: rest)).map
        (Document.memberTokens (memberDocuments members) ++ ·) := by
  cases members with
  | nil => exact Option.map_id'.symm
  | cons m members =>
    obtain ⟨k, v⟩ := m
    obtain ⟨hv, hmembers⟩ := List.forall_mem_append.mp hmembers
    have hcolon : ∀ bytes, Token.lex (0x3A :: bytes) = (Token.lex bytes).map (.colon :: ·) :=
      fun bytes ↦ Token.lex_of_next? rfl rfl
    cases members with
    | nil =>
      rw [writeMembers, List.append_assoc, lex_quote, List.cons_append, hcolon,
        lex_write v hv (noNumber_cons (by decide) rest)]
      simp [memberDocuments, Document.memberTokens, Function.comp_def]
    | cons m' members =>
      have hcomma : ∀ bytes, Token.lex (0x2C :: bytes) = (Token.lex bytes).map (.comma :: ·) :=
        fun bytes ↦ Token.lex_of_next? rfl rfl
      have hrest := lex_writeMembers (m' :: members) hmembers rest
      rw [writeMembers, List.append_assoc, List.append_assoc, lex_quote, List.cons_append, hcolon,
        List.cons_append, lex_write v hv (noNumber_cons (by decide) _), hcomma, hrest]
      · simp [memberDocuments, Document.memberTokens, Function.comp_def]
      · exact nofun

end

/-- Written text is parsed as the document of the value. -/
theorem parse?_write (v : Value) (hv : ∀ x ∈ v.floats, ReadsBack x) :
    Document.parse? v.write = some v.document := by
  have hempty : NoNumber [] := ⟨nofun, nofun, nofun⟩
  have hlex := lex_write v hv hempty
  rw [List.append_nil] at hlex
  have hnil : Token.lex [] = some [] := rfl
  rw [Document.parse?, hlex, hnil, Option.map_some, List.append_nil]
  exact Document.ofTokens?_tokens v.document

end Value

end TradeDesk.Json
