import TradeDesk.Text.Cases

/-!
# Small letters

Names in settings are compared in small letters. A letter has a small form of its own, with two
exceptions: the dotted capital I becomes two characters, and a capital sigma becomes another small
sigma at the end of a word than elsewhere.
-/

namespace TradeDesk

namespace Letters

/-- The small form of a letter by the table. -/
def smallForm (c : Char) : Char :=
  match smallForms.find? fun r => c.toNat ≤ r.last with
  | some r =>
    if r.first ≤ c.toNat ∧ (c.toNat - r.first) % r.step = 0 then
      Char.ofNat (r.form + (c.toNat - r.first))
    else c
  | none => c

/-- Whether a letter that has a case comes next, after characters that do not count. -/
def casedNext (s : List Char) : Bool :=
  match s.dropWhile caseIgnorable.contains with
  | c :: _ => cased.contains c
  | [] => false

/-- The small form of a letter between what is before it, last character first, and what follows. -/
def smallLetter (before : List Char) (c : Char) (rest : List Char) : List Char :=
  if c = 'İ' then ['i', '\u0307']
  else if c = 'Σ' then [if casedNext before && !casedNext rest then 'ς' else 'σ']
  else [smallForm c]

/-- The small letters of what follows some text, whose last character comes first. -/
def smallAfter (before : List Char) : List Char → List Char
  | [] => []
  | c :: rest => smallLetter before c rest ++ smallAfter (c :: before) rest

/-- Text in small letters. -/
def small (s : String) : String := String.ofList (smallAfter [] s.toList)

end Letters

end TradeDesk
