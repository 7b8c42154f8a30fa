import TradeDesk.Settings.Scalar

/-!
# TOML strings

The four kinds of string. A basic string has escapes, a literal one has none; either may go over
several lines between triple quotes. Line ends are single line feeds here.
-/

namespace TradeDesk.Toml

/-- A character that may stand in a string or a comment: a tab or anything that is not a control. -/
def isPlain (c : Char) : Bool := c = '\t' || (32 ≤ c.toNat && c.toNat ≠ 127)

def isBlank (c : Char) : Bool := c = ' ' || c = '\t'

def isHexDigit (c : Char) : Bool :=
  c.isDigit || ('a' ≤ c && c ≤ 'f') || ('A' ≤ c && c ≤ 'F')

/-- The character of a code point in hexadecimal digits; a surrogate is none. -/
def codePoint? (digits : List Char) : Option Char :=
  let n := Scalar.natural 16 digits
  if digits.all isHexDigit && n.isValidChar then some (Char.ofNat n) else none

/-- The character of a one-letter escape. -/
def shortEscape? : Char → Option Char
  | 'b' => some '\x08'
  | 't' => some '\t'
  | 'n' => some '\n'
  | 'f' => some '\x0c'
  | 'r' => some '\r'
  | '\"' => some '\"'
  | '\\' => some '\\'
  | _ => none

/-- The escape after a backslash, and what follows it. -/
def escape? : List Char → Option (Char × List Char)
  | 'u' :: a :: b :: c :: d :: rest => (codePoint? [a, b, c, d]).map (·, rest)
  | 'U' :: a :: b :: c :: d :: e :: f :: g :: h :: rest =>
    (codePoint? [a, b, c, d, e, f, g, h]).map (·, rest)
  | c :: rest => (shortEscape? c).map (·, rest)
  | [] => none

/-- A basic string after its opening quote, and what follows it; `fuel` bounds its length. -/
def basic? : Nat → List Char → Option (List Char × List Char)
  | _, '\"' :: rest => some ([], rest)
  | fuel + 1, '\\' :: rest => do
    let (c, rest) ← escape? rest
    let (tail, rest) ← basic? fuel rest
    some (c :: tail, rest)
  | fuel + 1, c :: rest => do
    if isPlain c then
      let (tail, rest) ← basic? fuel rest
      some (c :: tail, rest)
    else none
  | _, _ => none

/-- A literal string after its opening quote, and what follows it. -/
def literal? : List Char → Option (List Char × List Char)
  | '\'' :: rest => some ([], rest)
  | c :: rest =>
    if isPlain c then (literal? rest).map fun (tail, rest) => (c :: tail, rest) else none
  | [] => none

/-- Text that may end here with three quotes. Up to two more before them belong to the string. -/
def closing? (quote : Char) (s : List Char) : Option (List Char × List Char) :=
  let (run, rest) := s.span (· = quote)
  if run.length < 3 then none
  else
    let kept := min (run.length - 3) 2
    some (List.replicate kept quote, List.replicate (run.length - 3 - kept) quote ++ rest)

/-- A basic string over several lines, after its opening quotes. A backslash at the end of a line
swallows the white space up to the next character. -/
def basicLines? : Nat → List Char → Option (List Char × List Char)
  | 0, _ => none
  | fuel + 1, s =>
    match closing? '\"' s, s with
    | some ended, _ => some ended
    | none, '\\' :: rest =>
      if (rest.dropWhile isBlank).head? = some '\n' then
        basicLines? fuel (rest.dropWhile fun c => isBlank c || c = '\n')
      else do
        let (c, rest) ← escape? rest
        let (tail, rest) ← basicLines? fuel rest
        some (c :: tail, rest)
    | none, c :: rest => do
      if isPlain c || c = '\n' then
        let (tail, rest) ← basicLines? fuel rest
        some (c :: tail, rest)
      else none
    | none, [] => none

/-- A literal string over several lines, after its opening quotes. -/
def literalLines? : Nat → List Char → Option (List Char × List Char)
  | 0, _ => none
  | fuel + 1, s =>
    match closing? '\'' s, s with
    | some ended, _ => some ended
    | none, c :: rest => do
      if isPlain c || c = '\n' then
        let (tail, rest) ← literalLines? fuel rest
        some (c :: tail, rest)
      else none
    | none, [] => none

/-- The line end right after opening triple quotes is not part of the string. -/
def afterOpening : List Char → List Char
  | '\n' :: rest => rest
  | s => s

/-- A string, quotes included, and what follows it. Only some places take several lines. -/
def string? (lines : Bool) : List Char → Option (String × List Char)
  | '\"' :: '\"' :: '\"' :: rest =>
    if lines then
      (basicLines? (rest.length + 1) (afterOpening rest)).map fun (s, r) => (String.ofList s, r)
    else some ("", '\"' :: rest)
  | '\'' :: '\'' :: '\'' :: rest =>
    if lines then
      (literalLines? (rest.length + 1) (afterOpening rest)).map fun (s, r) => (String.ofList s, r)
    else some ("", '\'' :: rest)
  | '\"' :: rest => (basic? rest.length rest).map fun (s, r) => (String.ofList s, r)
  | '\'' :: rest => (literal? rest).map fun (s, r) => (String.ofList s, r)
  | _ => none

end TradeDesk.Toml
