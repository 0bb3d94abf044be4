/-
# Numbers and dates in TOML

Only whether a number or a date is well formed matters here, and what follows it.  Integers have
at most 64 bits, a fraction must not be infinite unless it says so, and a date has to exist.
-/
import EditorSettings.Text.Decimal

namespace EditorSettings.Toml

open EditorSettings.Text

/-! ## 1. Digits -/

/-- Further digits of a kind, each after at most one underscore, and the rest. -/
def moreDigits (isDigit : Char → Bool) : List Char → List Char × List Char
  | '_' :: d :: rest =>
    if isDigit d then
      let (digits, after) := moreDigits isDigit rest
      (d :: digits, after)
    else ([], '_' :: d :: rest)
  | d :: rest =>
    if isDigit d then
      let (digits, after) := moreDigits isDigit rest
      (d :: digits, after)
    else ([], d :: rest)
  | [] => ([], [])

/-- Digits of a kind with single underscores between them, and the rest. -/
def grouped? (isDigit : Char → Bool) : List Char → Option (List Char × List Char)
  | d :: rest =>
    if isDigit d then
      let (digits, after) := moreDigits isDigit rest
      some (d :: digits, after)
    else none
  | [] => none

/-- A sign, if there is one, and the rest. -/
def sign : List Char → List Char × List Char
  | '-' :: rest => (['-'], rest)
  | '+' :: rest => ([], rest)
  | s => ([], s)

/-- The digits of a decimal integer without needless zeros, and the rest. -/
def decimal? : List Char → Option (List Char × List Char)
  | '0' :: rest => some (['0'], rest)
  | s => grouped? isDigit s

/-! ## 2. Integers and fractions -/

/-- The digits of a number in another base, and the rest. -/
def inBase? (base : Nat) (s : List Char) : Option (List Char × List Char) :=
  grouped? (fun c =>
    isDigit c && c.toNat - '0'.toNat < base ||
      base == 16 && ('a' ≤ c && c ≤ 'f' || 'A' ≤ c && c ≤ 'F')) s

/-- The value of a digit in any base. -/
def anyDigit (c : Char) : Nat :=
  if isDigit c then c.toNat - '0'.toNat else c.toLower.toNat - 'a'.toNat + 10

/-- What follows an integer that fits 64 bits. -/
def integerRest? (s : List Char) : Option (List Char) :=
  let based (base : Nat) (s : List Char) : Option (List Char) :=
    (inBase? base s).bind fun (digits, rest) =>
      if digits.foldl (fun n c => base * n + anyDigit c) 0 ≤ int64Bounds.2.toNat then some rest
      else none
  match s with
  | '0' :: 'x' :: s => based 16 s
  | '0' :: 'o' :: s => based 8 s
  | '0' :: 'b' :: s => based 2 s
  | s =>
    let (minus, s) := sign s
    (decimal? s).bind fun (digits, rest) => (int64? (minus ++ digits)).map fun _ => rest

/-- The exponent after its letter, and the rest. -/
def exponent? : List Char → Option (Int × List Char)
  | c :: rest =>
    if c = 'e' ∨ c = 'E' then
      let (minus, s) := sign rest
      (grouped? isDigit s).map fun (digits, rest) =>
        let n : Int := digitsFrom 0 digits
        (if minus.isEmpty then n else -n, rest)
    else none
  | [] => none

/-- The digits after a point, and the rest. -/
def fraction? : List Char → Option (List Char × List Char)
  | '.' :: rest => grouped? isDigit rest
  | _ => none

/-- The least number that is too large for a double, halfway above the largest one. -/
def overflow : Nat := 1 <<< 1024 - 1 <<< 970

/-- The number `digits · 10 ^ exponent` is too large for a double. -/
def overflows (digits : List Char) (exponent : Int) : Bool :=
  let digits := digits.dropWhile (· == '0')
  let top := (digits.length : Int) + exponent
  if digits.isEmpty || top < 300 then false
  else if 320 < top then true
  else
    let n := digitsFrom 0 digits
    overflow * Nat.pow 10 (-exponent).toNat ≤ n * Nat.pow 10 exponent.toNat

/-- What follows a number with a fraction or an exponent. -/
def fractionRest? (s : List Char) : Option (List Char) :=
  let (minus, s) := sign s
  (decimal? s).bind fun (whole, s) =>
    let (part, afterPart) := (fraction? s).getD ([], s)
    let (power, rest) := (exponent? afterPart).getD (0, afterPart)
    if rest.length = s.length then none
    else if minus.isEmpty && overflows (whole ++ part) (power - part.length) then none
    else some rest

/-- What follows an infinite number or one that is none. -/
def specialRest? (s : List Char) : Option (List Char) :=
  match (sign s).2 with
  | 'i' :: 'n' :: 'f' :: rest => some rest
  | 'n' :: 'a' :: 'n' :: rest => some rest
  | _ => none

/-! ## 3. Dates and times -/

/-- A number of exactly `n` digits from `low` to `high`, and the rest. -/
def field? (n low high : Nat) (s : List Char) : Option (Nat × List Char) :=
  let digits := s.take n
  if digits.length = n ∧ digits.all isDigit then
    let v := digitsFrom 0 digits
    if low ≤ v ∧ v ≤ high then some (v, s.drop n) else none
  else none

/-- What follows a character. -/
def after? (c : Char) : List Char → Option (List Char)
  | d :: rest => if d = c then some rest else none
  | [] => none

/-- The days of a month. -/
def daysIn (year month : Nat) : Nat :=
  if month = 2 then
    if year % 4 = 0 ∧ (year % 100 ≠ 0 ∨ year % 400 = 0) then 29 else 28
  else if [4, 6, 9, 11].contains month then 30
  else 31

/-- What follows a date. -/
def dayRest? (s : List Char) : Option (List Char) := do
  let (year, s) ← field? 4 0 9999 s
  let (month, s) ← field? 2 1 12 (← after? '-' s)
  let (_, s) ← field? 2 1 (daysIn year month) (← after? '-' s)
  pure s

/-- What follows a time of day. -/
def timeRest? (s : List Char) : Option (List Char) := do
  let (_, s) ← field? 2 0 23 s
  let (_, s) ← field? 2 0 59 (← after? ':' s)
  let (_, s) ← field? 2 0 60 (← after? ':' s)
  match s with
  | '.' :: d :: rest => if isDigit d then pure (rest.dropWhile isDigit) else pure s
  | s => pure s

/-- What follows the distance from universal time. -/
def offsetRest? : List Char → Option (List Char)
  | c :: rest =>
    if c = 'Z' ∨ c = 'z' then some rest
    else if c = '+' ∨ c = '-' then do
      let (_, s) ← field? 2 0 23 rest
      let (_, s) ← field? 2 0 59 (← after? ':' s)
      pure s
    else none
  | [] => none

/-- What follows a time of day after a date, with its distance from universal time. -/
def clockRest? : List Char → Option (List Char)
  | c :: rest =>
    if c = 'T' ∨ c = 't' ∨ c = ' ' then
      (timeRest? rest).map fun s => (offsetRest? s).getD s
    else none
  | [] => none

/-- What follows a date, a time of day or both. -/
def dateRest? (s : List Char) : Option (List Char) :=
  match dayRest? s with
  | some rest => some ((clockRest? rest).getD rest)
  | none => timeRest? s

end EditorSettings.Toml
