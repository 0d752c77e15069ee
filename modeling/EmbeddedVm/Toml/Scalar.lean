import EmbeddedVm.Number.Nearest
import EmbeddedVm.Toml.Value

/-!
# Numbers, truth values and dates

A value that is neither quoted nor bracketed is one word. This module says what the words mean:
integers in four bases with underscores between digits, floats, the special floats, truth values,
and dates and times with their ranges checked.
-/

namespace EmbeddedVm.Toml.Word

/-! ## 1. Digits -/

/-- The value of a digit below sixteen. -/
def digit? (c : Char) : Option Nat :=
  if '0' ≤ c ∧ c ≤ '9' then some (c.toNat - 48)
  else if 'a' ≤ c ∧ c ≤ 'f' then some (c.toNat - 87)
  else if 'A' ≤ c ∧ c ≤ 'F' then some (c.toNat - 55)
  else none

/-- The digits of a number in a base: at least one, with single underscores between them. -/
def digits? (base : Nat) : List Char → Option (List Nat)
  | [] => none
  | [c] => do
    let d ← digit? c
    if d < base then some [d] else none
  | c :: '_' :: rest => do
    let d ← digit? c
    let ds ← digits? base rest
    if d < base then some (d :: ds) else none
  | c :: rest => do
    let d ← digit? c
    let ds ← digits? base rest
    if d < base then some (d :: ds) else none

/-- The number with the given digits. -/
def number (base : Nat) (ds : List Nat) : Nat := ds.foldl (fun n d => base * n + d) 0

/-- Digits that do not start with a superfluous zero. -/
def plain (ds : List Nat) : Bool := ds.length ≤ 1 || ds.head? != some 0

/-- A sign, and what follows it. -/
def sign : List Char → Bool × List Char
  | '-' :: rest => (true, rest)
  | '+' :: rest => (false, rest)
  | rest => (false, rest)

/-! ## 2. Numbers -/

/-- An integer, if it fits into 64 bits with a sign. -/
def fitting (n : Int) : Option Value :=
  if -9223372036854775808 ≤ n ∧ n ≤ 9223372036854775807 then some (.integer n) else none

def integer? (word : List Char) : Option Value :=
  match word with
  | '0' :: 'x' :: rest => (digits? 16 rest).bind fun ds => fitting (number 16 ds)
  | '0' :: 'o' :: rest => (digits? 8 rest).bind fun ds => fitting (number 8 ds)
  | '0' :: 'b' :: rest => (digits? 2 rest).bind fun ds => fitting (number 2 ds)
  | _ =>
    let (negative, rest) := sign word
    (digits? 10 rest).bind fun ds =>
      if plain ds then fitting (if negative then -(number 10 ds : Int) else number 10 ds) else none

/-- The part of a word before the first character that satisfies `p`, and the part behind that
    character, if there is one. -/
def splitAtFirst (p : Char → Bool) (word : List Char) : List Char × Option (List Char) :=
  match word.dropWhile fun c => !p c with
  | [] => (word, none)
  | _ :: rest => (word.takeWhile fun c => !p c, some rest)

/-- A float, from its digits. A number too large to be finite is refused unless it is negative. -/
def decimal (negative : Bool) (digits : List Nat) (exponent : Int) : Option Value :=
  let x := Binary64.ofDecimal negative digits exponent
  if !x.isFinite && !negative then none else some (.float x)

/-- A float with a fraction, an exponent or both. -/
def float? (word : List Char) : Option Value :=
  let (negative, rest) := sign word
  if rest = ['i', 'n', 'f'] then
    some (.float (.infinity negative))
  else if rest = ['n', 'a', 'n'] then
    some (.float (.nan negative))
  else do
    let (mantissa, exponent) := splitAtFirst (fun c => c == 'e' || c == 'E') rest
    let (whole, fraction) := splitAtFirst (· == '.') mantissa
    if exponent.isNone && fraction.isNone then none
    let whole ← digits? 10 whole
    let fraction ← match fraction with
      | some ds => digits? 10 ds
      | none => some []
    let (down, places) ← match exponent with
      | some e => do
        let (down, ds) := sign e
        some (down, number 10 (← digits? 10 ds))
      | none => some (false, 0)
    if plain whole then
      decimal negative (whole ++ fraction)
        ((if down then -(places : Int) else places) - fraction.length)
    else none

/-! ## 3. Dates and times -/

/-- A number of exactly `width` digits at the front. -/
def fixed? (width : Nat) (cs : List Char) : Option (Nat × List Char) := do
  let ds ← (cs.take width).mapM fun c => if c.isDigit then digit? c else none
  if ds.length = width then some (number 10 ds, cs.drop width) else none

/-- A character at the front. -/
def expect? (p : Char → Bool) : List Char → Option (List Char)
  | c :: rest => if p c then some rest else none
  | [] => none

def daysIn (year month : Nat) : Nat :=
  if month = 2 then
    if year % 4 = 0 ∧ (year % 100 ≠ 0 ∨ year % 400 = 0) then 29 else 28
  else if month = 4 ∨ month = 6 ∨ month = 9 ∨ month = 11 then 30
  else 31

/-- A date at the front; the rest behind it. -/
def date? (cs : List Char) : Option (List Char) := do
  let (year, cs) ← fixed? 4 cs
  let cs ← expect? (· == '-') cs
  let (month, cs) ← fixed? 2 cs
  let cs ← expect? (· == '-') cs
  let (day, cs) ← fixed? 2 cs
  if 1 ≤ month ∧ month ≤ 12 ∧ 1 ≤ day ∧ day ≤ daysIn year month then some cs else none

/-- Hours and minutes at the front. -/
def minutes? (cs : List Char) : Option (List Char) := do
  let (hour, cs) ← fixed? 2 cs
  let cs ← expect? (· == ':') cs
  let (minute, cs) ← fixed? 2 cs
  if hour ≤ 23 ∧ minute ≤ 59 then some cs else none

/-- A time at the front; the rest behind it. -/
def time? (cs : List Char) : Option (List Char) := do
  let cs ← minutes? cs
  let cs ← expect? (· == ':') cs
  let (second, cs) ← fixed? 2 cs
  if 60 < second then none
  match cs with
  | '.' :: rest =>
    if (rest.takeWhile Char.isDigit).isEmpty then none else some (rest.dropWhile Char.isDigit)
  | _ => some cs

/-- The distance from universal time, or nothing. -/
def offset? : List Char → Option Unit
  | [] => some ()
  | [c] => if c == 'Z' || c == 'z' then some () else none
  | c :: rest => do
    if c != '+' && c != '-' then none
    let rest ← minutes? rest
    if rest.isEmpty then some () else none

/-- A date, a time, or a date with a time behind a `T` or a blank. -/
def dateTime? (word : List Char) : Option Value :=
  let accepted : Option Unit :=
    match date? word with
    | some [] => some ()
    | some (c :: rest) => do
      if c != 'T' && c != 't' && c != ' ' then none
      offset? (← time? rest)
    | none => do
      if (← time? word).isEmpty then some () else none
  accepted.map fun _ => .dateTime (String.ofList word)

def value? (word : List Char) : Option Value :=
  if word = ['t', 'r', 'u', 'e'] then some (.boolean true)
  else if word = ['f', 'a', 'l', 's', 'e'] then some (.boolean false)
  else (dateTime? word).orElse fun _ => (float? word).orElse fun _ => integer? word

end EmbeddedVm.Toml.Word
