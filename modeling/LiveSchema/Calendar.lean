import LiveSchema.Text.Blank
import LiveSchema.Text.Digits

/-!
# LiveSchema.Calendar

The two forms of a date that a property of type `Date` accepts: a full timestamp
(`2024-02-29T23:59:60Z`) and a plain calendar date (`2024-02-29`), both in the proleptic Gregorian
calendar. Parsers here only decide; a date is stored as the text that it came as.
-/

namespace LiveSchema.Calendar

/-- Whether a year of the proleptic Gregorian calendar has a 29th of February. -/
def isLeap (year : Int) : Bool :=
  year % 4 = 0 && (year % 100 != 0 || year % 400 = 0)

/-- The number of days of a month, zero for a month that does not exist. -/
def daysIn (year : Int) (month : Nat) : Nat :=
  match month with
  | 1 | 3 | 5 | 7 | 8 | 10 | 12 => 31
  | 4 | 6 | 9 | 11 => 30
  | 2 => if isLeap year then 29 else 28
  | _ => 0

/-- Whether a day of that number exists. -/
def dayExists (year : Int) (month day : Nat) : Bool :=
  1 ≤ day && day ≤ daysIn year month

/-- Exactly `count` digits and what follows them. -/
def takeDigits (count : Nat) (cs : List Char) : Option (Nat × List Char) :=
  let digits := cs.take count
  if digits.length = count ∧ digits.all Char.isDigit then some (Text.numberOf digits, cs.drop count)
  else none

/-- One character of a set and what follows it. -/
def takeOne (allowed : List Char) : List Char → Option (List Char)
  | [] => none
  | c :: rest => if allowed.contains c then some rest else none

/-! ### Timestamps -/

/-- The offset from universal time that ends a timestamp: `Z`, or a sign, hours and minutes. -/
def isOffset (cs : List Char) : Bool :=
  match cs with
  | ['Z'] => true
  | ['z'] => true
  | sign :: rest =>
    ['+', '-', '\u2212'].contains sign &&
    ((do
      let (hours, rest) ← takeDigits 2 rest
      let rest ← takeOne [':'] rest
      let (minutes, rest) ← takeDigits 2 rest
      some (rest.isEmpty && hours ≤ 23 && minutes ≤ 59)).getD false)
  | [] => false

/-- The optional fraction of a second and the offset. -/
def isFractionAndOffset : List Char → Bool
  | '.' :: rest =>
    let after := rest.dropWhile Char.isDigit
    after.length < rest.length && isOffset after
  | cs => isOffset cs

/-- Whether a text is a timestamp: date, one of `T`, `t` or blank, time, offset. A second of 60 is a
leap second. -/
def isTimestamp (cs : List Char) : Bool :=
  (do
    let (year, cs) ← takeDigits 4 cs
    let cs ← takeOne ['-'] cs
    let (month, cs) ← takeDigits 2 cs
    let cs ← takeOne ['-'] cs
    let (day, cs) ← takeDigits 2 cs
    let cs ← takeOne ['T', 't', ' '] cs
    let (hour, cs) ← takeDigits 2 cs
    let cs ← takeOne [':'] cs
    let (minute, cs) ← takeDigits 2 cs
    let cs ← takeOne [':'] cs
    let (second, cs) ← takeDigits 2 cs
    some (dayExists year month day && hour ≤ 23 && minute ≤ 59 && second ≤ 60 &&
      isFractionAndOffset cs)).getD false

/-! ### Plain dates -/

/-- The first and the last year of which every day has a number in the calendar's range. -/
def firstYear : Int := -262143

/-- The last year of the calendar's range. -/
def lastYear : Int := 262142

/-- A number of at most `most` digits, after any blanks. -/
def takeNumber (most : Nat) (cs : List Char) : Option (Nat × List Char) :=
  let cs := cs.dropWhile Text.isBlank
  let digits := (cs.take most).takeWhile Char.isDigit
  if digits.isEmpty then none else some (Text.numberOf digits, cs.drop digits.length)

/-- A year: four digits at most, or a sign and any number of them. -/
def takeYear (cs : List Char) : Option (Int × List Char) :=
  match cs.dropWhile Text.isBlank with
  | '+' :: rest => signed 1 rest
  | '-' :: rest => signed (-1) rest
  | cs => (takeNumber 4 cs).map fun (n, rest) => ((n : Int), rest)
where
  /-- The digits after a sign. -/
  signed (sign : Int) (cs : List Char) : Option (Int × List Char) :=
    let digits := cs.takeWhile Char.isDigit
    if digits.isEmpty then none
    else some (sign * Text.numberOf digits, cs.drop digits.length)

/-- Whether a text is a plain date: year, month and day, each after any blanks, separated by
hyphens, with nothing after the day. -/
def isPlainDate (cs : List Char) : Bool :=
  (do
    let (year, cs) ← takeYear cs
    let cs ← takeOne ['-'] cs
    let (month, cs) ← takeNumber 2 cs
    let cs ← takeOne ['-'] cs
    let (day, cs) ← takeNumber 2 cs
    some (cs.isEmpty && firstYear ≤ year && year ≤ lastYear && dayExists year month day)).getD false

/-- Whether a text is a date in one of the two forms. -/
def isDate (s : String) : Bool :=
  isTimestamp s.toList || isPlainDate s.toList

end LiveSchema.Calendar
