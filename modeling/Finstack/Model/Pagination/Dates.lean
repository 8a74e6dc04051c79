import Finstack.Foundation.Decimals

/-! # Dates and their texts

JavaScript's dates, and the one text that `toISOString` writes for each.
-/

namespace Finstack

open Foundation

/-- A valid `Date`, in milliseconds since 1970. -/
structure Date where
  time : Int
  valid : time.natAbs ≤ 8640000000000000
deriving DecidableEq

namespace Date

/-- The number of the first day of a year. -/
def dayFromYear (y : Int) : Int :=
  365 * (y - 1970) + (y - 1969) / 4 - (y - 1901) / 100 + (y - 1601) / 400

/-- The last year that begins on this day or before. -/
def yearFromDay (day : Int) : Int :=
  let guess := 1970 + day * 400 / 146097
  if dayFromYear (guess + 1) ≤ day then guess + 1
  else if dayFromYear guess ≤ day then guess
  else guess - 1

def isLeap (y : Int) : Bool := dayFromYear (y + 1) - dayFromYear y = 366

/-- The days of a year before each of its months. -/
def monthStarts (leap : Bool) : List Nat :=
  let february := if leap then 29 else 28
  [0, 31, 31 + february, 62 + february, 92 + february, 123 + february, 153 + february,
    184 + february, 215 + february, 245 + february, 276 + february, 306 + february]

/-- Months and days count from 1. -/
structure Fields where
  year : Int
  month : Nat
  day : Nat
  hour : Nat
  minute : Nat
  second : Nat
  millisecond : Nat
deriving DecidableEq

def fields (date : Date) : Fields :=
  let day := date.time / 86400000
  let inDay := (date.time % 86400000).toNat
  let year := yearFromDay day
  let inYear := (day - dayFromYear year).toNat
  let starts := monthStarts (isLeap year)
  let month := starts.countP (· ≤ inYear)
  { year
    month
    day := inYear - starts.getD (month - 1) 0 + 1
    hour := inDay / 3600000
    minute := inDay / 60000 % 60
    second := inDay / 1000 % 60
    millisecond := inDay % 1000 }

def Fields.time (f : Fields) : Int :=
  let day := dayFromYear f.year + (monthStarts (isLeap f.year)).getD (f.month - 1) 0 + f.day - 1
  (((day * 24 + f.hour) * 60 + f.minute) * 60 + f.second) * 1000 + f.millisecond

/-- `padStart(length, '0')` -/
def pad (length n : Nat) : List Char := (Nat.toDigits 10 n).leftpad length '0'

def yearText (y : Int) : List Char :=
  if 0 ≤ y ∧ y ≤ 9999 then pad 4 y.toNat else (if y < 0 then '-' else '+') :: pad 6 y.natAbs

def Fields.text (f : Fields) : List Char :=
  yearText f.year ++ ('-' :: pad 2 f.month ++ '-' :: pad 2 f.day ++ 'T' :: pad 2 f.hour ++
    ':' :: pad 2 f.minute ++ ':' :: pad 2 f.second ++ '.' :: pad 3 f.millisecond ++ ['Z'])

def toISOString (date : Date) : String := String.ofList date.fields.text

def readYear : List Char → Int
  | '-' :: digits => -number digits
  | '+' :: digits => number digits
  | digits => number digits

/-- What stands where `toISOString` puts the fields. -/
def readFields (text : List Char) : Fields :=
  let rest := text.drop (text.length - 20)
  let field := fun start count => number ((rest.drop start).take count)
  { year := readYear (text.take (text.length - 20))
    month := field 1 2
    day := field 4 2
    hour := field 7 2
    minute := field 10 2
    second := field 13 2
    millisecond := field 16 3 }

/-- The date for which `toISOString` writes this text. -/
def ofISOString (text : String) : Option Date :=
  let time := (readFields text.toList).time
  if valid : time.natAbs ≤ 8640000000000000 then
    if toISOString ⟨time, valid⟩ = text then some ⟨time, valid⟩ else none
  else none

end Date

end Finstack
