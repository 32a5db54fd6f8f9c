/-!
# Points in time

A point in time is a date and a time of day in universal time, down to nanoseconds; a second
numbered sixty is a leap second.  `Instant.text` writes it with as many groups of three fraction
digits as it needs.  `Instant.parse` reads a date, a `T` or a space, a time and an offset, with
blanks allowed around the parts, and moves the result to universal time.
-/

namespace Intake

/-- A day of the proleptic Gregorian calendar. -/
structure Date where
  year : Int
  month : Nat
  day : Nat
  deriving DecidableEq, Repr

namespace Date

/-- Every fourth year is a leap year, except centuries that four hundred does not divide. -/
def isLeap (year : Int) : Bool :=
  year % 4 == 0 && (year % 100 != 0 || year % 400 == 0)

/-- Days of a month. -/
def daysInMonth (year : Int) (month : Nat) : Nat :=
  if month = 2 then if isLeap year then 29 else 28
  else if month = 4 ∨ month = 6 ∨ month = 9 ∨ month = 11 then 30
  else 31

/-- Years that dates reach. -/
def yearInRange (year : Int) : Bool := -262143 ≤ year && year ≤ 262142

/-- The date exists. -/
def isValid (date : Date) : Bool :=
  yearInRange date.year && 1 ≤ date.month && date.month ≤ 12 && 1 ≤ date.day &&
    date.day ≤ daysInMonth date.year date.month

/-- The day after. -/
def next (date : Date) : Date :=
  if date.day < daysInMonth date.year date.month then { date with day := date.day + 1 }
  else if date.month < 12 then { date with month := date.month + 1, day := 1 }
  else ⟨date.year + 1, 1, 1⟩

/-- The day before. -/
def previous (date : Date) : Date :=
  if 1 < date.day then { date with day := date.day - 1 }
  else if 1 < date.month then
    ⟨date.year, date.month - 1, daysInMonth date.year (date.month - 1)⟩
  else ⟨date.year - 1, 12, 31⟩

end Date

/-- A point in universal time. -/
structure Instant where
  date : Date
  hour : Nat
  minute : Nat
  /-- Up to fifty-nine, or sixty in a leap second. -/
  second : Nat
  nanos : Nat
  deriving DecidableEq, Repr

namespace Instant

/-- The start of 1970. -/
def epoch : Instant := ⟨⟨1970, 1, 1⟩, 0, 0, 0, 0⟩

instance : Inhabited Instant := ⟨epoch⟩

/-! ## Writing -/

/-- A number in at least `width` places. -/
def padded (width value : Nat) : List Char :=
  let digits := Nat.toDigits 10 value
  List.replicate (width - digits.length) '0' ++ digits

/-- A year: four places, and a sign where four places do not hold it. -/
def yearChars (year : Int) : List Char :=
  if 0 ≤ year ∧ year ≤ 9999 then padded 4 year.toNat
  else (if year < 0 then '-' else '+') :: padded 4 year.natAbs

/-- The fraction of a second in none, three, six or nine places. -/
def fractionChars (nanos : Nat) : List Char :=
  if nanos = 0 then []
  else if nanos % 1000000 = 0 then '.' :: padded 3 (nanos / 1000000)
  else if nanos % 1000 = 0 then '.' :: padded 6 (nanos / 1000)
  else '.' :: padded 9 nanos

/-- The written form. -/
def chars (instant : Instant) : List Char :=
  yearChars instant.date.year ++ '-' :: padded 2 instant.date.month ++
    '-' :: padded 2 instant.date.day ++ 'T' :: padded 2 instant.hour ++
    ':' :: padded 2 instant.minute ++ ':' :: padded 2 instant.second ++
    fractionChars instant.nanos ++ ['Z']

/-- The written form. -/
def text (instant : Instant) : String := String.ofList instant.chars

/-! ## Reading -/

/-- A blank between the parts of a written point in time. -/
def isBlank (c : Char) : Bool :=
  let code := c.toNat
  (9 ≤ code && code ≤ 13) || code == 32 || code == 0x85 || code == 0xA0 || code == 0x1680 ||
    (0x2000 ≤ code && code ≤ 0x200A) || code == 0x2028 || code == 0x2029 || code == 0x202F ||
    code == 0x205F || code == 0x3000

/-- The text after leading blanks. -/
def skipBlanks (written : List Char) : List Char := written.dropWhile isBlank

/-- An ASCII digit. -/
def isDigit (c : Char) : Bool := '0' ≤ c && c ≤ '9'

/-- The number written by ASCII digits. -/
def number (digits : List Char) : Nat :=
  digits.foldl (fun value c => value * 10 + (c.toNat - 48)) 0

/-- Reads at least one and at most `width` digits. -/
def digits? (width : Nat) (written : List Char) : Option (Nat × List Char) :=
  let digits := (written.take width).takeWhile isDigit
  if digits.isEmpty then none else some (number digits, written.drop digits.length)

/-- Reads a number after blanks. -/
def field? (width : Nat) (written : List Char) : Option (Nat × List Char) :=
  digits? width (skipBlanks written)

/-- Reads a year: up to four digits, or a sign and any number of digits. -/
def year? (written : List Char) : Option (Int × List Char) :=
  match skipBlanks written with
  | '-' :: rest => (digits? rest.length rest).map fun (value, rest) => (-(value : Int), rest)
  | '+' :: rest => (digits? rest.length rest).map fun (value, rest) => ((value : Int), rest)
  | unsigned => (digits? 4 unsigned).map fun (value, rest) => ((value : Int), rest)

/-- Reads one character, after blanks. -/
def separator? (expected : Char) (written : List Char) : Option (List Char) :=
  match skipBlanks written with
  | c :: rest => if c = expected then some rest else none
  | [] => none

/-- Reads a fraction of a second, if there is one; digits after the ninth are passed over. -/
def fraction? : List Char → Option (Nat × List Char)
  | '.' :: rest =>
      let digits := rest.takeWhile isDigit
      let kept := digits.take 9
      if digits.isEmpty then none
      else some (number kept * Nat.pow 10 (9 - kept.length), rest.dropWhile isDigit)
  | rest => some (0, rest)

/-- Reads two digits. -/
def twoDigits? : List Char → Option (Nat × List Char)
  | tens :: units :: rest =>
      if isDigit tens && isDigit units then some (number [tens, units], rest) else none
  | _ => none

/-- Reads hours and minutes of an offset after its sign, in minutes. -/
def offsetMinutes? (written : List Char) : Option (Nat × List Char) := do
  let (hours, rest) ← twoDigits? written
  let (minutes, rest) ← twoDigits? (rest.dropWhile fun c => c == ':' || isBlank c)
  if minutes < 60 then some (hours * 60 + minutes, rest) else none

/-- Reads an offset from universal time, in minutes. -/
def offset? (written : List Char) : Option (Int × List Char) :=
  match written with
  | 'Z' :: rest => some (0, rest)
  | 'z' :: rest => some (0, rest)
  | '+' :: rest => (offsetMinutes? rest).map fun (minutes, rest) => ((minutes : Int), rest)
  | sign :: rest =>
      if sign = '-' ∨ sign = '−' then
        (offsetMinutes? rest).map fun (minutes, rest) => (-(minutes : Int), rest)
      else if (written.take 3).map Char.toUpper = ['U', 'T', 'C'] then some (0, written.drop 3)
      else none
  | [] => none

/-- Moves a local time with an offset of so many minutes to universal time. -/
def toUniversal (localTime : Instant) (offset : Int) : Instant :=
  let minutes := (localTime.hour * 60 + localTime.minute : Int) - offset
  let date :=
    if minutes < 0 then localTime.date.previous
    else if 1440 ≤ minutes then localTime.date.next
    else localTime.date
  let ofDay := (minutes % 1440).toNat
  { localTime with date, hour := ofDay / 60, minute := ofDay % 60 }

/-- The time of day and the offset are within their ranges. -/
def isValid (localTime : Instant) (offset : Int) : Bool :=
  localTime.date.isValid && localTime.hour < 24 && localTime.minute < 60 &&
    localTime.second ≤ 60 && offset.natAbs < 1440

/-- Reads a point in time. -/
def ofChars? (written : List Char) : Option Instant := do
  let (year, rest) ← year? written
  let rest ← separator? '-' rest
  let (month, rest) ← field? 2 rest
  let rest ← separator? '-' rest
  let (day, rest) ← field? 2 rest
  let rest ← match rest with
    | c :: rest => if c = 'T' ∨ c = 't' ∨ c = ' ' then some rest else none
    | [] => none
  let (hour, rest) ← field? 2 rest
  let rest ← separator? ':' rest
  let (minute, rest) ← field? 2 rest
  let rest ← separator? ':' rest
  let (second, rest) ← field? 2 rest
  let (nanos, rest) ← fraction? rest
  let (offset, rest) ← offset? (skipBlanks rest)
  let localTime : Instant := ⟨⟨year, month, day⟩, hour, minute, second, nanos⟩
  let instant := localTime.toUniversal offset
  if (skipBlanks rest).isEmpty && localTime.isValid offset && Date.yearInRange instant.date.year
  then some instant else none

/-- Reads a point in time. -/
def parse (written : String) : Option Instant := ofChars? written.toList

end Instant
end Intake
