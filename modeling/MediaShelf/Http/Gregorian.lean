import MediaShelf.Http.Date

/-!
A calendar to run the server with: the Gregorian one, carried on in both directions for the years
-262143 to 262142, with the parts of formats that dates need.
-/

namespace MediaShelf.Http

/-- Whether a year has 366 days. -/
def isLeapYear (year : Int) : Bool :=
  year % 4 = 0 && (year % 100 ≠ 0 || year % 400 = 0)

/-- The number of days of a month. -/
def monthLength (year : Int) (month : Nat) : Nat :=
  if month = 2 then if isLeapYear year then 29 else 28
  else if month = 4 ∨ month = 6 ∨ month = 9 ∨ month = 11 then 30 else 31

/-- The days of the years before `year`, counted from the start of year 0. -/
def daysBeforeYear (year : Int) : Int :=
  365 * year + (year + 3) / 4 - (year + 99) / 100 + (year + 399) / 400

/-- The days from the start of year 0 to the first of January 1970. -/
def epochDays : Int := 719528

/-- The year that holds a day counted from the start of year 0. -/
def yearOfDay (day : Int) : Int :=
  let guess := day * 400 / 146097
  if day < daysBeforeYear guess then guess - 1
  else if daysBeforeYear (guess + 1) ≤ day then guess + 1
  else guess

/-- Finds the month of a day of the year, among the months from `month` on. -/
def monthFrom (year : Int) : (months month day : Nat) → Nat × Nat
  | 0, month, day => (month, day)
  | months + 1, month, day =>
    if day < monthLength year month then (month, day)
    else monthFrom year months (month + 1) (day - monthLength year month)

/-- The second that lies so many days after the first of January 1970, and so many seconds of that
day. -/
def stampOf (days : Int) (second : Nat) : Stamp :=
  let day := days + epochDays
  let year := yearOfDay day
  let (month, rest) := monthFrom year 11 1 (day - daysBeforeYear year).toNat
  { weekday := ((days + 4) % 7).toNat, day := rest + 1, month, year
    hour := second / 3600, minute := second / 60 % 60, second := second % 60 }

/-- The days of the week. -/
def weekdayNames : List String := ["Sun", "Mon", "Tue", "Wed", "Thu", "Fri", "Sat"]

/-- The months of the year. -/
def monthNames : List String :=
  ["Jan", "Feb", "Mar", "Apr", "May", "Jun", "Jul", "Aug", "Sep", "Oct", "Nov", "Dec"]

/-- A number with at least `width` digits. -/
def padded (width n : Nat) : String :=
  let digits := toString n
  "".pushn '0' (width - digits.length) ++ digits

/-- A year has four digits or more, and a sign unless it lies from 0 to 9999. -/
def yearText (year : Int) : String :=
  if year < 0 then "-" ++ padded 4 year.natAbs
  else if 9999 < year then "+" ++ padded 4 year.natAbs
  else padded 4 year.natAbs

/-- What a letter behind a percent sign stands for. -/
def partText (time : DateTime) : Char → String
  | 'a' => weekdayNames.getD time.weekday ""
  | 'd' => padded 2 time.day
  | 'b' => monthNames.getD (time.month - 1) ""
  | 'Y' => yearText time.year
  | 'H' => padded 2 time.hour
  | 'M' => padded 2 time.minute
  | 'S' => padded 2 time.second
  | letter => String.ofList ['%', letter]

/-- A time written in a format. -/
def writeTime (time : DateTime) : List Char → List Char
  | '%' :: letter :: rest => (partText time letter).toList ++ writeTime time rest
  | c :: rest => c :: writeTime time rest
  | [] => []

/-- The Gregorian calendar. -/
def Calendar.gregorian : Calendar where
  utc? moment :=
    let stamp := stampOf (moment.seconds / 86400) (moment.seconds % 86400).toNat
    if -262143 ≤ stamp.year ∧ stamp.year ≤ 262142 then
      some { stamp with nanosecond := (moment.nanoseconds % 1000000000).toNat }
    else none
  format := writeTime

end MediaShelf.Http
