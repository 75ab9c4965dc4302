/-!
Dates in response headers, such as `Sun, 06 Nov 1994 08:49:37 GMT`. A calendar library turns a
moment into a time of a day in UTC and writes that time in a format; all that the server adds is
the format. The library is a parameter.
-/

namespace MediaShelf.Http

/-- A moment, in nanoseconds since 1970. -/
structure Moment where
  nanoseconds : Int
  deriving DecidableEq, Repr

/-- The moment at a whole second. -/
def Moment.ofSeconds (seconds : Int) : Moment := ⟨seconds * 1000000000⟩

/-- The whole second that a moment falls into. -/
def Moment.seconds (moment : Moment) : Int := moment.nanoseconds / 1000000000

/-- A day of the calendar and a second of it. -/
structure Stamp where
  /-- Counted from Sunday. -/
  weekday : Nat
  day : Nat
  month : Nat
  year : Int
  hour : Nat
  minute : Nat
  second : Nat
  deriving DecidableEq, Repr

/-- A time in UTC. -/
structure DateTime extends Stamp where
  nanosecond : Nat
  deriving DecidableEq, Repr

/-- A calendar library. -/
structure Calendar where
  /-- The time in UTC at a moment; none if the calendar does not reach so far, where the library
  panics. -/
  utc? : Moment → Option DateTime
  /-- A time written in a format. -/
  format : DateTime → List Char → List Char

/-- The format of dates in response headers. -/
def dateFormat : String := "%a, %d %b %Y %H:%M:%S GMT"

/-- The date of a moment; none where the library panics. -/
def Calendar.date? (calendar : Calendar) (moment : Moment) : Option String :=
  (calendar.utc? moment).map fun time => String.ofList (calendar.format time dateFormat.toList)

end MediaShelf.Http
