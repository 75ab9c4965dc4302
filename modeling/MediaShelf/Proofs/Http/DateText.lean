import MediaShelf.Proofs.Http.Calendar
import MediaShelf.Proofs.Text.Numerals

/-!
# Dates as texts

A date in a header field has the form `Www, DD Mon YYYY HH:MM:SS GMT`. The calendar library is told
the format; what is relied on is what its documentation says of the parts of this format, and of the
times that it makes of moments (`Calendar.Documented`). Read back, digit by digit (`Stamp.read?`),
the text of a moment of the years 0000 to 9999 gives a day of the calendar, its day of the week and
a time of the day, and these are the second that the moment falls into (`date_exact`). So moments of
one second have one text, and moments of different seconds different ones. The calendar that the
server can be run with is such a library (`gregorian_documented`).
-/

namespace MediaShelf.Http

open MediaShelf.Text

/-! ## Times -/

namespace Stamp

/-- A day of the calendar, with the day of the week that it is, at a time that clocks show. The
sixth of November 1994 was a Sunday. -/
structure Valid (stamp : Stamp) : Prop where
  isDay : IsDay stamp.year stamp.month stamp.day
  weekday_eq : (stamp.weekday : Int) =
    (dayNumber stamp.year stamp.month stamp.day - dayNumber 1994 11 6) % 7
  hour_lt : stamp.hour < 24
  minute_lt : stamp.minute < 60
  second_lt : stamp.second < 60

/-- The seconds from the start of 1970 to this one. -/
def seconds (stamp : Stamp) : Int :=
  (dayNumber stamp.year stamp.month stamp.day - dayNumber 1970 1 1) * 86400 +
    stamp.hour * 3600 + stamp.minute * 60 + stamp.second

end Stamp

namespace DateTime

/-- A second that there is, and a part of it. -/
structure Valid (time : DateTime) : Prop where
  stamp : time.toStamp.Valid
  nanosecond_lt : time.nanosecond < 1000000000

/-- The moment of a time in UTC. -/
def moment (time : DateTime) : Moment := ⟨time.seconds * 1000000000 + time.nanosecond⟩

end DateTime

/-- The nanoseconds from the start of 1970 to the start of a year. -/
def startOfYear (year : Int) : Int :=
  (dayNumber year 1 1 - dayNumber 1970 1 1) * 86400 * 1000000000

/-- The moments of the years 0000 to 9999. -/
def Moment.HasFourDigitYear (moment : Moment) : Prop :=
  startOfYear 0 ≤ moment.nanoseconds ∧ moment.nanoseconds < startOfYear 10000

/-! ## The library -/

/-- What a calendar library is documented to do, as far as dates rely on it. -/
structure Calendar.Documented (calendar : Calendar) : Prop where
  /-- The calendar reaches from the year -262143 to the year 262142. -/
  reaches : ∀ moment : Moment, startOfYear (-262143) ≤ moment.nanoseconds →
    moment.nanoseconds < startOfYear 262143 → ∃ time, calendar.utc? moment = some time
  /-- It is the proleptic Gregorian one, and the time made of a moment is the time at that moment. -/
  proleptic : ∀ {moment time}, calendar.utc? moment = some time →
    time.Valid ∧ time.moment = moment
  /-- A format is written from its first character to its last one. -/
  format_nil : ∀ time, calendar.format time [] = []
  /-- A character that is no percent sign stands for itself. -/
  format_char : ∀ {time c} rest, time.Valid → c ≠ '%' →
    calendar.format time (c :: rest) = c :: calendar.format time rest
  /-- The name of the weekday, always three letters. -/
  format_a : ∀ {time} rest, time.Valid → calendar.format time ('%' :: 'a' :: rest) =
    (weekdayNames.getD time.weekday "").toList ++ calendar.format time rest
  /-- The number of the day, padded with zeros to two digits. -/
  format_d : ∀ {time} rest, time.Valid → calendar.format time ('%' :: 'd' :: rest) =
    (padded 2 time.day).toList ++ calendar.format time rest
  /-- The name of the month, always three letters. -/
  format_b : ∀ {time} rest, time.Valid → calendar.format time ('%' :: 'b' :: rest) =
    (monthNames.getD (time.month - 1) "").toList ++ calendar.format time rest
  /-- The year, padded with zeros to four digits; other years than these have a sign. -/
  format_Y : ∀ {time} rest, time.Valid → 0 ≤ time.year → time.year ≤ 9999 →
    calendar.format time ('%' :: 'Y' :: rest) =
      (padded 4 time.year.toNat).toList ++ calendar.format time rest
  /-- The hour from 00 to 23. -/
  format_H : ∀ {time} rest, time.Valid → calendar.format time ('%' :: 'H' :: rest) =
    (padded 2 time.hour).toList ++ calendar.format time rest
  /-- The minute from 00 to 59. -/
  format_M : ∀ {time} rest, time.Valid → calendar.format time ('%' :: 'M' :: rest) =
    (padded 2 time.minute).toList ++ calendar.format time rest
  /-- The second, padded with zeros to two digits. -/
  format_S : ∀ {time} rest, time.Valid → calendar.format time ('%' :: 'S' :: rest) =
    (padded 2 time.second).toList ++ calendar.format time rest

/-! ## Reading a date -/

/-- The number that digits write. -/
def number? (digits : List Char) : Option Nat :=
  if digits.all Char.isDigit then some (Nat.ofDigitChars 10 digits 0) else none

/-- Reads a text of 29 characters. -/
def Stamp.read? (text : String) : Option Stamp :=
  match text.toList with
  | [w₁, w₂, w₃, ',', ' ', d₁, d₂, ' ', m₁, m₂, m₃, ' ', y₁, y₂, y₃, y₄, ' ',
      h₁, h₂, ':', n₁, n₂, ':', s₁, s₂, ' ', 'G', 'M', 'T'] => do
    let weekday ← weekdayNames.idxOf? (String.ofList [w₁, w₂, w₃])
    let day ← number? [d₁, d₂]
    let month ← monthNames.idxOf? (String.ofList [m₁, m₂, m₃])
    let year ← number? [y₁, y₂, y₃, y₄]
    let hour ← number? [h₁, h₂]
    let minute ← number? [n₁, n₂]
    let second ← number? [s₁, s₂]
    some ⟨weekday, day, month + 1, year, hour, minute, second⟩
  | _ => none

/-- So many digits that write a number. -/
def Digits (width : Nat) (s : String) (n : Nat) : Prop :=
  s.toList.length = width ∧ number? s.toList = some n

theorem number?_of_numeral {s : List Char} {n : Nat} (h : Numeral s n) : number? s = some n := by
  rw [number?, if_pos (List.all_eq_true.mpr h.2.1), h.2.2]

theorem toList_pushn (s : String) (c : Char) (n : Nat) :
    (s.pushn c n).toList = s.toList ++ List.replicate n c := by
  rw [String.pushn_eq_repeat_push]
  induction n with
  | zero => simp [Nat.repeat]
  | succ n ih =>
    rw [Nat.repeat, String.toList_push, ih, List.replicate_succ', List.append_assoc]

/-- A number is padded to the width if it has no more digits. -/
theorem digits_padded {width n : Nat} (hwidth : 0 < width) (h : n < 10 ^ width) :
    Digits width (padded width n) n := by
  obtain ⟨hne, hdigits, hvalue⟩ := numeral_toString n
  have hlength : (toString n).length ≤ width := by
    rw [Nat.toString_eq_ofList_toDigits, String.length_ofList]
    exact (Nat.length_toDigits_le_iff (by decide) hwidth).mpr h
  have htext : (padded width n).toList =
      List.replicate (width - (toString n).length) '0' ++ (toString n).toList := by
    rw [padded, String.toList_append, toList_pushn]
    rfl
  refine ⟨?_, number?_of_numeral ⟨?_, ?_, ?_⟩⟩ <;> rw [htext]
  · rw [List.length_append, List.length_replicate, String.length_toList]
    omega
  · exact List.append_ne_nil_of_right_ne_nil _ hne
  · intro c hc
    rcases List.mem_append.mp hc with hc | hc
    · rw [List.eq_of_mem_replicate hc]
      rfl
    · exact hdigits c hc
  · rw [Nat.ofDigitChars_append, Nat.ofDigitChars_replicate_zero, Nat.mul_zero, hvalue]

/-- A name of three letters that stands at a place of a list. -/
def Named (names : List String) (s : String) (place : Nat) : Prop :=
  s.toList.length = 3 ∧ names.idxOf? s = some place

theorem named_weekday {k : Nat} (h : k < 7) : Named weekdayNames (weekdayNames.getD k "") k := by
  unfold Named
  interval_cases k <;> decide

theorem named_month {k : Nat} (h : k < 12) : Named monthNames (monthNames.getD k "") k := by
  unfold Named
  interval_cases k <;> decide

/-- Fields of a date, with what they say. -/
structure DateFields (stamp : Stamp) (weekday day month year hour minute second : String) :
    Prop where
  weekday : Named weekdayNames weekday stamp.weekday
  day : Digits 2 day stamp.day
  month : Named monthNames month (stamp.month - 1)
  month_pos : 1 ≤ stamp.month
  year : Digits 4 year stamp.year.toNat
  year_nonneg : 0 ≤ stamp.year
  hour : Digits 2 hour stamp.hour
  minute : Digits 2 minute stamp.minute
  second : Digits 2 second stamp.second

/-- A text of such fields is read. -/
theorem read?_fields {stamp : Stamp} {w d m y h n s text : String}
    (fields : DateFields stamp w d m y h n s)
    (htext : text = w ++ ", " ++ d ++ " " ++ m ++ " " ++ y ++ " " ++ h ++ ":" ++ n ++ ":" ++ s ++
      " GMT") : text.length = 29 ∧ Stamp.read? text = some stamp := by
  obtain ⟨⟨hwlength, hw⟩, ⟨hdlength, hd⟩, ⟨hmlength, hm⟩, hpos, ⟨hylength, hy⟩, hnonneg,
    ⟨hhlength, hh⟩, ⟨hnlength, hn⟩, ⟨hslength, hs⟩⟩ := fields
  obtain ⟨w₁, w₂, w₃, hwchars⟩ := List.length_eq_three.mp hwlength
  obtain ⟨d₁, d₂, hdchars⟩ := List.length_eq_two.mp hdlength
  obtain ⟨m₁, m₂, m₃, hmchars⟩ := List.length_eq_three.mp hmlength
  obtain ⟨y₁, y₂, y₃, y₄, hychars⟩ := List.length_eq_four.mp hylength
  obtain ⟨h₁, h₂, hhchars⟩ := List.length_eq_two.mp hhlength
  obtain ⟨n₁, n₂, hnchars⟩ := List.length_eq_two.mp hnlength
  obtain ⟨s₁, s₂, hschars⟩ := List.length_eq_two.mp hslength
  have hchars : text.toList = [w₁, w₂, w₃, ',', ' ', d₁, d₂, ' ', m₁, m₂, m₃, ' ', y₁, y₂, y₃, y₄,
      ' ', h₁, h₂, ':', n₁, n₂, ':', s₁, s₂, ' ', 'G', 'M', 'T'] := by
    simp [htext, hwchars, hdchars, hmchars, hychars, hhchars, hnchars, hschars]
  constructor
  · rw [← String.length_toList, hchars]
    rfl
  · rw [← String.ofList_toList (s := w), hwchars] at hw
    rw [← String.ofList_toList (s := m), hmchars] at hm
    rw [hdchars] at hd
    rw [hychars] at hy
    rw [hhchars] at hh
    rw [hnchars] at hn
    rw [hschars] at hs
    simp only [Stamp.read?, hchars, hw, hd, hm, hy, hh, hn, hs, Option.bind_some,
      Option.bind_eq_bind, Nat.sub_add_cancel hpos, Int.toNat_of_nonneg hnonneg]

/-- The text of a time of the years 0 to 9999. -/
def Stamp.text (stamp : Stamp) : String :=
  weekdayNames.getD stamp.weekday "" ++ ", " ++ padded 2 stamp.day ++ " " ++
    monthNames.getD (stamp.month - 1) "" ++ " " ++ padded 4 stamp.year.toNat ++ " " ++
    padded 2 stamp.hour ++ ":" ++ padded 2 stamp.minute ++ ":" ++ padded 2 stamp.second ++ " GMT"

/-- The fields of a time of the years 0 to 9999. -/
theorem Stamp.Valid.dateFields {stamp : Stamp} (h : stamp.Valid) (hfrom : 0 ≤ stamp.year)
    (huntil : stamp.year ≤ 9999) :
    DateFields stamp (weekdayNames.getD stamp.weekday "") (padded 2 stamp.day)
      (monthNames.getD (stamp.month - 1) "") (padded 4 stamp.year.toNat) (padded 2 stamp.hour)
      (padded 2 stamp.minute) (padded 2 stamp.second) := by
  obtain ⟨hday, hweekday, hhour, hminute, hsecond⟩ := h
  have hday31 := hday.day_le_31
  have hmonth12 := hday.month_le
  exact
    { weekday := named_weekday (by omega)
      day := digits_padded (by decide) (by omega)
      month := named_month (by omega)
      month_pos := hday.month_pos
      year := digits_padded (by decide) (by omega)
      year_nonneg := hfrom
      hour := digits_padded (by decide) (by omega)
      minute := digits_padded (by decide) (by omega)
      second := digits_padded (by decide) (by omega) }

/-! ## The date of a moment -/

theorem dayNumber_epoch : dayNumber 1970 1 1 = epochDays := dayNumber_newYear 1970

theorem dayNumber_sunday : dayNumber 1994 11 6 = epochDays + 9075 := by
  have hmonths : (((monthLengths 1994).take (11 - 1)).sum + (6 - 1) : Nat) = 309 := by decide
  rw [dayNumber, hmonths, ← daysBeforeYear_eq]
  rfl

theorem startOfYear_eq (year : Int) :
    startOfYear year = (daysBeforeYear year - epochDays) * 86400 * 1000000000 := by
  rw [startOfYear, dayNumber_newYear, dayNumber_epoch]

/-- A time lies in a year or after it if its moment does not come before the start of the year. -/
theorem DateTime.Valid.startOfYear_le_iff {time : DateTime} (h : time.Valid) (year : Int) :
    startOfYear year ≤ time.moment.nanoseconds ↔ year ≤ time.year := by
  obtain ⟨⟨hday, -, hhour, hminute, hsecond⟩, hnano⟩ := h
  rw [hday.le_year_iff, startOfYear_eq, DateTime.moment, Stamp.seconds, dayNumber_epoch]
  dsimp only
  omega

/-- A second has one stamp. -/
theorem Stamp.Valid.eq_of_seconds_eq {stamp stamp' : Stamp} (h : stamp.Valid) (h' : stamp'.Valid)
    (heq : stamp.seconds = stamp'.seconds) : stamp = stamp' := by
  obtain ⟨hday, hweekday, hhour, hminute, hsecond⟩ := h
  obtain ⟨hday', hweekday', hhour', hminute', hsecond'⟩ := h'
  rw [Stamp.seconds, Stamp.seconds] at heq
  have hnumber : dayNumber stamp.year stamp.month stamp.day =
      dayNumber stamp'.year stamp'.month stamp'.day := by omega
  obtain ⟨hyear, hmonth, hdate⟩ := hday.eq_of_dayNumber_eq hday' hnumber
  rw [hnumber] at hweekday heq
  cases stamp
  cases stamp'
  simp only [Stamp.mk.injEq]
  dsimp only at *
  exact ⟨by omega, hdate, hmonth, hyear, by omega, by omega, by omega⟩

section Library

variable {calendar : Calendar} (h : calendar.Documented)

include h

theorem format_dateFormat {time : DateTime} (hvalid : time.Valid) (hfrom : 0 ≤ time.year)
    (huntil : time.year ≤ 9999) :
    String.ofList (calendar.format time dateFormat.toList) = time.toStamp.text := by
  have hchars : dateFormat.toList = ['%', 'a', ',', ' ', '%', 'd', ' ', '%', 'b', ' ', '%', 'Y',
      ' ', '%', 'H', ':', '%', 'M', ':', '%', 'S', ' ', 'G', 'M', 'T'] := by decide
  apply String.toList_injective
  rw [String.toList_ofList, hchars]
  simp only [h.format_a _ hvalid, h.format_d _ hvalid, h.format_b _ hvalid,
    h.format_Y _ hvalid hfrom huntil, h.format_H _ hvalid, h.format_M _ hvalid,
    h.format_S _ hvalid, h.format_nil,
    h.format_char _ hvalid (show ',' ≠ '%' by decide),
    h.format_char _ hvalid (show ' ' ≠ '%' by decide),
    h.format_char _ hvalid (show ':' ≠ '%' by decide),
    h.format_char _ hvalid (show 'G' ≠ '%' by decide),
    h.format_char _ hvalid (show 'M' ≠ '%' by decide),
    h.format_char _ hvalid (show 'T' ≠ '%' by decide)]
  simp [Stamp.text]

/-- The date of a moment in the years 0000 to 9999 says the second that it falls into. -/
theorem exists_date? {moment : Moment} (hyear : moment.HasFourDigitYear) :
    ∃ stamp : Stamp, calendar.date? moment = some stamp.text ∧ stamp.text.length = 29 ∧
      Stamp.read? stamp.text = some stamp ∧ stamp.Valid ∧ stamp.seconds = moment.seconds := by
  obtain ⟨time, htime⟩ : ∃ time, calendar.utc? moment = some time := by
    obtain ⟨hfrom, huntil⟩ := hyear
    simp only [startOfYear_eq, daysBeforeYear, epochDays] at hfrom huntil
    refine h.reaches moment ?_ ?_ <;> simp only [startOfYear_eq, daysBeforeYear, epochDays] <;> omega
  obtain ⟨hvalid, rfl⟩ := h.proleptic htime
  have hfrom := (hvalid.startOfYear_le_iff 0).mp hyear.1
  have huntil : time.year ≤ 9999 := by
    have hlt := mt (hvalid.startOfYear_le_iff 10000).mpr (not_le.mpr hyear.2)
    omega
  obtain ⟨hlength, hread⟩ := read?_fields (hvalid.stamp.dateFields hfrom huntil) rfl
  refine ⟨time.toStamp, ?_, hlength, hread, hvalid.stamp, ?_⟩
  · rw [Calendar.date?, htime, Option.map_some, format_dateFormat h hvalid hfrom huntil]
  · have hnano := hvalid.nanosecond_lt
    rw [Moment.seconds, DateTime.moment]
    dsimp only
    omega

end Library

/-- **The date of a moment.** With a calendar library that does what it is documented to do, the
text for a moment of the years 0000 to 9999, before 1970 or after it, has 29 characters and is read
as a day of the Gregorian calendar, with the day of the week that it is, and a time of the day. These
are the second that the moment falls into, what is left of it being cut off. So two moments have one
text exactly if they fall into one second. -/
theorem date_exact {calendar : Calendar} (h : calendar.Documented) :
    (∀ moment : Moment, moment.HasFourDigitYear → ∃ text stamp,
      calendar.date? moment = some text ∧ text.length = 29 ∧ Stamp.read? text = some stamp ∧
      stamp.Valid ∧ stamp.seconds * 1000000000 ≤ moment.nanoseconds ∧
      moment.nanoseconds < (stamp.seconds + 1) * 1000000000) ∧
    ∀ moment moment' : Moment, moment.HasFourDigitYear → moment'.HasFourDigitYear →
      (calendar.date? moment = calendar.date? moment' ↔ moment.seconds = moment'.seconds) := by
  constructor
  · intro moment hyear
    obtain ⟨stamp, hdate, hlength, hread, hvalid, hseconds⟩ := exists_date? h hyear
    refine ⟨stamp.text, stamp, hdate, hlength, hread, hvalid, ?_, ?_⟩ <;>
      rw [hseconds, Moment.seconds] <;> omega
  · intro moment moment' hyear hyear'
    obtain ⟨stamp, hdate, -, hread, hvalid, hseconds⟩ := exists_date? h hyear
    obtain ⟨stamp', hdate', -, hread', hvalid', hseconds'⟩ := exists_date? h hyear'
    rw [hdate, hdate', ← hseconds, ← hseconds', Option.some.injEq]
    constructor
    · intro heq
      -- one text is read in one way, and what is read says the second
      rw [heq, hread'] at hread
      rw [Option.some.inj hread]
    · intro heq
      rw [hvalid.eq_of_seconds_eq hvalid' heq]

/-! ## The Gregorian calendar as a library -/

theorem seconds_stampOf (days : Int) (second : Nat) :
    (stampOf days second).seconds = days * 86400 + second := by
  have hhour : (stampOf days second).hour = second / 3600 := rfl
  have hminute : (stampOf days second).minute = second / 60 % 60 := rfl
  have hsecond : (stampOf days second).second = second % 60 := rfl
  rw [Stamp.seconds, (isDay_stampOf days second).2, dayNumber_epoch, hhour, hminute, hsecond]
  omega

theorem valid_stampOf (days : Int) {second : Nat} (h : second < 86400) :
    (stampOf days second).Valid where
  isDay := (isDay_stampOf days second).1
  weekday_eq := by
    have hweekday : (stampOf days second).weekday = ((days + 4) % 7).toNat := rfl
    rw [(isDay_stampOf days second).2, dayNumber_sunday, hweekday]
    omega
  hour_lt := Nat.div_lt_of_lt_mul h
  minute_lt := Nat.mod_lt _ (by decide)
  second_lt := Nat.mod_lt _ (by decide)

/-- The calendar that the server can be run with is such a library. -/
theorem gregorian_documented : Calendar.gregorian.Documented where
  reaches := by
    intro moment hfrom huntil
    rw [startOfYear_eq] at hfrom huntil
    have hyear (year : Int) : year ≤ (stampOf (moment.seconds / 86400)
        (moment.seconds % 86400).toNat).year ↔
        daysBeforeYear year ≤ moment.seconds / 86400 + epochDays := le_yearOfDay_iff
    have hbefore : ¬ 262143 ≤ (stampOf (moment.seconds / 86400)
        (moment.seconds % 86400).toNat).year := by
      rw [hyear, Moment.seconds]
      omega
    refine ⟨_, if_pos ⟨(hyear _).mpr ?_, by omega⟩⟩
    rw [Moment.seconds]
    omega
  proleptic := by
    intro moment time htime
    have hsecond : (moment.seconds % 86400).toNat < 86400 := by omega
    simp only [Calendar.gregorian] at htime
    split at htime
    case isFalse => cases htime
    case isTrue =>
      cases htime
      refine ⟨⟨valid_stampOf _ hsecond, ?_⟩, ?_⟩
      · dsimp only
        omega
      · rw [DateTime.moment, seconds_stampOf, Moment.seconds]
        refine congrArg Moment.mk ?_
        dsimp only
        omega
  format_nil _ := rfl
  format_char := by
    intro time c rest _ hc
    simp only [Calendar.gregorian]
    rw [writeTime]
    rintro letter rest' rfl
    exact absurd rfl hc
  format_a _ _ := rfl
  format_d _ _ := rfl
  format_b _ _ := rfl
  format_Y := by
    intro time rest _ hfrom huntil
    have hyear : yearText time.year = padded 4 time.year.toNat := by
      rw [yearText, if_neg (by omega), if_neg (by omega)]
      congr 1
      omega
    rw [← hyear]
    rfl
  format_H _ _ := rfl
  format_M _ _ := rfl
  format_S _ _ := rfl

example : Calendar.gregorian.date? (.ofSeconds 784111777) =
    some "Sun, 06 Nov 1994 08:49:37 GMT" := by cbv

/-- The nanosecond before 1970 falls into the last second of 1969, and so does the start of that
second. -/
theorem date_exact_before_epoch :
    (∃ text stamp, Calendar.gregorian.date? ⟨-1⟩ = some text ∧ text.length = 29 ∧
      Stamp.read? text = some stamp ∧ stamp.Valid ∧ stamp.seconds * 1000000000 ≤ -1 ∧
      -1 < (stamp.seconds + 1) * 1000000000) ∧
    Calendar.gregorian.date? ⟨-1⟩ = some "Wed, 31 Dec 1969 23:59:59 GMT" ∧
    Calendar.gregorian.date? ⟨-1⟩ = Calendar.gregorian.date? ⟨-1000000000⟩ := by
  have hbetween : ∀ n : Int, -1000000000 ≤ n → n ≤ -1 → Moment.HasFourDigitYear ⟨n⟩ := by
    intro n hfrom huntil
    simp only [Moment.HasFourDigitYear, startOfYear_eq, daysBeforeYear, epochDays]
    omega
  have h := hbetween (-1) (by decide) (by decide)
  have h' := hbetween (-1000000000) (by decide) (by decide)
  have hdates := date_exact gregorian_documented
  exact ⟨hdates.1 ⟨-1⟩ h, by cbv, (hdates.2 ⟨-1⟩ ⟨-1000000000⟩ h h').mpr (by decide)⟩

end MediaShelf.Http
