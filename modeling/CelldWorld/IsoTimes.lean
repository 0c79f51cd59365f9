import CelldWorld.Library.PaddedDigits
import CelldWorld.RunCell

namespace CelldWorld

open PaddedDigits

/-- The first time whose year takes more than four digits. -/
def FIVE_DIGIT_YEARS_MS : Nat := 253402300800000

/-! The civil date of a day, counted from 1 March of the year 0. -/

def civilYearOfEra (day : Nat) : Nat :=
  let dayOfEra := day % 146097
  (dayOfEra - dayOfEra / 1460 + dayOfEra / 36524 - dayOfEra / 146096) / 365

def civilDayOfYear (day : Nat) : Nat :=
  day % 146097 - (365 * civilYearOfEra day + civilYearOfEra day / 4 - civilYearOfEra day / 100)

def civilShifted (day : Nat) : Nat := (5 * civilDayOfYear day + 2) / 153

def civilDayOfMonth (day : Nat) : Nat := civilDayOfYear day - (153 * civilShifted day + 2) / 5 + 1

def civilMonth (day : Nat) : Nat := if civilShifted day < 10 then civilShifted day + 3 else civilShifted day - 9

def civilYear (day : Nat) : Nat := civilYearOfEra day + day / 146097 * 400 + if civilMonth day ≤ 2 then 1 else 0

/-- A day of an era as the years in which it lies: a century, a cycle of four years there,
and a year of that. -/
structure EraDay (dayOfEra century cycle rest dayOfYear : Nat) : Prop where
  centuries : century ≤ 3
  cycles : cycle ≤ 24
  years : rest ≤ 3
  leap : dayOfYear ≤ 365
  common : rest < 3 → dayOfYear ≤ 364
  full : century < 3 → 1461 * cycle + 365 * rest + dayOfYear ≤ 36523
  day : dayOfEra = 36524 * century + 1461 * cycle + 365 * rest + dayOfYear

theorem eraDay_split {dayOfEra : Nat} (small : dayOfEra < 146097) :
    ∃ century cycle rest dayOfYear, EraDay dayOfEra century cycle rest dayOfYear := by
  obtain ⟨century, inCentury, few, short, rfl, full⟩ : ∃ century inCentury, century ≤ 3 ∧ inCentury ≤ 36524 ∧
      dayOfEra = 36524 * century + inCentury ∧ (century < 3 → inCentury ≤ 36523) := by
    by_cases last : dayOfEra = 146096
    · exact ⟨3, 36524, by omega, by omega, by omega, by omega⟩
    · exact ⟨dayOfEra / 36524, dayOfEra % 36524, by omega, by omega, by omega, by omega⟩
  obtain ⟨cycle, inCycle, few', short', rfl⟩ : ∃ cycle inCycle, cycle ≤ 24 ∧ inCycle ≤ 1460 ∧
      inCentury = 1461 * cycle + inCycle := ⟨inCentury / 1461, inCentury % 1461, by omega, by omega, by omega⟩
  by_cases last : inCycle = 1460
  · exact ⟨century, cycle, 3, 365, few, few', by omega, by omega, by omega, by omega, by omega⟩
  · exact ⟨century, cycle, inCycle / 365, inCycle % 365, few,
      few', by omega, by omega, by omega, by omega, by omega⟩

/-- The last day of a cycle counts as a day of the next one by 1460 days, and the last day of
an era counts as a fifth century, which the second era cancels. -/
theorem EraDay.year {dayOfEra century cycle rest dayOfYear : Nat}
    (split : EraDay dayOfEra century cycle rest dayOfYear) :
    (dayOfEra - dayOfEra / 1460 + dayOfEra / 36524 - dayOfEra / 146096) / 365 =
      100 * century + 4 * cycle + rest := by
  obtain ⟨few, few', few'', leap, common, full, day⟩ := split
  have centuries : dayOfEra / 36524 = century + dayOfEra / 146096 := by
    by_cases last : dayOfEra = 146096
    · omega
    · have inside : dayOfEra / 146096 = 0 := by omega
      have before : 1461 * cycle + 365 * rest + dayOfYear ≤ 36523 := by omega
      omega
  rw [centuries]
  generalize dayOfEra / 146096 = excess
  by_cases late : 1460 ≤ 24 * century + cycle + (365 * rest + dayOfYear)
  · have cycles : dayOfEra / 1460 = 25 * century + cycle + 1 := by omega
    have days : dayOfEra - dayOfEra / 1460 + (century + excess) - excess =
        365 * (100 * century + 4 * cycle + rest) + (dayOfYear - 1) := by omega
    rw [days]
    omega
  · have cycles : dayOfEra / 1460 = 25 * century + cycle := by omega
    have days : dayOfEra - dayOfEra / 1460 + (century + excess) - excess =
        365 * (100 * century + 4 * cycle + rest) + dayOfYear := by omega
    rw [days]
    omega

theorem civilYearOfEra_split (day : Nat) : ∃ century cycle rest,
    civilYearOfEra day = 100 * century + 4 * cycle + rest ∧
      EraDay (day % 146097) century cycle rest (civilDayOfYear day) := by
  obtain ⟨century, cycle, rest, dayOfYear, split⟩ := @eraDay_split (day % 146097) (Nat.mod_lt _ (by decide))
  have year : civilYearOfEra day = 100 * century + 4 * cycle + rest := split.year
  have same : civilDayOfYear day = dayOfYear := by
    obtain ⟨few, few', few'', -, -, -, days⟩ := split
    have quarter : (100 * century + 4 * cycle + rest) / 4 = 25 * century + cycle := by omega
    have hundred : (100 * century + 4 * cycle + rest) / 100 = century := by omega
    unfold civilDayOfYear
    rw [year, quarter, hundred, days]
    omega
  exact ⟨century, cycle, rest, year, same ▸ split⟩

/-- Later days of an era lie in later years, or later in the same year. -/
theorem EraDay.lt {earlier later century cycle rest dayOfYear century₂ cycle₂ rest₂ dayOfYear₂ : Nat}
    (first : EraDay earlier century cycle rest dayOfYear) (second : EraDay later century₂ cycle₂ rest₂ dayOfYear₂)
    (less : earlier < later) :
    100 * century + 4 * cycle + rest < 100 * century₂ + 4 * cycle₂ + rest₂ ∨
      100 * century + 4 * cycle + rest = 100 * century₂ + 4 * cycle₂ + rest₂ ∧ dayOfYear < dayOfYear₂ := by
  obtain ⟨few, few', few'', leap, common, full, day⟩ := first
  obtain ⟨few₂, few₂', few₂'', leap₂, common₂, full₂, day₂⟩ := second
  rcases Nat.lt_trichotomy century century₂ with before | rfl | after
  · omega
  · rcases Nat.lt_trichotomy cycle cycle₂ with before | rfl | after
    · omega
    · rcases Nat.lt_trichotomy rest rest₂ with before | rfl | after <;> omega
    · omega
  · omega

/-- Later days have later dates. -/
theorem civil_lt {earlier later : Nat} (less : earlier < later) :
    civilYear earlier < civilYear later ∨ civilYear earlier = civilYear later ∧
      (civilMonth earlier < civilMonth later ∨ civilMonth earlier = civilMonth later ∧
        civilDayOfMonth earlier < civilDayOfMonth later) := by
  obtain ⟨_, _, _, year, split⟩ := civilYearOfEra_split earlier
  obtain ⟨_, _, _, year₂, split₂⟩ := civilYearOfEra_split later
  have leap := split.leap
  have leap₂ := split₂.leap
  have years : civilYearOfEra earlier + earlier / 146097 * 400 < civilYearOfEra later + later / 146097 * 400 ∨
      civilYearOfEra earlier + earlier / 146097 * 400 = civilYearOfEra later + later / 146097 * 400 ∧
        civilDayOfYear earlier < civilDayOfYear later := by
    rcases Nat.lt_or_ge (earlier / 146097) (later / 146097) with era | era
    · obtain ⟨few, few', few'', -⟩ := split
      left
      omega
    · have sameEra : earlier / 146097 = later / 146097 :=
        Nat.le_antisymm (Nat.div_le_div_right (Nat.le_of_lt less)) era
      have within := split.lt split₂ (by omega)
      rw [← year, ← year₂] at within
      omega
  clear year year₂ split split₂
  unfold civilYear civilDayOfMonth civilMonth civilShifted
  generalize civilYearOfEra earlier + earlier / 146097 * 400 = y at *
  generalize civilYearOfEra later + later / 146097 * 400 = y₂ at *
  generalize civilDayOfYear earlier = d at *
  generalize civilDayOfYear later = d₂ at *
  rcases years with before | ⟨rfl, before⟩
  · split <;> split <;> split <;> split <;> omega
  · rcases Nat.lt_or_ge ((5 * d + 2) / 153) ((5 * d₂ + 2) / 153) with month | month
    · split <;> split <;> split <;> split <;> omega
    · have sameMonth : (5 * d + 2) / 153 = (5 * d₂ + 2) / 153 := by omega
      rw [sameMonth]
      refine .inr ⟨rfl, .inr ⟨rfl, ?_⟩⟩
      omega

theorem civil_bounds (day : Nat) : civilMonth day < 10 ^ 2 ∧ civilDayOfMonth day < 10 ^ 2 := by
  obtain ⟨_, _, _, -, split⟩ := civilYearOfEra_split day
  have leap := split.leap
  clear split
  unfold civilMonth civilDayOfMonth civilShifted
  generalize civilDayOfYear day = d at *
  refine ⟨?_, by omega⟩
  split <;> omega

/-- The day of a time, counted from 1 March of the year 0. -/
def civilDay (ms : Nat) : Nat := ms / 86400000 + 719468

/-- The text of a time of day, behind its date. -/
def timeText (time : Nat) : List Char :=
  'T' :: (padded 2 (time / 3600000) ++ ':' :: (padded 2 (time / 60000 % 60) ++ ':' ::
    (padded 2 (time / 1000 % 60) ++ '.' :: (padded 3 (time % 1000) ++ ['Z']))))

def dateText (day : Nat) (rest : List Char) : List Char :=
  padded 4 (civilYear day) ++ '-' ::
    (padded 2 (civilMonth day) ++ '-' :: (padded 2 (civilDayOfMonth day) ++ rest))

/-- A field of the text of a time. -/
def isoField (width value : Nat) : String :=
  String.ofList (List.replicate (width - (toString value).length) '0') ++ toString value

theorem isoField_text {width value : Nat} : (isoField width value).toList = padded width value := by
  have digits : toString value = String.ofList (Nat.toDigits 10 value) := Nat.repr_eq_ofList_toDigits
  rw [isoField, String.toList_append, digits, String.toList_ofList, String.toList_ofList, String.length_ofList]
  rfl

def isoText (year month dayOfMonth time : Nat) : String :=
  (if year ≤ 9999 then isoField 4 year else "+" ++ isoField 6 year) ++ "-" ++ isoField 2 month ++ "-" ++
    isoField 2 dayOfMonth ++ "T" ++ isoField 2 (time / 3600000) ++ ":" ++ isoField 2 (time / 60000 % 60) ++ ":" ++
    isoField 2 (time / 1000 % 60) ++ "." ++ isoField 3 (time % 1000) ++ "Z"

theorem toISOString_parts {ms : Nat} : toISOString ms =
    isoText (civilYear (civilDay ms)) (civilMonth (civilDay ms)) (civilDayOfMonth (civilDay ms))
      (ms % 86400000) := by
  unfold toISOString isoText isoField
  extract_lets pad day era dayOfEra yearOfEra dayOfYear shifted dayOfMonth month year date time
  have years : civilYear (civilDay ms) = year := rfl
  have months : civilMonth (civilDay ms) = month := rfl
  have days : civilDayOfMonth (civilDay ms) = dayOfMonth := rfl
  rw [years, months, days]

theorem isoText_text {day time : Nat} (digits : civilYear day ≤ 9999) :
    (isoText (civilYear day) (civilMonth day) (civilDayOfMonth day) time).toList =
      dateText day (timeText time) := by
  have dash : "-".toList = ['-'] := rfl
  have start : "T".toList = ['T'] := rfl
  have colon : ":".toList = [':'] := rfl
  have dot : ".".toList = ['.'] := rfl
  have zone : "Z".toList = ['Z'] := rfl
  unfold isoText
  rw [if_pos digits]
  simp only [String.toList_append, isoField_text, dash, start, colon, dot, zone, dateText,
    timeText, List.append_assoc,
    List.cons_append, List.nil_append]

theorem toISOString_text {ms : Nat} (digits : civilYear (civilDay ms) ≤ 9999) :
    (toISOString ms).toList = dateText (civilDay ms) (timeText (ms % 86400000)) :=
  (congrArg String.toList toISOString_parts).trans (isoText_text digits)

theorem timeText_length {time : Nat} (inside : time < 86400000) : (timeText time).length = 14 := by
  unfold timeText
  simp only [List.length_append, List.length_cons, List.length_nil]
  rw [padded_length (by decide) (by omega), padded_length (by decide) (by omega),
    padded_length (by decide) (by omega),
    padded_length (by decide) (by omega)]

theorem dateText_length {day : Nat} {rest : List Char} (digits : civilYear day ≤ 9999) :
    (dateText day rest).length = 10 + rest.length := by
  obtain ⟨month, inMonth⟩ := civil_bounds day
  unfold dateText
  simp only [List.length_append, List.length_cons]
  rw [padded_length (by decide) (by omega), padded_length (by decide) month, padded_length (by decide) inMonth]
  omega

/-- Up to the year 9999 a time has a text of 24 characters. -/
theorem toISOString_length {ms : Nat} (digits : civilYear (civilDay ms) ≤ 9999) :
    (toISOString ms).toList.length = 24 := by
  rw [toISOString_text digits, dateText_length digits, timeText_length (Nat.mod_lt _ (by decide))]

theorem dateText_lt {earlier later : Nat} {leftRest rightRest : List Char} (digits : civilYear later ≤ 9999)
    (less : earlier < later ∨ earlier = later ∧ leftRest < rightRest) :
    dateText earlier leftRest < dateText later rightRest := by
  obtain ⟨month, day⟩ := civil_bounds later
  have fields : civilYear earlier < civilYear later ∨ civilYear earlier = civilYear later ∧
      (civilMonth earlier < civilMonth later ∨ civilMonth earlier = civilMonth later ∧
        (civilDayOfMonth earlier < civilDayOfMonth later ∨
          civilDayOfMonth earlier = civilDayOfMonth later ∧ leftRest < rightRest)) := by
    rcases less with less | ⟨rfl, less⟩
    · exact (civil_lt less).imp_right (And.imp_right (Or.imp_right (And.imp_right Or.inl)))
    · exact .inr ⟨rfl, .inr ⟨rfl, .inr ⟨rfl, less⟩⟩⟩
  refine padded_append_lt (by decide) (by omega) (fields.imp_right (And.imp_right fun fields => ?_))
  rw [List.cons_lt_cons_self]
  refine padded_append_lt (by decide) month (fields.imp_right (And.imp_right fun fields => ?_))
  rw [List.cons_lt_cons_self]
  exact padded_append_lt (by decide) day fields

theorem timeText_lt {earlier later : Nat} (less : earlier < later) (inside : later < 86400000) :
    timeText earlier < timeText later := by
  unfold timeText
  rw [List.cons_lt_cons_self]
  refine padded_append_lt (by decide) (by omega) ?_
  rcases Nat.lt_or_ge (earlier / 3600000) (later / 3600000) with hour | hour
  · exact .inl hour
  have hours : earlier / 3600000 = later / 3600000 := by omega
  refine .inr ⟨hours, ?_⟩
  rw [List.cons_lt_cons_self]
  refine padded_append_lt (by decide) (by omega) ?_
  rcases Nat.lt_or_ge (earlier / 60000 % 60) (later / 60000 % 60) with minute | minute
  · exact .inl minute
  have minutes : earlier / 60000 % 60 = later / 60000 % 60 := by omega
  refine .inr ⟨minutes, ?_⟩
  rw [List.cons_lt_cons_self]
  refine padded_append_lt (by decide) (by omega) ?_
  rcases Nat.lt_or_ge (earlier / 1000 % 60) (later / 1000 % 60) with second | second
  · exact .inl second
  have seconds : earlier / 1000 % 60 = later / 1000 % 60 := by omega
  refine .inr ⟨seconds, ?_⟩
  rw [List.cons_lt_cons_self]
  exact padded_append_lt (by decide) (by omega) (.inl (by omega))

/-- The years have four digits up to a time. -/
theorem civilYear_digits {ms : Nat} (early : ms < FIVE_DIGIT_YEARS_MS) : civilYear (civilDay ms) ≤ 9999 := by
  have last : civilYear (civilDay (FIVE_DIGIT_YEARS_MS - 1)) = 9999 := by decide
  have day : civilDay ms ≤ civilDay (FIVE_DIGIT_YEARS_MS - 1) := by
    unfold civilDay
    omega
  rcases Nat.lt_or_eq_of_le day with before | same
  · rcases civil_lt before with less | ⟨equal, -⟩
    · omega
    · omega
  · rw [same]
    omega

/-- The texts of times come in the order of the times, up to the year 9999. -/
theorem toISOString_lt {earlier later : Nat} (less : earlier < later) (early : later < FIVE_DIGIT_YEARS_MS) :
    toISOString earlier < toISOString later := by
  have digits := civilYear_digits early
  rw [String.lt_iff, toISOString_text digits, toISOString_text (civilYear_digits (Nat.lt_trans less early))]
  refine dateText_lt digits ?_
  unfold civilDay
  rcases Nat.lt_or_ge (earlier / 86400000) (later / 86400000) with day | day
  · exact .inl (by omega)
  · exact .inr ⟨by omega, timeText_lt (by omega) (Nat.mod_lt _ (by decide))⟩

end CelldWorld
