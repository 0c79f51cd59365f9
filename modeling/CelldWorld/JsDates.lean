import CelldWorld.IsoTimes
import CelldWorld.Library.JsonText
import CelldWorld.StreamReadFrames

namespace CelldWorld

open PaddedDigits JsonText

/-- A valid `Date`, as its milliseconds since the start of 1970. -/
structure JsDate where
  time : Int
  valid : time.natAbs ≤ MAX_DATE_MS
  deriving DecidableEq

/-- The years before the year 0 from which the days of dates are counted, 700 eras of 400. -/
def DATE_ERA_YEARS : Nat := 280000

/-- The days from 1 March of the year -280000 to the start of 1970. -/
def DATE_ERA_DAYS : Nat := 700 * 146097 + 719468

namespace JsDate

/-- The milliseconds of a time since 1 March of the year -280000. -/
def shifted (time : Int) : Nat := (time + 86400000 * DATE_ERA_DAYS).toNat

/-- A year before 0 or after 9999 is written with its sign and six digits. -/
def isoYear (year : Int) : String :=
  if 0 ≤ year ∧ year ≤ 9999 then isoField 4 year.toNat
  else (if year < 0 then "-" else "+") ++ isoField 6 year.natAbs

/-- The text of a time of day. -/
def isoTime (time : Nat) : String :=
  "T" ++ isoField 2 (time / 3600000) ++ ":" ++ isoField 2 (time / 60000 % 60) ++ ":" ++
    isoField 2 (time / 1000 % 60) ++ "." ++ isoField 3 (time % 1000) ++ "Z"

/-- `Date.prototype.toISOString` -/
def isoString (time : Int) : String :=
  let day := shifted time / 86400000
  isoYear ((civilYear day : Int) - DATE_ERA_YEARS) ++ "-" ++ isoField 2 (civilMonth day) ++ "-" ++
    isoField 2 (civilDayOfMonth day) ++ isoTime (shifted time % 86400000)

def toISOString (date : JsDate) : JsText := ascii (isoString date.time)

/-- A decimal number of this width at the start of a text, behind the digits already read. -/
def readDigits : Nat → Nat → JsText → Option (Nat × JsText)
  | 0, value, text => some (value, text)
  | _ + 1, _, [] => none
  | width + 1, value, u :: text =>
    if 0x30 ≤ u.toNat ∧ u.toNat ≤ 0x39 then readDigits width (10 * value + (u.toNat - 0x30)) text else none

def readYear (text : JsText) : Option (Int × JsText) :=
  match text with
  | [] => none
  | u :: rest =>
    if u = unit '-' then (readDigits 6 0 rest).map fun (year, rest) => (-(year : Int), rest)
    else if u = unit '+' then (readDigits 6 0 rest).map fun (year, rest) => ((year : Int), rest)
    else (readDigits 4 0 text).map fun (year, rest) => ((year : Int), rest)

/-- The day of a civil date, both counted from 1 March of one year. -/
def civilNumber (year month dayOfMonth : Nat) : Nat :=
  let year := year - if month ≤ 2 then 1 else 0
  let shifted := if 2 < month then month - 3 else month + 9
  let dayOfYear := (153 * shifted + 2) / 5 + dayOfMonth - 1
  year / 400 * 146097 + (365 * (year % 400) + year % 400 / 4 - year % 400 / 100) + dayOfYear

/-- The time of a text in the format of `toISOString`, whose fields are not checked. -/
def readIso (text : JsText) : Option Int := do
  let (year, text) ← readYear text
  let text ← strip [unit '-'] text
  let (month, text) ← readDigits 2 0 text
  let text ← strip [unit '-'] text
  let (dayOfMonth, text) ← readDigits 2 0 text
  let text ← strip [unit 'T'] text
  let (hours, text) ← readDigits 2 0 text
  let text ← strip [unit ':'] text
  let (minutes, text) ← readDigits 2 0 text
  let text ← strip [unit ':'] text
  let (seconds, text) ← readDigits 2 0 text
  let text ← strip [unit '.'] text
  let (milliseconds, _) ← readDigits 3 0 text
  some (86400000 * ((civilNumber (year + DATE_ERA_YEARS).toNat month dayOfMonth : Int) - DATE_ERA_DAYS) +
    (3600000 * hours + 60000 * minutes + 1000 * seconds + milliseconds : Nat))

/-- `new Date(text)`, `none` when invalid. A text that `toISOString` writes is its date; what the
engine makes of the other texts is a parameter. -/
def ofText (engine : JsText → Option JsDate) (text : JsText) : Option JsDate :=
  match readIso text with
  | none => engine text
  | some time =>
    if valid : time.natAbs ≤ MAX_DATE_MS then
      if toISOString ⟨time, valid⟩ = text then some ⟨time, valid⟩ else engine text
    else engine text

section Digits
variable {width value acc : Nat} {text : JsText}

theorem readDigits_succ : readDigits (width + 1) acc text =
    (readDigits width acc text).bind fun (value, rest) => readDigits 1 value rest := by
  induction width generalizing acc text with
  | zero => rfl
  | succ width ih =>
    cases text with
    | nil => rfl
    | cons u text =>
      rw [readDigits]
      split
      · rename_i digit
        rw [ih, readDigits, if_pos digit]
      · rename_i other
        rw [readDigits, if_neg other]
        rfl

theorem readDigits_one (digit : value < 10) :
    readDigits 1 acc (unit value.digitChar :: text) = some (10 * acc + value, text) := by
  have each : ∀ value : Fin 10, (unit value.val.digitChar).toNat = 0x30 + value := by decide
  rw [readDigits, each ⟨value, digit⟩, if_pos ⟨by omega, by simp; omega⟩, readDigits]
  simp

/-- A padded number is read back. -/
theorem readDigits_padded (some_ : 0 < width) (fits : value < 10 ^ width) :
    readDigits width 0 ((padded width value).map unit ++ text) = some (value, text) := by
  induction width generalizing value text with
  | zero => exact absurd some_ (Nat.lt_irrefl 0)
  | succ width ih =>
    rcases Nat.eq_zero_or_pos width with rfl | wider
    · rw [Nat.zero_add, Nat.pow_one] at fits
      rw [Nat.zero_add, padded_one fits]
      refine (readDigits_one fits).trans ?_
      rw [Nat.mul_zero, Nat.zero_add]
      rfl
    · have smaller : value / 10 < 10 ^ width := Nat.div_lt_of_lt_mul (by rwa [Nat.mul_comm, ← Nat.pow_succ])
      rw [padded_succ wider fits, readDigits_succ, List.map_append, List.append_assoc, ih wider smaller]
      refine (readDigits_one (Nat.mod_lt _ (by decide))).trans ?_
      rw [Nat.div_add_mod]
      rfl

end Digits

/-- A day is told by its civil date. -/
theorem civilNumber_civil (day : Nat) :
    civilNumber (civilYear day) (civilMonth day) (civilDayOfMonth day) = day := by
  obtain ⟨century, cycle, rest, year, split⟩ := civilYearOfEra_split day
  obtain ⟨few, few', few'', leap, common, full, days⟩ := split
  have quarter : civilYearOfEra day / 4 = 25 * century + cycle := by omega
  have hundred : civilYearOfEra day / 100 = century := by omega
  have marched : civilYear day - (if civilMonth day ≤ 2 then 1 else 0) =
      civilYearOfEra day + day / 146097 * 400 := by
    unfold civilYear
    split <;> omega
  have month : (if 2 < civilMonth day then civilMonth day - 3 else civilMonth day + 9) = civilShifted day := by
    have late : civilShifted day ≤ 11 := by
      unfold civilShifted
      omega
    unfold civilMonth
    split <;> split <;> omega
  have inYear : (153 * civilShifted day + 2) / 5 + civilDayOfMonth day - 1 = civilDayOfYear day := by
    unfold civilDayOfMonth civilShifted
    omega
  unfold civilNumber
  rw [marched, month]
  dsimp only
  rw [inYear]
  have era : (civilYearOfEra day + day / 146097 * 400) / 400 = day / 146097 := by omega
  have inEra : (civilYearOfEra day + day / 146097 * 400) % 400 = civilYearOfEra day := by omega
  rw [era, inEra, quarter, hundred]
  omega

theorem ascii_append {left right : String} : ascii (left ++ right) = ascii left ++ ascii right := by
  rw [ascii, String.toList_append, List.map_append]
  rfl

theorem ascii_isoField {width value : Nat} : ascii (isoField width value) = (padded width value).map unit := by
  rw [ascii, isoField_text]

theorem padded_head {width value : Nat} (some_ : 0 < width) (fits : value < 10 ^ width) :
    ∃ u rest, (padded width value).map unit = u :: rest ∧ u ≠ unit '-' ∧ u ≠ unit '+' := by
  cases digits : padded width value with
  | nil =>
    have length := padded_length some_ fits
    rw [digits, List.length_nil] at length
    omega
  | cons c rest =>
    have digit := @padded_digits width value
    rw [digits, List.all_cons, Bool.and_eq_true] at digit
    obtain ⟨value, small, rfl⟩ := exists_digitChar digit.1
    have each : ∀ value : Fin 10, unit value.val.digitChar ≠ unit '-' ∧
        unit value.val.digitChar ≠ unit '+' := by decide
    exact ⟨_, _, rfl, each ⟨value, small⟩⟩

theorem readYear_isoYear {year : Int} {text : JsText} (fits : year.natAbs < 10 ^ 6) :
    readYear (ascii (isoYear year) ++ text) = some (year, text) := by
  have signed : readDigits 6 0 ((padded 6 year.natAbs).map unit ++ text) = some (year.natAbs, text) :=
    readDigits_padded (by decide) fits
  unfold isoYear
  split
  · rename_i plain
    have small : year.toNat < 10 ^ 4 := by omega
    have digits : readDigits 4 0 ((padded 4 year.toNat).map unit ++ text) = some (year.toNat, text) :=
      readDigits_padded (by decide) small
    obtain ⟨u, rest, head, minus, plus⟩ := padded_head (by decide) small
    rw [ascii_isoField]
    rw [head, List.cons_append] at digits ⊢
    rw [readYear]
    simp only [if_neg minus, if_neg plus, digits, Option.map_some, Int.toNat_of_nonneg plain.1]
  · rename_i long
    have minus : ascii "-" = [unit '-'] := rfl
    have plus : ascii "+" = [unit '+'] := rfl
    have other : unit '+' ≠ unit '-' := by decide
    split
    · rename_i negative
      rw [ascii_append, ascii_isoField, minus, List.singleton_append, List.cons_append, readYear]
      simp only [if_true, signed, Option.map_some]
      rw [show -(year.natAbs : Int) = year by omega]
    · rename_i positive
      rw [ascii_append, ascii_isoField, plus, List.singleton_append, List.cons_append, readYear]
      simp only [if_neg other, if_true, signed, Option.map_some]
      rw [show (year.natAbs : Int) = year by omega]

/-- The days of the valid dates come after the day from which they are counted, and their
years have six digits at most. -/
theorem shifted_bounds {time : Int} (valid : time.natAbs ≤ MAX_DATE_MS) :
    (shifted time : Int) = time + 86400000 * DATE_ERA_DAYS ∧
      ((civilYear (shifted time / 86400000) : Int) - DATE_ERA_YEARS).natAbs < 10 ^ 6 := by
  unfold MAX_DATE_MS at valid
  have count : (shifted time : Int) = time + 86400000 * DATE_ERA_DAYS := by
    unfold shifted DATE_ERA_DAYS
    omega
  refine ⟨count, ?_⟩
  obtain ⟨century, cycle, rest, year, split⟩ := civilYearOfEra_split (shifted time / 86400000)
  obtain ⟨few, few', few'', -⟩ := split
  have era : shifted time / 86400000 / 146097 ≤ 1400 := by
    unfold DATE_ERA_DAYS at count
    omega
  unfold civilYear DATE_ERA_YEARS
  split <;> omega

/-- The text of a valid date is read as its time. -/
theorem readIso_isoString {time : Int} (valid : time.natAbs ≤ MAX_DATE_MS) :
    readIso (ascii (isoString time)) = some time := by
  obtain ⟨count, year⟩ := shifted_bounds valid
  obtain ⟨month, dayOfMonth⟩ := civil_bounds (shifted time / 86400000)
  have inDay : shifted time % 86400000 < 86400000 := Nat.mod_lt _ (by decide)
  have field {width value : Nat} {text : JsText} (some_ : 0 < width) (fits : value < 10 ^ width) :
      readDigits width 0 ((padded width value).map unit ++ text) = some (value, text) :=
        readDigits_padded some_ fits
  have marks : ascii "-" = [unit '-'] ∧ ascii "T" = [unit 'T'] ∧ ascii ":" = [unit ':'] ∧
      ascii "." = [unit '.'] :=
    ⟨rfl, rfl, rfl, rfl⟩
  unfold readIso isoString isoTime
  simp only [ascii_append, ascii_isoField, marks, List.append_assoc]
  rw [readYear_isoYear year]
  simp only [Option.bind_eq_bind, Option.bind_some, strip_append]
  rw [field (by decide) month]
  simp only [Option.bind_some, strip_append]
  rw [field (by decide) dayOfMonth]
  simp only [Option.bind_some, strip_append]
  rw [field (by decide) (by omega)]
  simp only [Option.bind_some, strip_append]
  rw [field (by decide) (by omega)]
  simp only [Option.bind_some, strip_append]
  rw [field (by decide) (by omega)]
  simp only [Option.bind_some, strip_append]
  rw [field (by decide) (by omega)]
  simp only [Option.bind_some, Option.some.injEq]
  have number : ((civilYear (shifted time / 86400000) : Int) - DATE_ERA_YEARS + DATE_ERA_YEARS).toNat =
      civilYear (shifted time / 86400000) := by omega
  rw [number, civilNumber_civil]
  omega

/-- The text that a valid date writes is that date again, whatever the engine reads. -/
theorem ofText_toISOString {engine : JsText → Option JsDate} (date : JsDate) :
    ofText engine (toISOString date) = some date := by
  obtain ⟨time, valid⟩ := date
  unfold ofText
  rw [toISOString, readIso_isoString valid]
  simp only [dif_pos valid, toISOString, if_true]

/-- The civil dates repeat after each era. -/
theorem civil_eras {day eras : Nat} : civilYear (day + eras * 146097) = civilYear day + eras * 400 ∧
    civilMonth (day + eras * 146097) = civilMonth day ∧
      civilDayOfMonth (day + eras * 146097) = civilDayOfMonth day := by
  have inEra : (day + eras * 146097) % 146097 = day % 146097 := Nat.add_mul_mod_self_right day eras 146097
  have era : (day + eras * 146097) / 146097 = day / 146097 + eras := Nat.add_mul_div_right day eras (by decide)
  have yearOfEra : civilYearOfEra (day + eras * 146097) = civilYearOfEra day := by
    unfold civilYearOfEra
    rw [inEra]
  have dayOfYear : civilDayOfYear (day + eras * 146097) = civilDayOfYear day := by
    unfold civilDayOfYear
    rw [inEra, yearOfEra]
  have shifted : civilShifted (day + eras * 146097) = civilShifted day := by
    unfold civilShifted
    rw [dayOfYear]
  have month : civilMonth (day + eras * 146097) = civilMonth day := by
    unfold civilMonth
    rw [shifted]
  refine ⟨?_, month, ?_⟩
  · unfold civilYear
    rw [yearOfEra, era, month]
    omega
  · unfold civilDayOfMonth
    rw [dayOfYear, shifted]

theorem shifted_ofNat {ms : Nat} : shifted ms = ms + 86400000 * DATE_ERA_DAYS := by
  unfold shifted
  omega

theorem shifted_day {ms : Nat} : shifted ms / 86400000 = civilDay ms + 700 * 146097 := by
  have split := @Nat.add_mul_div_left ms DATE_ERA_DAYS 86400000 (by decide)
  rw [shifted_ofNat, split]
  unfold civilDay DATE_ERA_DAYS
  omega

theorem shifted_year {ms : Nat} :
    (civilYear (shifted ms / 86400000) : Int) - DATE_ERA_YEARS = civilYear (civilDay ms) := by
  rw [shifted_day, (@civil_eras (civilDay ms) 700).1]
  unfold DATE_ERA_YEARS
  omega

theorem isoYear_ofNat {year : Nat} :
    isoYear year = if year ≤ 9999 then isoField 4 year else "+" ++ isoField 6 year := by
  unfold isoYear
  by_cases plain : year ≤ 9999
  · rw [if_pos ⟨by omega, by omega⟩, if_pos plain, Int.toNat_natCast]
  · rw [if_neg (by omega), if_neg plain, if_neg (by omega), Int.natAbs_natCast]

/-- From 1970 on this is the text that the cells write. -/
theorem isoString_ofNat {ms : Nat} : isoString ms = CelldWorld.toISOString ms := by
  have month : civilMonth (shifted ms / 86400000) = civilMonth (civilDay ms) := by
    rw [shifted_day, (@civil_eras (civilDay ms) 700).2.1]
  have dayOfMonth : civilDayOfMonth (shifted ms / 86400000) = civilDayOfMonth (civilDay ms) := by
    rw [shifted_day, (@civil_eras (civilDay ms) 700).2.2]
  have inDay : shifted ms % 86400000 = ms % 86400000 := by rw [shifted_ofNat, Nat.add_mul_mod_self_left]
  rw [toISOString_parts]
  simp only [isoString, shifted_year, month, dayOfMonth, inDay, isoYear_ofNat, isoText, isoTime,
    String.append_assoc]

end JsDate

end CelldWorld
