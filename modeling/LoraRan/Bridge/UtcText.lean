import Mathlib.Data.List.Basic
import LoraRan.Library.Calendar
import LoraRan.Library.DecimalText

namespace LoraRan.Bridge.UtcText
open Library.Calendar Library.DecimalText

-- What an operation of the type computes, and nothing where the type cannot hold it. For `unsigned` C++ would
-- wrap there, for `int64_t` it leaves the result undefined.
def i64 (x : Int) : Option Int := if -9223372036854775808 ≤ x ∧ x < 9223372036854775808 then some x else none

def u32 (x : Int) : Option Int := if 0 ≤ x ∧ x < 4294967296 then some x else none

-- The numerator of both divisions that must round down: moved by one less than the divisor below zero.
def numerator (z less : Int) : Option Int := if 0 ≤ z then some z else i64 (z - less)

def eraOf (z : Int) : Option Int := do
  let low ← numerator z 146096
  pure (low.tdiv 146097)

def doeOf (z era : Int) : Option Int := do
  let days ← i64 (era * 146097)
  let offset ← i64 (z - days)
  u32 offset

def yoeOf (doe : Int) : Option Int := do
  let fourths ← u32 (doe - doe / 1460)
  let hundreds ← u32 (fourths + doe / 36524)
  let counted ← u32 (hundreds - doe / 146096)
  pure (counted / 365)

def doyOf (doe yoe : Int) : Option Int := do
  let plain ← u32 (365 * yoe)
  let fourths ← u32 (plain + yoe / 4)
  let before ← u32 (fourths - yoe / 100)
  u32 (doe - before)

def mpOf (doy : Int) : Option Int := do
  let fives ← u32 (5 * doy)
  let scaled ← u32 (fives + 2)
  pure (scaled / 153)

def dayOf (doy mp : Int) : Option Int := do
  let scaled ← u32 (153 * mp)
  let rounded ← u32 (scaled + 2)
  let day ← u32 (doy - rounded / 5)
  u32 (day + 1)

def monthOf (mp : Int) : Option Int := if mp < 10 then u32 (mp + 3) else u32 (mp - 9)

def yearOf (era yoe m : Int) : Option Int := do
  let eras ← i64 (era * 400)
  let year ← i64 (yoe + eras)
  i64 (year + if m ≤ 2 then 1 else 0)

def civilFromDays (z : Int) : Option (Int × Int × Int) := do
  let z ← i64 (z + 719468)
  let era ← eraOf z
  let doe ← doeOf z era
  let yoe ← yoeOf doe
  let doy ← doyOf doe yoe
  let mp ← mpOf doy
  let d ← dayOf doy mp
  let m ← monthOf mp
  let y ← yearOf era yoe m
  pure (y,m,d)

-- `%0*lld`: a minus counts in the width.
def signedPadded (width : Nat) (n : Int) : List UInt8 :=
  if n < 0 then 0x2D :: padded (width - 1) n.natAbs else padded width n.natAbs

def utcText (y m d sod : Int) : Option (List UInt8) := do
  let hour ← u32 (sod.tdiv 3600)
  let minute ← u32 ((sod.tdiv 60).tmod 60)
  let second ← u32 (sod.tmod 60)
  pure (signedPadded 4 y ++ 0x2D :: padded 2 m.toNat ++ 0x2D :: padded 2 d.toNat ++
    0x54 :: padded 2 hour.toNat ++ 0x3A :: padded 2 minute.toNat ++ 0x3A :: padded 2 second.toNat ++ [0x5A])

-- The text left in the buffer, whose length the source returns. A null buffer is one of no room.
def formatUtc (t : Int64) (cap : Nat) : Option (List UInt8) :=
  if cap = 0 then some [] else do
    let low ← numerator t.toInt 86399
    let days := low.tdiv 86400
    let used ← i64 (days * 86400)
    let sod ← i64 (t.toInt - used)
    let (y,m,d) ← civilFromDays days
    let text ← utcText y m d sod
    pure (if cap ≤ text.length then [] else text)

example : formatUtc 951782400 24 = some "2000-02-29T00:00:00Z".toUTF8.toList := by decide +kernel

-- The same text read strictly by position: the date, and the seconds into its day.
def utcReading (text : List UInt8) : Option (Date × Nat) := do
  guard (text.length = 20 ∧ text[4]? = some 0x2D ∧ text[7]? = some 0x2D ∧ text[10]? = some 0x54 ∧ text[13]? = some 0x3A ∧
    text[16]? = some 0x3A ∧ text[19]? = some 0x5A)
  let year ← decimalValue (text.take 4)
  let month ← decimalValue ((text.drop 5).take 2)
  let day ← decimalValue ((text.drop 8).take 2)
  let hour ← decimalValue ((text.drop 11).take 2)
  let minute ← decimalValue ((text.drop 14).take 2)
  let second ← decimalValue ((text.drop 17).take 2)
  guard (hour < 24 ∧ minute < 60 ∧ second < 60)
  pure (⟨year,month,day⟩,hour * 3600 + minute * 60 + second)

theorem i64_held (x : Int) (low : -9223372036854775808 ≤ x) (high : x < 9223372036854775808) : i64 x = some x :=
  if_pos ⟨low,high⟩

theorem u32_held (x : Int) (low : 0 ≤ x) (high : x < 4294967296) : u32 x = some x := if_pos ⟨low,high⟩

theorem i64_then {α : Type} (x : Int) (rest : Int → Option α) (low : -9223372036854775808 ≤ x) (high : x < 9223372036854775808) :
    (i64 x >>= rest) = rest x := by
  rw [i64_held x low high]
  rfl

theorem u32_then {α : Type} (x : Int) (rest : Int → Option α) (low : 0 ≤ x) (high : x < 4294967296) : (u32 x >>= rest) = rest x := by
  rw [u32_held x low high]
  rfl

-- The moved numerator makes the quotient towards zero the floor.
theorem numerator_floors (z k : Int) (positive : 0 < k) (low : -9223372036854775808 + k ≤ z) :
    ∃ n, numerator z (k - 1) = some n ∧ n.tdiv k = z / k := by
  unfold numerator
  split
  case isTrue up => exact ⟨z,rfl,Int.tdiv_eq_ediv_of_nonneg up⟩
  case isFalse down =>
    refine ⟨z - (k - 1),i64_held _ (by omega) (by omega),?_⟩
    have least := Int.emod_nonneg z (Int.ne_of_gt positive)
    have most := Int.emod_lt_of_pos z positive
    have whole := Int.mul_ediv_add_emod z k
    have rebuilt : k - 1 - z % k + k * -(z / k) = -(z - (k - 1)) := by
      rw [Int.mul_neg]
      omega
    have quotient : -(z - (k - 1)) / k = -(z / k) := ((Int.ediv_emod_unique positive).mpr ⟨rebuilt,by omega,by omega⟩).1
    rw [← Int.neg_neg (z - (k - 1)),Int.neg_tdiv,Int.tdiv_eq_ediv_of_nonneg (by omega),quotient,Int.neg_neg]

theorem eraOf_floor (z : Int) (low : -1000000000 ≤ z) (high : z ≤ 1000000000) : eraOf z = some (z / 146097) := by
  obtain ⟨n,held,quotient⟩ := numerator_floors z 146097 (by decide) (by omega)
  rw [eraOf,show (146096 : Int) = 146097 - 1 by rfl,held]
  exact congrArg some quotient

theorem doeOf_held (z : Int) (low : -1000000000 ≤ z) (high : z ≤ 1000000000) : doeOf z (z / 146097) = some (z - z / 146097 * 146097) := by
  rw [doeOf,i64_then _ _ (by omega) (by omega),i64_then _ _ (by omega) (by omega),u32_held _ (by omega) (by omega)]

-- The counts the year of an era is read from: whole 1460-day cycles, centuries of 36524 days, and the last day of the era.
structure EraYear (doe yoe : Int) : Prop where
  year : 0 ≤ yoe ∧ yoe ≤ 399
  began : 365 * yoe + yoe / 4 - yoe / 100 ≤ doe
  ends : doe ≤ 365 * yoe + yoe / 4 - yoe / 100 + 365
  -- The 366th day of a year that begins in March is the 29th of February of the next one.
  leap : doe = 365 * yoe + yoe / 4 - yoe / 100 + 365 → (yoe + 1) % 4 = 0 ∧ ((yoe + 1) % 100 ≠ 0 ∨ (yoe + 1) % 400 = 0)

theorem era_year (doe yoe : Int) (low : 0 ≤ doe) (high : doe < 146097)
    (is : yoe = (doe - doe / 1460 + doe / 36524 - doe / 146096) / 365) : EraYear doe yoe := by
  have centuries : 0 ≤ doe / 36524 ∧ doe / 36524 ≤ 4 := by omega
  have cycles : 25 * (doe / 36524) ≤ doe / 1460 ∧ doe / 1460 ≤ 25 * (doe / 36524) + 25 := by omega
  have leaps : yoe / 4 ≤ doe / 1460 := by omega
  have most : doe / 1460 - 1 ≤ yoe / 4 := by omega
  have reached : yoe / 100 ≤ doe / 36524 := by omega
  have near : doe / 36524 - 1 ≤ yoe / 100 := by omega
  have final : doe / 146096 = 0 ∨ doe / 146096 = 1 := by omega
  have counts : doe / 1460 = yoe / 4 ∨ doe / 1460 = yoe / 4 + 1 := by omega
  refine ⟨⟨by omega,by omega⟩,?_,?_,?_⟩
  · by_cases boundary : yoe / 100 < doe / 36524
    · omega
    · omega
  · by_cases boundary : yoe / 100 < doe / 36524
    · omega
    · omega
  · intro last
    have four : 3 ≤ yoe - 4 * (yoe / 4) := by
      rcases final with usual | final
      · rcases counts with same | more
        · omega
        · omega
      · omega
    refine ⟨by omega,?_⟩
    rcases final with usual | final
    · rcases counts with same | more
      · omega
      · omega
    · omega

theorem yoeOf_held (doe : Int) (low : 0 ≤ doe) (high : doe < 146097) : ∃ yoe, yoeOf doe = some yoe ∧ EraYear doe yoe := by
  refine ⟨_,?_,era_year doe _ low high rfl⟩
  rw [yoeOf,u32_then _ _ (by omega) (by omega),u32_then _ _ (by omega) (by omega),u32_then _ _ (by omega) (by omega)]
  rfl

theorem doyOf_held (doe yoe : Int) (right : EraYear doe yoe) : doyOf doe yoe = some (doe - (365 * yoe + yoe / 4 - yoe / 100)) := by
  obtain ⟨⟨first,last⟩,began,ends,_⟩ := right
  rw [doyOf,u32_then _ _ (by omega) (by omega),u32_then _ _ (by omega) (by omega),u32_then _ _ (by omega) (by omega),u32_held _ (by omega) (by omega)]

-- From the day of a year that begins in March to the month and the day in it.
structure MarchMonth (doy mp d : Int) : Prop where
  month : 0 ≤ mp ∧ mp ≤ 11
  back : doy = (153 * mp + 2) / 5 + d - 1
  day : 1 ≤ d ∧ d ≤ 31
  short : mp = 1 ∨ mp = 3 ∨ mp = 6 ∨ mp = 8 → d ≤ 30
  february : mp = 11 → d ≤ 29 ∧ (d = 29 → doy = 365)

theorem month_held (doy : Int) (low : 0 ≤ doy) (high : doy ≤ 365) :
    ∃ mp d, mpOf doy = some mp ∧ dayOf doy mp = some d ∧ MarchMonth doy mp d := by
  obtain ⟨mp,is⟩ : ∃ mp, mp = (5 * doy + 2) / 153 := ⟨_,rfl⟩
  have bound : 0 ≤ mp ∧ mp ≤ 11 := by omega
  refine ⟨mp,doy - (153 * mp + 2) / 5 + 1,?_,?_,bound,by omega,by omega,by omega,by omega⟩
  · rw [mpOf,u32_then _ _ (by omega) (by omega),u32_then _ _ (by omega) (by omega),is]
    rfl
  · rw [dayOf,u32_then _ _ (by omega) (by omega),u32_then _ _ (by omega) (by omega),u32_then _ _ (by omega) (by omega),u32_held _ (by omega) (by omega)]

theorem monthOf_held (mp : Int) (low : 0 ≤ mp) (high : mp ≤ 11) : monthOf mp = some (if mp < 10 then mp + 3 else mp - 9) := by
  unfold monthOf
  split
  · exact u32_held _ (by omega) (by omega)
  · exact u32_held _ (by omega) (by omega)

theorem yearOf_held (era yoe m : Int) (low : -1000000000 ≤ era) (high : era ≤ 1000000000) (first : 0 ≤ yoe) (last : yoe ≤ 399) :
    yearOf era yoe m = some (yoe + era * 400 + if m ≤ 2 then 1 else 0) := by
  rw [yearOf,i64_then _ _ (by omega) (by omega),i64_then _ _ (by omega) (by omega)]
  split
  · exact i64_held _ (by omega) (by omega)
  · exact i64_held _ (by omega) (by omega)

theorem counted_back (days z era doe yoe doy mp y : Int) (month day : Nat) (shifted : z = days + 719468) (inside : doe = z - era * 146097)
    (elapsed : doy = doe - (365 * yoe + yoe / 4 - yoe / 100)) (inEra : 0 ≤ yoe ∧ yoe ≤ 399) (bound : 0 ≤ mp ∧ mp ≤ 11)
    (back : doy = (153 * mp + 2) / 5 + day - 1) (begins : 1 ≤ day) (named : (month : Int) = if mp < 10 then mp + 3 else mp - 9)
    (dated : y = yoe + era * 400 + if (month : Int) ≤ 2 then 1 else 0) : daysFromCivil ⟨y,month,day⟩ = days := by
  have march : marchYear ⟨y,month,day⟩ = yoe + era * 400 := by
    simp only [marchYear]
    split at dated <;> omega
  have counted : (marchMonth month : Int) = mp := by
    simp only [marchMonth]
    split at named <;> split <;> omega
  have eras : (yoe + era * 400) / 400 = era := by omega
  have position : yoe + era * 400 - era * 400 = yoe := by omega
  have back : (((153 * marchMonth month + 2) / 5 + day - 1 : Nat) : Int) = doy := by omega
  simp only [daysFromCivil,march,eras,position,back]
  omega

theorem civilFromDays_right (days : Int) (low : -100000000 ≤ days) (high : days ≤ 100000000) :
    ∃ date : Date, civilFromDays days = some (date.year,(date.month : Int),(date.day : Int)) ∧ date.Valid ∧ daysFromCivil date = days := by
  obtain ⟨z,shifted⟩ : ∃ z, z = days + 719468 := ⟨_,rfl⟩
  obtain ⟨era,floor⟩ : ∃ era, era = z / 146097 := ⟨_,rfl⟩
  obtain ⟨doe,inside⟩ : ∃ doe, doe = z - era * 146097 := ⟨_,rfl⟩
  have eraIs := eraOf_floor z (by omega) (by omega)
  have doeIs := doeOf_held z (by omega) (by omega)
  rw [← floor] at eraIs doeIs
  rw [← inside] at doeIs
  obtain ⟨yoe,yoeIs,right⟩ := yoeOf_held doe (by omega) (by omega)
  have doyIs := doyOf_held doe yoe right
  obtain ⟨⟨first,last⟩,began,ends,leapDay⟩ := right
  obtain ⟨doy,elapsed⟩ : ∃ doy, doy = doe - (365 * yoe + yoe / 4 - yoe / 100) := ⟨_,rfl⟩
  rw [← elapsed] at doyIs
  obtain ⟨mp,d,mpIs,dayIs,month⟩ := month_held doy (by omega) (by omega)
  obtain ⟨⟨earliest,latest⟩,back,⟨begins,longest⟩,short,february⟩ := month
  obtain ⟨m,monthIs⟩ : ∃ m, m = if mp < 10 then mp + 3 else mp - 9 := ⟨_,rfl⟩
  obtain ⟨y,yearIs⟩ : ∃ y, y = yoe + era * 400 + if m ≤ 2 then 1 else 0 := ⟨_,rfl⟩
  have computed : civilFromDays days = some (y,m,d) := by
    rw [civilFromDays,i64_then _ _ (by omega) (by omega),← shifted]
    simp only [eraIs,doeIs,yoeIs,doyIs,mpIs,dayIs,monthOf_held mp earliest latest,yearOf_held era yoe _ (by omega) (by omega) first last,
      Option.bind_eq_bind,Option.bind_some,Option.pure_def,← monthIs,← yearIs]
  obtain ⟨month,monthNat⟩ := Int.eq_ofNat_of_zero_le (show 0 ≤ m by omega)
  obtain ⟨day,dayNat⟩ := Int.eq_ofNat_of_zero_le (show 0 ≤ d by omega)
  refine ⟨⟨y,month,day⟩,?_,⟨?_,?_,?_⟩,?_⟩
  · rw [computed,monthNat,dayNat]
  · show 1 ≤ month ∧ month ≤ 12
    omega
  · show 1 ≤ day
    omega
  · refine le_monthLength y month day (by omega) (by omega) ?_
    intro second
    have ends := february (by omega)
    by_cases last : day = 29
    · exact Or.inr ⟨last,(leap_iff y).mpr (by have := leapDay (by omega); omega)⟩
    · exact Or.inl (by omega)
  · exact counted_back days z era doe yoe doy mp y month day shifted inside elapsed ⟨first,last⟩ ⟨earliest,latest⟩
      (by omega) (by omega) (by rw [← monthIs,monthNat]) (by rw [yearIs,monthNat])

-- The days the source counts are the calendar's own: it begins at 1970-01-01, and the day after a day is the next date.
theorem civilFromDays_epoch : civilFromDays 0 = some (1970,1,1) := by
  obtain ⟨date,computed,valid,number⟩ := civilFromDays_right 0 (by decide) (by decide)
  rw [computed,daysFromCivil_inj date ⟨1970,1,1⟩ valid ⟨by decide,by decide⟩ (number.trans daysFromCivil_epoch.symm)]
  rfl

theorem civilFromDays_next (days : Int) (low : -100000000 ≤ days) (high : days < 100000000) :
    ∃ date : Date, civilFromDays days = some (date.year,(date.month : Int),(date.day : Int)) ∧
      civilFromDays (days + 1) = some (date.next.year,(date.next.month : Int),(date.next.day : Int)) := by
  obtain ⟨date,computed,valid,number⟩ := civilFromDays_right days low (by omega)
  obtain ⟨after,computed',valid',number'⟩ := civilFromDays_right (days + 1) (by omega) (by omega)
  have next : after = date.next := by
    refine daysFromCivil_inj after date.next valid' (next_valid date valid) ?_
    rw [number',daysFromCivil_next date valid,number]
  refine ⟨date,computed,?_⟩
  rw [computed',next]

theorem fields_read (year month day hour minute second : List UInt8) (y m d h n s : Nat)
    (wide : year.length = 4 ∧ month.length = 2 ∧ day.length = 2 ∧ hour.length = 2 ∧ minute.length = 2 ∧ second.length = 2)
    (yearIs : decimalValue year = some y) (monthIs : decimalValue month = some m) (dayIs : decimalValue day = some d)
    (hourIs : decimalValue hour = some h) (minuteIs : decimalValue minute = some n) (secondIs : decimalValue second = some s)
    (time : h < 24 ∧ n < 60 ∧ s < 60) :
    utcReading (year ++ 0x2D :: month ++ 0x2D :: day ++ 0x54 :: hour ++ 0x3A :: minute ++ 0x3A :: second ++ [0x5A]) =
      some (⟨y,m,d⟩,h * 3600 + n * 60 + s) := by
  obtain ⟨four,two⟩ := wide
  obtain ⟨y1,tail,rfl⟩ := List.exists_cons_of_length_eq_add_one four
  obtain ⟨y2,y3,y4,rfl⟩ := List.length_eq_three.mp (Nat.succ.inj four)
  obtain ⟨m1,m2,rfl⟩ := List.length_eq_two.mp two.1
  obtain ⟨d1,d2,rfl⟩ := List.length_eq_two.mp two.2.1
  obtain ⟨h1,h2,rfl⟩ := List.length_eq_two.mp two.2.2.1
  obtain ⟨n1,n2,rfl⟩ := List.length_eq_two.mp two.2.2.2.1
  obtain ⟨s1,s2,rfl⟩ := List.length_eq_two.mp two.2.2.2.2
  simp only [utcReading,List.cons_append,List.nil_append,List.take_succ_cons,List.take_zero,List.drop_succ_cons,List.drop_zero,
    yearIs,monthIs,dayIs,hourIs,minuteIs,secondIs,Option.bind_eq_bind,Option.bind_some,Option.pure_def]
  rw [guard,if_pos ⟨rfl,rfl,rfl,rfl,rfl,rfl,rfl⟩,guard,if_pos time]
  rfl

theorem reading_length (text : List UInt8) (reading : Date × Nat) (read : utcReading text = some reading) : text.length = 20 := by
  by_contra other
  have stuck : ¬ (text.length = 20 ∧ text[4]? = some 0x2D ∧ text[7]? = some 0x2D ∧ text[10]? = some 0x54 ∧ text[13]? = some 0x3A ∧
      text[16]? = some 0x3A ∧ text[19]? = some 0x5A) := fun holds => other holds.1
  rw [utcReading,guard,if_neg stuck] at read
  cases read

theorem utcText_reads (y m d : Nat) (sod : Int) (year : y < 10000) (month : m < 100) (day : d < 100) (low : 0 ≤ sod) (high : sod < 86400) :
    ∃ text, utcText y m d sod = some text ∧ utcReading text = some (⟨y,m,d⟩,sod.toNat) := by
  have hour := Int.tdiv_eq_ediv_of_nonneg (b := 3600) low
  have minute := Int.tdiv_eq_ediv_of_nonneg (b := 60) low
  have inHour : (sod / 60).tmod 60 = sod / 60 % 60 := Int.tmod_eq_emod_of_nonneg (by omega)
  have second : sod.tmod 60 = sod % 60 := Int.tmod_eq_emod_of_nonneg low
  have wide := fun n fits => padded_length 2 n (by decide) fits
  have read := fields_read (padded 4 y) (padded 2 m) (padded 2 d) (padded 2 (sod / 3600).toNat) (padded 2 (sod / 60 % 60).toNat)
    (padded 2 (sod % 60).toNat) y m d (sod / 3600).toNat (sod / 60 % 60).toNat (sod % 60).toNat
    ⟨padded_length 4 y (by decide) year,wide m month,wide d day,wide _ (by omega),wide _ (by omega),wide _ (by omega)⟩
    (padded_value ..) (padded_value ..) (padded_value ..) (padded_value ..) (padded_value ..) (padded_value ..)
    ⟨by omega,by omega,by omega⟩
  have total : (sod / 3600).toNat * 3600 + (sod / 60 % 60).toNat * 60 + (sod % 60).toNat = sod.toNat := by omega
  rw [total] at read
  refine ⟨_,?_,read⟩
  rw [utcText,hour,minute,inHour,second,u32_then _ _ (by omega) (by omega),u32_then _ _ (by omega) (by omega),
    u32_then _ _ (by omega) (by omega),signedPadded,if_neg (by omega)]
  rfl

-- The source's text of a time whose year has four digits, at every room it fits in: nothing overflows on the way, and
-- read back it is a day of the calendar and a time of that day that together count to the time.
theorem format_utc_right (t : Int64) (cap : Nat) (begins : daysFromCivil ⟨0,1,1⟩ * 86400 ≤ t.toInt)
    (ends : t.toInt < daysFromCivil ⟨10000,1,1⟩ * 86400) (room : 20 < cap) :
    ∃ text date time, formatUtc t cap = some text ∧ utcReading text = some (date,time) ∧ date.Valid ∧
      0 ≤ date.year ∧ date.year ≤ 9999 ∧ time < 86400 ∧ daysFromCivil date * 86400 + time = t.toInt := by
  have first : daysFromCivil ⟨0,1,1⟩ = -719528 := by decide
  have last : daysFromCivil ⟨10000,1,1⟩ = 2932897 := by decide
  rw [first] at begins
  rw [last] at ends
  obtain ⟨low,lowIs,days⟩ := numerator_floors t.toInt 86400 (by decide) (by omega)
  obtain ⟨date,civil,valid,back⟩ := civilFromDays_right (t.toInt / 86400) (by omega) (by omega)
  have year := year_between date valid 0 10000 (by omega) (by omega)
  obtain ⟨sod,left⟩ : ∃ sod, sod = t.toInt - t.toInt / 86400 * 86400 := ⟨_,rfl⟩
  obtain ⟨y,yearNat⟩ := Int.eq_ofNat_of_zero_le (show 0 ≤ date.year by omega)
  have month := valid.month
  have day := Nat.le_trans valid.day.2 (monthLength_le ..)
  obtain ⟨text,textIs,read⟩ := utcText_reads y date.month date.day sod (by omega) (by omega) (by omega) (by omega) (by omega)
  refine ⟨text,date,sod.toNat,?_,?_,valid,by omega,by omega,by omega,by omega⟩
  · have room : ¬ cap ≤ text.length := by
      rw [reading_length text _ read]
      omega
    rw [formatUtc,if_neg (by omega),show (86399 : Int) = 86400 - 1 by rfl,lowIs]
    simp only [Option.bind_eq_bind,Option.bind_some,days]
    rw [i64_held _ (by omega) (by omega),Option.bind_some,i64_held _ (by omega) (by omega),Option.bind_some,civil,← left,Option.bind_some]
    simp only [yearNat,textIs,Option.bind_some,Option.pure_def,if_neg room]
  · rw [read,← yearNat]

theorem format_utc_before_the_epoch :
    ∃ text date time, formatUtc (-1) 21 = some text ∧ utcReading text = some (date,time) ∧ date.Valid ∧
      0 ≤ date.year ∧ date.year ≤ 9999 ∧ time < 86400 ∧ daysFromCivil date * 86400 + time = (-1 : Int64).toInt :=
  format_utc_right (-1) 21 (by decide) (by decide) (by decide)

end LoraRan.Bridge.UtcText
