import Mathlib.Data.Nat.Digits.Defs
import Mathlib.Tactic.IntervalCases
import ChainPoll.Record.Timestamp

/-!
# Times on the calendar

Whatever is read as a time is on the calendar: its month has its day, its year has four digits, and
its offset is less than a day.  The text of such a time is read as just that time, so that times
which were read once, from texts in any notation or from numbers, are in normal form.

Main results:

- Theorem {lit}`Timestamp.dateOfDay_onCalendar`: the date of any day is on the calendar.
- Theorem {lit}`Timestamp.onCalendar_of_ofJson`: so is whatever is read as a time.
- Theorem {lit}`Timestamp.ofText_text`: the text of a time on the calendar is read as that time.
-/

namespace ChainPoll
namespace Record

open Text

namespace Timestamp

/-- Whether a time is on the calendar, and its offset less than a day. -/
structure OnCalendar (t : Timestamp) : Prop where
  year : 1 ≤ t.year ∧ t.year ≤ 9999
  month : 1 ≤ t.month ∧ t.month ≤ 12
  day : 1 ≤ t.day ∧ t.day ≤ daysIn t.year t.month
  hour : t.hour < 24
  minute : t.minute < 60
  second : t.second < 60
  micro : t.micro < 1000000
  offset : ∀ minutes, t.offset = some minutes → minutes.natAbs < 1440

/-! ## The date of a day -/

/-- The days of an era before one of its years; years begin in March, and an era has 400 of them. -/
def daysBefore (year : Nat) : Nat :=
  365 * year + year / 4 - year / 100

/-- Leap years come again after 400 years. -/
theorem isLeap_add_mul (year era : Nat) : isLeap (year + 400 * era) = isLeap year := by
  have hfour : (year + 400 * era) % 4 = year % 4 := by omega
  have hcentury : (year + 400 * era) % 100 = year % 100 := by omega
  have hera : (year + 400 * era) % 400 = year % 400 := by omega
  simp only [isLeap, hfour, hcentury, hera]

/--
The year of an era in which one of its days lies has that day.  It ends with February, so that it
has a day more if the year after it is a leap year.
-/
theorem yearOfEra_spec {d y : Nat} (hd : d < 146097)
    (hy : y = (d - d / 1460 + d / 36524 - d / 146096) / 365) :
    y < 400 ∧ d - daysBefore y ≤ 365 ∧ (isLeap (y + 1) = false → d - daysBefore y ≤ 364) := by
  obtain rfl | hlast : d = 146096 ∨ d < 146096 := by omega
  · subst hy
    decide
  -- All days but the last are in the century that their number says.
  have hyear : y = (d - d / 1460 + d / 36524) / 365 := by omega
  have hcentury : y / 100 = d / 36524 := by
    obtain h | h | h | h : d / 36524 = 0 ∨ d / 36524 = 1 ∨ d / 36524 = 2 ∨ d / 36524 = 3 := by omega
    all_goals rw [h] at hyear ⊢; omega
  clear hy
  generalize hc : d / 36524 = c at hyear hcentury
  simp only [daysBefore, hcentury]
  refine ⟨by omega, by omega, ?_⟩
  intro hcommon
  simp only [isLeap, Bool.and_eq_false_iff, Bool.or_eq_false_iff, beq_eq_false_iff_ne,
    bne_eq_false_iff_eq] at hcommon
  rcases hcommon with hfour | ⟨hhundred, hera⟩
  · have hquad : d / 1460 ≤ y / 4 := by
      obtain h | h | h : y % 4 = 0 ∨ y % 4 = 1 ∨ y % 4 = 2 := by omega
      all_goals omega
    omega
  · obtain h | h | h | h : c = 0 ∨ c = 1 ∨ c = 2 ∨ c = 3 := by omega
    all_goals subst h; omega

/-- A day of a year that begins in March is in a month that has it. -/
theorem le_daysIn_monthOfYear {n m year : Nat} (hn : n ≤ 365) (hm : m = (5 * n + 2) / 153)
    (hleap : 10 ≤ m → isLeap year = false → n ≤ 364) :
    n - (153 * m + 2) / 5 + 1 ≤ daysIn year (if m < 10 then m + 3 else m - 9) := by
  have hle : m ≤ 11 := by omega
  cases hcommon : isLeap year with
  | true =>
      clear hleap
      interval_cases m <;> simp only [daysIn, hcommon] <;> simp <;> omega
  | false =>
      have hshort := fun h => hleap h hcommon
      clear hleap
      interval_cases m <;> simp only [daysIn, hcommon] <;> simp <;> omega

/-- The date of any day is on the calendar. -/
theorem dateOfDay_onCalendar {day year : Int} {month dayOfMonth : Nat}
    (h : dateOfDay day = (year, month, dayOfMonth)) :
    (1 ≤ month ∧ month ≤ 12) ∧ 1 ≤ dayOfMonth ∧
      (1 ≤ year → dayOfMonth ≤ daysIn year.toNat month) := by
  simp only [dateOfDay, Int.fdiv_eq_ediv_of_nonneg _ (show (0 : Int) ≤ 146097 by decide),
    Prod.mk.injEq] at h
  generalize hera : (day + 719468) / 146097 = era at h
  generalize hd : (day + 719468 - era * 146097).toNat = d at h
  have hlt : d < 146097 := by omega
  generalize hy : (d - d / 1460 + d / 36524 - d / 146096) / 365 = y at h
  obtain ⟨hera', hlong, hcommon⟩ := yearOfEra_spec hlt hy.symm
  have hbefore : d - (365 * y + y / 4 - y / 100) = d - daysBefore y := rfl
  rw [hbefore] at h
  generalize hn : d - daysBefore y = n at h hlong hcommon
  generalize hm : (5 * n + 2) / 153 = m at h
  obtain ⟨hyear, hmonth, hday⟩ := h
  rw [hmonth] at hyear
  -- From January on the year is the one after the year that begins in March.
  have hleap : 1 ≤ year → 10 ≤ m → isLeap year.toNat = false → n ≤ 364 := by
    intro hpos hwinter hshort
    refine hcommon ?_
    rw [if_neg (by omega)] at hmonth
    rw [if_pos (by omega)] at hyear
    have hnat : year.toNat = y + 1 + 400 * era.toNat := by omega
    rwa [hnat, isLeap_add_mul] at hshort
  refine ⟨?_, by omega, ?_⟩
  · split at hmonth <;> omega
  · intro hpos
    have hdays := le_daysIn_monthOfYear hlong hm.symm (hleap hpos)
    rwa [hmonth, hday] at hdays

/-! ## What is read is on the calendar -/

/-- A run of digits has a value with no more digits. -/
theorem ofDigitChars_lt {cs : List Char} (h : ∀ c ∈ cs, c.isDigit = true) (init : Nat) :
    Nat.ofDigitChars 10 cs init < (init + 1) * 10 ^ cs.length := by
  induction cs generalizing init with
  | nil => simp [Nat.ofDigitChars]
  | cons c cs ih =>
      have hdigit : c.toNat - '0'.toNat ≤ 9 := by
        have hc := h c (by simp)
        simp only [Char.isDigit, Bool.and_eq_true, decide_eq_true_eq, UInt32.le_iff_toNat_le] at hc
        have hval : c.val.toNat = c.toNat := rfl
        simp at hc ⊢
        omega
      rw [Nat.ofDigitChars_cons, List.length_cons, Nat.pow_succ']
      refine (ih (fun d hd => h d (by simp [hd])) _).trans_le ?_
      rw [← Nat.mul_assoc]
      exact Nat.mul_le_mul_right _ (by omega)

/-- A number that is read has no more digits than are read. -/
theorem lt_of_ofDigits? {cs : List Char} {n : Nat} (h : ofDigits? cs = some n) :
    n < 10 ^ cs.length := by
  unfold ofDigits? at h
  split at h
  · next hall =>
    have hdigits : ∀ c ∈ cs, c.isDigit = true := by simpa [List.all_eq_true] using hall.2
    have hlt := ofDigitChars_lt hdigits 0
    rw [Option.some.injEq] at h
    rw [← h]
    simpa using hlt
  · simp at h

/-- A number of so many digits. -/
theorem lt_of_takeDigits? {width n : Nat} {cs rest : List Char}
    (h : takeDigits? width cs = some (n, rest)) : n < 10 ^ width := by
  unfold takeDigits? at h
  split at h
  · next hlength =>
    obtain ⟨k, hk, heq⟩ := Option.map_eq_some_iff.mp h
    have hlt := lt_of_ofDigits? hk
    rw [hlength] at hlt
    rwa [(Prod.mk.inj heq).1] at hlt
  · simp at h

/-- A fraction of a second is less than a second. -/
theorem lt_of_takeFraction? {cs rest : List Char} {micro : Nat}
    (h : takeFraction? cs = some (micro, rest)) : micro < 1000000 := by
  unfold takeFraction? at h
  split at h
  · split at h
    · simp only at h
      split at h
      · simp at h
      · obtain ⟨k, hk, heq⟩ := Option.map_eq_some_iff.mp h
        have hlt := lt_of_ofDigits? hk
        rw [← (Prod.mk.inj heq).1]
        simpa [List.length_take] using hlt
    · simp only [Option.some.injEq, Prod.mk.injEq] at h
      omega
  · simp only [Option.some.injEq, Prod.mk.injEq] at h
    omega

/-- The seconds that are read, and their fraction, are less than a minute and a second. -/
theorem lt_of_takeSeconds? {cs rest : List Char} {second micro : Nat}
    (h : takeSeconds? cs = some ((second, micro), rest)) : second < 60 ∧ micro < 1000000 := by
  unfold takeSeconds? at h
  split at h
  · simp only [Option.bind_eq_bind, Option.bind_eq_some_iff, Prod.exists] at h
    obtain ⟨s, cs', -, m, cs'', hmicro, hlast⟩ := h
    split at hlast
    · next hsecond =>
      simp only [Option.some.injEq, Prod.mk.injEq] at hlast
      obtain ⟨⟨rfl, rfl⟩, -⟩ := hlast
      exact ⟨hsecond, lt_of_takeFraction? hmicro⟩
    · simp at hlast
  · simp only [Option.some.injEq, Prod.mk.injEq] at h
    omega

/-- An offset that is read is less than a day. -/
theorem lt_of_offset? {cs : List Char} {minutes : Int} (h : offset? cs = some (some minutes)) :
    minutes.natAbs < 1440 := by
  unfold offset? at h
  split at h
  · simp at h
  · simp only [Option.some.injEq] at h
    omega
  · simp only [Option.some.injEq] at h
    omega
  · split at h
    · simp only [Option.bind_eq_bind, Option.bind_eq_some_iff, Prod.exists] at h
      obtain ⟨hours, cs', -, ms, cs'', -, hlast⟩ := h
      split at hlast
      · next hbounds =>
        simp only [Option.some.injEq] at hlast
        obtain ⟨-, hhours, hminutes⟩ := hbounds
        unfold signed at hlast
        split at hlast <;> omega
      · simp at hlast
    · simp at h

/-- A date that is read has a year of four digits, and its month has its day. -/
theorem spec_of_takeDate? {cs rest : List Char} {year month day : Nat}
    (h : takeDate? cs = some ((year, month, day), rest)) :
    year ≤ 9999 ∧ (1 ≤ month ∧ month ≤ 12) ∧ 1 ≤ day ∧ day ≤ daysIn year month := by
  simp only [takeDate?, Option.bind_eq_bind, Option.bind_eq_some_iff, Prod.exists] at h
  obtain ⟨y, cs₁, hyear, cs₂, -, m, cs₃, -, cs₄, -, d, cs₅, -, hlast⟩ := h
  split at hlast
  · next hbounds =>
    simp only [Option.some.injEq, Prod.mk.injEq] at hlast
    obtain ⟨⟨rfl, rfl, rfl⟩, -⟩ := hlast
    have hlt := lt_of_takeDigits? hyear
    exact ⟨by omega, ⟨hbounds.1, hbounds.2.1⟩, hbounds.2.2⟩
  · simp at hlast

/-- A time that is read from a calendar text is on the calendar, unless its year is zero. -/
theorem onCalendar_of_ofCalendar? {cs : List Char} {t : Timestamp} (h : ofCalendar? cs = some t)
    (hyear : t.year ≠ 0) : t.OnCalendar := by
  simp only [ofCalendar?, Option.bind_eq_bind, Option.bind_eq_some_iff, Prod.exists] at h
  obtain ⟨year, month, day, cs₁, hdate, h⟩ := h
  obtain ⟨hfour, hmonth, hday⟩ := spec_of_takeDate? hdate
  split at h
  · simp only [Option.pure_def, Option.some.injEq] at h
    subst h
    exact ⟨⟨Nat.pos_of_ne_zero hyear, hfour⟩, hmonth, hday, by simp, by simp, by simp, by simp,
      by simp⟩
  · simp only [Option.bind_eq_some_iff, Prod.exists] at h
    obtain ⟨cs₂, -, hour, cs₃, -, cs₄, -, minute, cs₅, -, second, micro, cs₆, hseconds, offset,
      hoffset, hlast⟩ := h
    split at hlast
    · next hbounds =>
      simp only [Option.pure_def, Option.some.injEq] at hlast
      subst hlast
      obtain ⟨hsecond, hmicro⟩ := lt_of_takeSeconds? hseconds
      refine ⟨⟨Nat.pos_of_ne_zero hyear, hfour⟩, hmonth, hday, hbounds.1, hbounds.2, hsecond,
        hmicro, ?_⟩
      rintro minutes rfl
      exact lt_of_offset? hoffset
    · simp at hlast

/-- A time that a number stands for is on the calendar. -/
theorem onCalendar_of_ofMicros {micros : Int} {t : Timestamp} (h : ofMicros micros = .time t) :
    t.OnCalendar := by
  have hrest : (micros.fmod 86400000000).toNat < 86400000000 := by
    rw [Int.fmod_eq_emod_of_nonneg _ (by decide)]
    omega
  obtain ⟨⟨year, month, day⟩, hdate⟩ : ∃ date, dateOfDay (micros.fdiv 86400000000) = date :=
    ⟨_, rfl⟩
  obtain ⟨hmonth, hday, hdays⟩ := dateOfDay_onCalendar hdate
  simp only [ofMicros, hdate] at h
  generalize (micros.fmod 86400000000).toNat = rest at h hrest
  split at h
  · simp at h
  · split at h
    · next hyear =>
      rw [Moment.time.injEq] at h
      subst h
      refine ⟨⟨?_, ?_⟩, hmonth, ⟨hday, hdays hyear.1⟩, ?_, ?_, ?_, ?_, ?_⟩
      all_goals simp only [Option.some.injEq]
      all_goals omega
    · simp at h

/-- Whatever is read as a time is on the calendar. -/
theorem onCalendar_of_ofJson {v : Json} {t : Timestamp} (h : ofJson v = .ok t) : t.OnCalendar := by
  have hnumber : ∀ micros, ofNumber micros = .ok t → t.OnCalendar := by
    intro micros hmicros
    unfold ofNumber at hmicros
    split at hmicros
    · next u hu =>
      rw [Except.ok.injEq] at hmicros
      exact hmicros ▸ onCalendar_of_ofMicros hu
    · simp at hmicros
  unfold ofJson at h
  split at h
  · next s =>
    unfold ofText at h
    split at h
    · next u hu =>
      split at h
      · simp at h
      · next hyear =>
        rw [Except.ok.injEq] at h
        exact h ▸ onCalendar_of_ofCalendar? hu hyear
    · split at h
      · next u hu =>
        obtain ⟨micros, -, hmicros⟩ := Option.map_eq_some_iff.mp hu
        rw [Except.ok.injEq] at h
        exact h ▸ onCalendar_of_ofMicros hmicros
      · simp at h
      · simp at h
  · split at h
    · exact hnumber _ h
    · simp at h
  · split at h
    · exact hnumber _ h
    · simp at h
  · simp at h

/-! ## The text of a time -/

/-- A number that is written in its width is read back. -/
theorem takeDigits?_of_lt {width n : Nat} (hwidth : 0 < width) (h : n < 10 ^ width)
    (rest : List Char) : takeDigits? width (padded width n ++ rest) = some (n, rest) :=
  takeDigits?_padded ((Nat.length_toDigits_le_iff (by decide) hwidth).mpr h) rest

/-- The characters of a number in a width are digits. -/
theorem isDigit_of_mem_padded {width n : Nat} {c : Char} (h : c ∈ padded width n) :
    c.isDigit = true := by
  rcases List.mem_append.mp h with h | h
  · rw [List.eq_of_mem_replicate h]
    decide
  · exact isDigit_of_mem_digits h

/-- A date that is written is read back. -/
theorem takeDate?_padded {year month day : Nat} (hyear : year ≤ 9999)
    (hmonth : 1 ≤ month ∧ month ≤ 12) (hday : 1 ≤ day ∧ day ≤ daysIn year month)
    (rest : List Char) :
    takeDate? (padded 4 year ++ ('-' :: (padded 2 month ++ ('-' :: (padded 2 day ++ rest))))) =
      some ((year, month, day), rest) := by
  have hlong : daysIn year month ≤ 31 := by
    unfold daysIn
    split
    · split <;> decide
    · split <;> decide
  rw [takeDate?, takeDigits?_of_lt (by decide) (by omega)]
  simp only [dropOne?, List.mem_singleton, if_true, Option.bind_eq_bind, Option.bind_some]
  rw [takeDigits?_of_lt (by decide) (by omega)]
  simp only [if_true, Option.bind_some]
  rw [takeDigits?_of_lt (by decide) (by omega)]
  simp only [Option.bind_some]
  rw [if_pos ⟨hmonth.1, hmonth.2, hday⟩]

/-- An offset that is written, if there is one. -/
def writtenOffset : Option Int → List Char
  | none => []
  | some minutes => offsetText minutes

/-- Microseconds that are written, if there are any. -/
def writtenMicro (micro : Nat) : List Char :=
  if micro = 0 then [] else '.' :: padded 6 micro

/-- No offset begins with a digit, or with the mark of a fraction. -/
theorem head_writtenOffset {offset : Option Int} {c : Char} (h : c ∈ (writtenOffset offset).head?) :
    c = '-' ∨ c = '+' := by
  cases offset with
  | none => simp [writtenOffset] at h
  | some minutes =>
      simp only [writtenOffset, offsetText, List.head?_cons, Option.mem_def, Option.some.injEq] at h
      split at h
      · exact .inl h.symm
      · exact .inr h.symm

/-- Microseconds that are written are read back. -/
theorem takeFraction?_written {micro : Nat} (hmicro : micro < 1000000) (offset : Option Int) :
    takeFraction? (writtenMicro micro ++ writtenOffset offset) =
      some (micro, writtenOffset offset) := by
  unfold writtenMicro
  split
  · next hzero =>
    subst hzero
    rw [List.nil_append]
    cases hwritten : writtenOffset offset with
    | nil => rfl
    | cons c rest =>
        have hc : c = '-' ∨ c = '+' := head_writtenOffset (by rw [hwritten]; rfl)
        have hmark : ¬ (c = '.' ∨ c = ',') := by rcases hc with rfl | rfl <;> decide
        simp [takeFraction?, hmark]
  · have hlength : (padded 6 micro).length = 6 :=
      length_padded ((Nat.length_toDigits_le_iff (by decide) (by decide)).mpr hmicro)
    have hstop : (writtenOffset offset).takeWhile Char.isDigit = [] ∧
        (writtenOffset offset).dropWhile Char.isDigit = writtenOffset offset := by
      cases hwritten : writtenOffset offset with
      | nil => exact ⟨rfl, rfl⟩
      | cons c rest =>
          have hc : c = '-' ∨ c = '+' := head_writtenOffset (by rw [hwritten]; rfl)
          rcases hc with rfl | rfl <;> exact ⟨rfl, rfl⟩
    have hdigits : ∀ c ∈ padded 6 micro, c.isDigit = true := fun _ => isDigit_of_mem_padded
    have hsix : padded 6 micro ≠ [] := List.ne_nil_of_length_pos (by omega)
    simp only [List.cons_append, takeFraction?, List.takeWhile_append_of_pos hdigits,
      List.dropWhile_append_of_pos hdigits, hstop.1, hstop.2, List.append_nil, true_or, if_true,
      hsix, if_false, List.take_left' hlength, ofDigits?_padded, Option.map_some]

/-- Seconds that are written are read back. -/
theorem takeSeconds?_written {second micro : Nat} (hsecond : second < 60) (hmicro : micro < 1000000)
    (offset : Option Int) :
    takeSeconds? (':' :: (padded 2 second ++ (writtenMicro micro ++ writtenOffset offset))) =
      some ((second, micro), writtenOffset offset) := by
  simp only [takeSeconds?]
  rw [takeDigits?_of_lt (by decide) (by omega)]
  simp only [Option.bind_eq_bind, Option.bind_some, takeFraction?_written hmicro, hsecond, if_true]

/-- Hours and minutes after a sign are read back as an offset. -/
theorem offset?_signed {sign : Char} (hsign : sign = '+' ∨ sign = '-') {n : Nat} (h : n < 1440) :
    offset? (sign :: (padded 2 (n / 60) ++ ':' :: padded 2 (n % 60))) =
      some (some (signed (sign ≠ '+') n)) := by
  have hminutes : takeDigits? 2 (padded 2 (n % 60)) = some (n % 60, []) := by
    have hlt : n % 60 < 10 ^ 2 := by omega
    have hrest := takeDigits?_of_lt two_pos hlt []
    rwa [List.append_nil] at hrest
  have hmark : sign = '+' ∨ sign = '-' ∨ sign = '\u2212' := hsign.imp_right .inl
  have hletter : sign ≠ 'Z' ∧ sign ≠ 'z' := by rcases hsign with rfl | rfl <;> decide
  rw [offset?, if_pos hmark, takeDigits?_of_lt (by decide) (by omega)]
  · simp only [Option.bind_eq_bind, Option.bind_some, dropOne?, List.mem_singleton, if_true,
      Option.getD_some, hminutes, Nat.div_add_mod]
    rw [if_pos ⟨trivial, by omega, by omega⟩]
  · simp [hletter.1]
  · simp [hletter.2]

/-- The sign and the size of an integer make it up. -/
theorem signed_natAbs {negative : Bool} {n : Int} (h : negative = true ↔ n < 0) :
    signed negative n.natAbs = n := by
  unfold signed
  split
  · next hneg =>
    have := h.mp hneg
    omega
  · next hpos =>
    have := mt h.mpr hpos
    omega

/-- An offset that is written is read back. -/
theorem offset?_written {offset : Option Int}
    (h : ∀ minutes, offset = some minutes → minutes.natAbs < 1440) :
    offset? (writtenOffset offset) = some offset := by
  cases offset with
  | none => rfl
  | some minutes =>
      have hbound := h minutes rfl
      simp only [writtenOffset, offsetText]
      split
      · next hneg => rw [offset?_signed (.inr rfl) hbound, signed_natAbs (by simpa using hneg)]
      · next hpos => rw [offset?_signed (.inl rfl) hbound, signed_natAbs (by simpa using hpos)]

/-- The text of a time on the calendar is read as a calendar text. -/
theorem ofCalendar?_text {t : Timestamp} (h : t.OnCalendar) :
    ofCalendar? t.text.toList = some t := by
  have htext : t.text.toList =
      padded 4 t.year ++ ('-' :: (padded 2 t.month ++ ('-' :: (padded 2 t.day ++
        ('T' :: (padded 2 t.hour ++ (':' :: (padded 2 t.minute ++ (':' :: (padded 2 t.second ++
          (writtenMicro t.micro ++ writtenOffset t.offset))))))))))) := by
    simp only [text, String.toList_ofList, List.append_assoc, List.cons_append]
    rfl
  have hhour := h.hour
  have hminute := h.minute
  rw [htext, ofCalendar?, takeDate?_padded h.year.2 h.month h.day]
  simp only [Option.bind_eq_bind, Option.bind_some, reduceCtorEq, if_false, dropOne?, List.mem_cons,
    true_or, if_true]
  rw [takeDigits?_of_lt (by decide) (by omega)]
  simp only [Option.bind_some, true_or, if_true]
  rw [takeDigits?_of_lt (by decide) (by omega)]
  simp only [Option.bind_some, takeSeconds?_written h.second h.micro, offset?_written h.offset,
    hhour, hminute, and_self, if_true]
  rfl

/-- The text of a time on the calendar is read as that time. -/
theorem ofText_text {t : Timestamp} (h : t.OnCalendar) : ofText t.text = .ok t := by
  have hyear : t.year ≠ 0 := by
    have := h.year
    omega
  rw [ofText, ofCalendar?_text h]
  simp only [hyear, if_false]

/-- The text of a time on the calendar is read from JSON as that time. -/
theorem ofJson_text {t : Timestamp} (h : t.OnCalendar) : ofJson (.text t.text) = .ok t := by
  rw [ofJson, ofText_text h]

end Timestamp
end Record
end ChainPoll
