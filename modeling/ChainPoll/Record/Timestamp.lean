import ChainPoll.Decimal.Numeral
import ChainPoll.Json.Value
import ChainPoll.Record.Flaw

/-!
# Times in records

A point on the calendar with a time of day to the microsecond and an optional offset from universal
time, its text, and the JSON values that are accepted as one: calendar texts, and numbers of seconds
or milliseconds since the start of 1970, also as texts.

Main results:

- Theorem {lit}`takeDigits?_padded`: a number padded to a width is read back.
-/

namespace ChainPoll
namespace Record

open Text

/-- A calendar date and time of day; `offset` counts minutes east of universal time. -/
structure Timestamp where
  year : Nat
  month : Nat
  day : Nat
  hour : Nat
  minute : Nat
  second : Nat
  micro : Nat
  offset : Option Int
deriving DecidableEq, Repr

namespace Timestamp

/-- The start of 1970, without an offset. -/
def start : Timestamp := ⟨1970, 1, 1, 0, 0, 0, 0, none⟩

/-! ## Writing -/

/-- The text of an offset: sign, hours and minutes. -/
def offsetText (minutes : Int) : List Char :=
  (if minutes < 0 then '-' else '+')
    :: (padded 2 (minutes.natAbs / 60) ++ ':' :: padded 2 (minutes.natAbs % 60))

/-- The calendar text of a time; microseconds and offset are shown only if there are any. -/
def text (t : Timestamp) : String :=
  String.ofList <|
    padded 4 t.year ++ '-' :: padded 2 t.month ++ '-' :: padded 2 t.day ++ 'T' :: padded 2 t.hour
      ++ ':' :: padded 2 t.minute ++ ':' :: padded 2 t.second
      ++ (if t.micro = 0 then [] else '.' :: padded 6 t.micro)
      ++ (match t.offset with | none => [] | some minutes => offsetText minutes)

/-! ## Reading calendar texts -/

/-- Reads a number of exactly `n` digits off the front. -/
def takeDigits? (n : Nat) (cs : List Char) : Option (Nat × List Char) :=
  if (cs.take n).length = n then (ofDigits? (cs.take n)).map (·, cs.drop n) else none

/-- Drops one of the given characters off the front. -/
def dropOne? (allowed : List Char) : List Char → Option (List Char)
  | c :: rest => if c ∈ allowed then some rest else none
  | [] => none

/-- Whether a year has a leap day. -/
def isLeap (year : Nat) : Bool :=
  year % 4 == 0 && (year % 100 != 0 || year % 400 == 0)

/-- The number of days of a month. -/
def daysIn (year month : Nat) : Nat :=
  if month = 2 then (if isLeap year then 29 else 28)
  else if month = 4 ∨ month = 6 ∨ month = 9 ∨ month = 11 then 30
  else 31

/-- Reads a date off the front. -/
def takeDate? (cs : List Char) : Option ((Nat × Nat × Nat) × List Char) := do
  let (year, cs) ← takeDigits? 4 cs
  let (month, cs) ← takeDigits? 2 (← dropOne? ['-'] cs)
  let (day, cs) ← takeDigits? 2 (← dropOne? ['-'] cs)
  if 1 ≤ month ∧ month ≤ 12 ∧ 1 ≤ day ∧ day ≤ daysIn year month then some ((year, month, day), cs)
  else none

/-- Reads a fraction of a second off the front, as microseconds; further digits are dropped. -/
def takeFraction? (cs : List Char) : Option (Nat × List Char) :=
  match cs with
  | c :: rest =>
    if c = '.' ∨ c = ',' then
      let ds := rest.takeWhile Char.isDigit
      let six := (ds ++ List.replicate 6 '0').take 6
      if ds = [] then none
      else (ofDigits? six).map (·, rest.dropWhile Char.isDigit)
    else some (0, cs)
  | [] => some (0, [])

/-- Reads optional seconds with an optional fraction off the front. -/
def takeSeconds? : List Char → Option ((Nat × Nat) × List Char)
  | ':' :: cs => do
    let (second, cs) ← takeDigits? 2 cs
    let (micro, cs) ← takeFraction? cs
    if second < 60 then some ((second, micro), cs) else none
  | cs => some ((0, 0), cs)

/-- Reads the rest of a calendar text as an offset. -/
def offset? : List Char → Option (Option Int)
  | [] => some none
  | ['Z'] => some (some 0)
  | ['z'] => some (some 0)
  | c :: cs =>
    if c = '+' ∨ c = '-' ∨ c = '\u2212' then do
      let (hours, cs) ← takeDigits? 2 cs
      let (minutes, cs) ← takeDigits? 2 ((dropOne? [':'] cs).getD cs)
      if cs = [] ∧ hours < 24 ∧ minutes < 60 then
        some (some (signed (c ≠ '+') (60 * hours + minutes)))
      else none
    else none

/-- Reads a date alone, or a date and a time of day.  The year may be zero. -/
def ofCalendar? (cs : List Char) : Option Timestamp := do
  let ((year, month, day), cs) ← takeDate? cs
  if cs = [] then return ⟨year, month, day, 0, 0, 0, 0, none⟩
  else
    let (hour, cs) ← takeDigits? 2 (← dropOne? ['T', 't', ' ', '_'] cs)
    let (minute, cs) ← takeDigits? 2 (← dropOne? [':'] cs)
    let ((second, micro), cs) ← takeSeconds? cs
    let offset ← offset? cs
    if hour < 24 ∧ minute < 60 then return ⟨year, month, day, hour, minute, second, micro, offset⟩
    else none

/-! ## Reading numbers -/

/-- The date of a day counted from the start of 1970. -/
def dateOfDay (day : Int) : Int × Nat × Nat :=
  let z := day + 719468
  let era := z.fdiv 146097
  let dayOfEra := (z - era * 146097).toNat
  let yearOfEra := (dayOfEra - dayOfEra / 1460 + dayOfEra / 36524 - dayOfEra / 146096) / 365
  let dayOfYear := dayOfEra - (365 * yearOfEra + yearOfEra / 4 - yearOfEra / 100)
  let shifted := (5 * dayOfYear + 2) / 153
  let month := if shifted < 10 then shifted + 3 else shifted - 9
  let year : Int := yearOfEra + era * 400 + (if month ≤ 2 then 1 else 0)
  (year, month, dayOfYear - (153 * shifted + 2) / 5 + 1)

/-- What a number of microseconds since the start of 1970 stands for. -/
inductive Moment where
  | time (t : Timestamp)
  | yearZero
  | outOfRange

/-- The time at a number of microseconds since the start of 1970, in universal time. -/
def ofMicros (micros : Int) : Moment :=
  let perDay : Int := 86400000000
  let (year, month, day) := dateOfDay (micros.fdiv perDay)
  let rest := (micros.fmod perDay).toNat
  let seconds := rest / 1000000
  if year = 0 then .yearZero
  else if 1 ≤ year ∧ year ≤ 9999 then
    .time ⟨year.toNat, month, day, seconds / 3600, seconds / 60 % 60, seconds % 60, rest % 1000000,
      some 0⟩
  else .outOfRange

/-- The size beyond which a number counts milliseconds instead of seconds. -/
def secondsBound : Int := 20000000000

/-- The number of microseconds that a whole number stands for. -/
def microsOfInt (n : Int) : Int :=
  if secondsBound < n.natAbs then n * 1000 else n * 1000000

/-- The double nearest to a rational number, as an exact value. -/
def nearestDouble (q : Rat) : Rat :=
  (Binary64.ofRat q).toRat?.getD q

/-- The number of microseconds that a finite double stands for, rounded to the nearest. -/
def microsOfDouble (q : Rat) : Int :=
  let unit : Int := if q < -secondsBound ∨ (secondsBound : Rat) < q then 1000 else 1000000
  let whole := Decimal.truncate q
  whole * unit + Decimal.roundAway (nearestDouble ((q - whole) * unit))

/-- Whether a whole number fits into 64 bits with a sign, and so can stand for a time. -/
def machineRange (n : Int) : Bool :=
  -9223372036854775808 ≤ n && n < 9223372036854775808

/-- Reads the text of a number without an exponent. -/
def micros? (cs : List Char) : Option Int := do
  let (negative, body) := splitSign cs
  let whole := body.takeWhile Char.isDigit
  let n ← ofDigits? whole
  match body.dropWhile Char.isDigit with
  | [] => if machineRange (signed negative n) then some (microsOfInt (signed negative n)) else none
  | '.' :: fraction =>
    if fraction.all Char.isDigit then
      let m := Nat.ofDigitChars 10 (whole ++ fraction) 0
      (Binary64.ofDecimal negative m (-(fraction.length : Int))).toRat?.map microsOfDouble
    else none
  | _ => none

/-! ## Reading JSON values -/

/-- Reads a text as a time. -/
def ofText (s : String) : Except Defect Timestamp :=
  match ofCalendar? s.toList with
  | some t => if t.year = 0 then .error .timeOutOfRange else .ok t
  | none =>
    match (micros? s.toList).map ofMicros with
    | some (.time t) => .ok t
    | some .yearZero => .error .timeOutOfRange
    | _ => .error .unreadableTime

/-- The time at a number of microseconds, or the flaw of a number out of range. -/
def ofNumber (micros : Int) : Except Defect Timestamp :=
  match ofMicros micros with
  | .time t => .ok t
  | _ => .error .timeOutOfRange

/-- Reads a JSON value as a time. -/
def ofJson : Json → Except Defect Timestamp
  | .text s => ofText s
  | .int n => if machineRange n then ofNumber (microsOfInt n) else .error .notTime
  | .float x =>
    match x.toRat? with
    | some q => ofNumber (microsOfDouble q)
    | none => .error .timeOutOfRange
  | _ => .error .notTime

/-- The length of a padded number that fits its width. -/
theorem length_padded {width n : Nat} (h : (digits n).length ≤ width) :
    (padded width n).length = width := by
  simp [padded]
  omega

/-- Leading zeros do not change the value of digits. -/
theorem ofDigits?_padded (width n : Nat) : ofDigits? (padded width n) = some n := by
  have hall : ∀ c ∈ padded width n, c.isDigit = true := by
    intro c hc
    simp only [padded, List.mem_append] at hc
    rcases hc with hc | hc
    · rw [List.eq_of_mem_replicate hc]
      decide
    · exact isDigit_of_mem_digits hc
  have hne : padded width n ≠ [] := by simp [padded, digits_ne_nil]
  have hzeros : ∀ k : Nat, Nat.ofDigitChars 10 (List.replicate k '0') 0 = 0 := by
    intro k
    induction k with
    | zero => rfl
    | succ k ih =>
      rw [List.replicate_succ, Nat.ofDigitChars_cons]
      simp [ih]
  rw [ofDigits?, if_pos ⟨hne, by simpa [List.all_eq_true] using hall⟩, padded,
    Nat.ofDigitChars_append, hzeros, digits, Nat.ofDigitChars_toDigits (by decide) (by decide)]

/-- A number padded to a width is read back. -/
theorem takeDigits?_padded {width n : Nat} (h : (digits n).length ≤ width) (rest : List Char) :
    takeDigits? width (padded width n ++ rest) = some (n, rest) := by
  have hlength := length_padded h
  rw [takeDigits?, List.take_left' hlength, List.drop_left' hlength, if_pos hlength,
    ofDigits?_padded]
  rfl

end Timestamp
end Record
end ChainPoll
