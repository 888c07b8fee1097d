import ChainPoll.Json.Value
import ChainPoll.Text.Digits

/-!
# Reading JSON texts

A reader for JSON texts with the three extra literals `NaN`, `Infinity` and `-Infinity`.  It refuses
raw control characters and lone surrogates in strings, numbers with leading zeros, and text that
nests deeper than it is told to allow.

The reader is total: a value is read under a budget that the length of the text bounds, and a string
is read by one automaton that looks at each character once.
-/

namespace ChainPoll
namespace Json

open Text

/-- The four blanks of the format. -/
def isGap (c : Char) : Bool :=
  c == ' ' || c == '\t' || c == '\n' || c == '\r'

/-- Drops blanks at the front. -/
def skipGaps (cs : List Char) : List Char :=
  cs.dropWhile isGap

/-! ## Strings -/

/-- The value of a hexadecimal digit. -/
def hexValue? (c : Char) : Option Nat :=
  if c.isDigit then some (c.toNat - 48)
  else if 'a' ≤ c ∧ c ≤ 'f' then some (c.toNat - 87)
  else if 'A' ≤ c ∧ c ≤ 'F' then some (c.toNat - 55)
  else none

/-- Whether a code unit is the first half of a surrogate pair. -/
def isHighSurrogate (n : Nat) : Bool := 0xD800 ≤ n && n < 0xDC00

/-- Whether a code unit is the second half of a surrogate pair. -/
def isLowSurrogate (n : Nat) : Bool := 0xDC00 ≤ n && n < 0xE000

/-- The character that a surrogate pair stands for. -/
def joinSurrogates (high low : Nat) : Char :=
  Char.ofNat (0x10000 + (high - 0xD800) * 0x400 + (low - 0xDC00))

/-- The character that a one-letter escape stands for. -/
def escapedChar? : Char → Option Char
  | '"' => some '"'
  | '\\' => some '\\'
  | '/' => some '/'
  | 'b' => some '\x08'
  | 'f' => some '\x0c'
  | 'n' => some '\n'
  | 'r' => some '\r'
  | 't' => some '\t'
  | _ => none

/--
Where the reader of a string stands; `high` is the first half of a surrogate pair read before.
-/
inductive StringState where
  | plain
  | paired (high : Nat)
  | escape (high : Option Nat)
  | unicode (high : Option Nat) (left value : Nat)

/-- What a complete code unit does after an optional first half of a pair. -/
def unitRead (high : Option Nat) (value : Nat) (done : List Char) :
    Option (StringState × List Char) :=
  match high with
  | some h => if isLowSurrogate value then some (.plain, joinSurrogates h value :: done) else none
  | none =>
    if isHighSurrogate value then some (.paired value, done)
    else if isLowSurrogate value then none
    else some (.plain, Char.ofNat value :: done)

/-- One step of the reader of a string, on a character that does not end it. -/
def stringStep (state : StringState) (done : List Char) (c : Char) :
    Option (StringState × List Char) :=
  match state with
  | .plain =>
    if c = '\\' then some (.escape none, done)
    else if c.toNat < 0x20 then none
    else some (.plain, c :: done)
  | .paired high => if c = '\\' then some (.escape (some high), done) else none
  | .escape high =>
    if c = 'u' then some (.unicode high 4 0, done)
    else match high with
      | some _ => none
      | none => (escapedChar? c).map fun d => (.plain, d :: done)
  | .unicode high left value => do
    let d ← hexValue? c
    let value := value * 16 + d
    if left ≤ 1 then unitRead high value done else some (.unicode high (left - 1) value, done)

/-- Reads a string up to its closing quote; `done` holds its characters so far, last one first. -/
def readString (state : StringState) (done : List Char) : List Char → Option (List Char × List Char)
  | [] => none
  | c :: rest =>
    match state, c with
    | .plain, '"' => some (done.reverse, rest)
    | _, _ =>
      match stringStep state done c with
      | some (state, done) => readString state done rest
      | none => none

/-! ## Numbers -/

/-- Reads the digits after a point, if there is one. -/
def readFraction : List Char → Option (Option (List Char) × List Char)
  | '.' :: rest =>
    match rest.takeWhile Char.isDigit with
    | [] => none
    | ds => some (some ds, rest.dropWhile Char.isDigit)
  | cs => some (none, cs)

/-- Reads an exponent, if there is one. -/
def readExponent : List Char → Option (Option Int × List Char)
  | c :: rest =>
    if c = 'e' ∨ c = 'E' then
      let (negative, body) := splitSign rest
      (ofDigits? (body.takeWhile Char.isDigit)).map fun n =>
        (some (signed negative n), body.dropWhile Char.isDigit)
    else some (none, c :: rest)
  | [] => some (none, [])

/-- Reads a number without its sign. -/
def readUnsigned (negative : Bool) (cs : List Char) : Option (Json × List Char) := do
  let whole := cs.takeWhile Char.isDigit
  let n ← ofDigits? whole
  if 1 < whole.length ∧ whole.head? = some '0' then none
  else
    let (fraction, cs) ← readFraction (cs.dropWhile Char.isDigit)
    let (power, cs) ← readExponent cs
    match fraction, power with
    | none, none => return (.int (signed negative n), cs)
    | _, _ =>
      let ds := fraction.getD []
      let m := Nat.ofDigitChars 10 (whole ++ ds) 0
      return (.float (.ofDecimal negative m (power.getD 0 - (ds.length : Nat))), cs)

/-! ## Values -/

/-- Takes a word off the front of a text. -/
def takeWord? (word : String) (cs : List Char) : Option (List Char) :=
  if word.toList.isPrefixOf cs then some (cs.drop word.length) else none

/-- The literals of the format and their values. -/
def literals : List (String × Json) :=
  [("null", .null), ("true", .bool true), ("false", .bool false), ("NaN", .float .nan),
    ("Infinity", .float (.infinite false)), ("-Infinity", .float (.infinite true))]

/-- Reads a literal or a number. -/
def readScalar (cs : List Char) : Option (Json × List Char) :=
  match literals.findSome? fun (word, v) => (takeWord? word cs).map (v, ·) with
  | some found => some found
  | none =>
    match cs with
    | '-' :: rest => readUnsigned true rest
    | _ => readUnsigned false cs

/-- Reads a key and the colon after it. -/
def readKey (cs : List Char) : Option (String × List Char) :=
  match skipGaps cs with
  | '"' :: rest => do
    let (key, rest) ← readString .plain [] rest
    match skipGaps rest with
    | ':' :: rest => return (String.ofList key, rest)
    | _ => none
  | _ => none

mutual

/-- Reads one value; `depth` tells how many more levels of nesting are allowed. -/
def readValue (budget depth : Nat) (cs : List Char) : Option (Json × List Char) :=
  match budget with
  | 0 => none
  | budget + 1 =>
    match skipGaps cs with
    | '"' :: rest => (readString .plain [] rest).map fun (s, rest) =>
        (.text (String.ofList s), rest)
    | '[' :: rest =>
      match depth, skipGaps rest with
      | 0, _ => none
      | _ + 1, ']' :: rest => some (.list [], rest)
      | depth + 1, rest =>
        (readItems budget depth rest []).map fun (items, rest) => (.list items, rest)
    | '{' :: rest =>
      match depth, skipGaps rest with
      | 0, _ => none
      | _ + 1, '}' :: rest => some (.record [], rest)
      | depth + 1, rest =>
        (readFields budget depth rest []).map fun (fields, rest) => (.record fields, rest)
    | cs => readScalar cs

/-- Reads the items of a list up to its end; `done` holds those read so far, last one first. -/
def readItems (budget depth : Nat) (cs : List Char) (done : List Json) :
    Option (List Json × List Char) :=
  match budget with
  | 0 => none
  | budget + 1 =>
    match readValue budget depth cs with
    | none => none
    | some (item, rest) =>
      match skipGaps rest with
      | ',' :: rest => readItems budget depth rest (item :: done)
      | ']' :: rest => some ((item :: done).reverse, rest)
      | _ => none

/-- Reads the fields of an object up to its end; `done` holds those read so far, last one first. -/
def readFields (budget depth : Nat) (cs : List Char) (done : List (String × Json)) :
    Option (List (String × Json) × List Char) :=
  match budget with
  | 0 => none
  | budget + 1 =>
    match readKey cs with
    | none => none
    | some (key, rest) =>
      match readValue budget depth rest with
      | none => none
      | some (v, rest) =>
        match skipGaps rest with
        | ',' :: rest => readFields budget depth rest ((key, v) :: done)
        | '}' :: rest => some (((key, v) :: done).reverse, rest)
        | _ => none

end

/-- The number of levels that a text may nest. -/
def standardDepth : Nat := 200

/-- Reads a text that holds one value, nesting at most `depth` levels, and nothing else. -/
def ofText? (depth : Nat) (s : String) : Option Json :=
  let cs := s.toList
  match readValue (2 * cs.length + 2) depth cs with
  | some (v, rest) => if skipGaps rest = [] then some v else none
  | none => none

/-- Reads a text in UTF-8. -/
def ofBytes? (depth : Nat) (bytes : ByteArray) : Option Json :=
  (String.fromUTF8? bytes).bind (ofText? depth)

end Json
end ChainPoll
