import ChainPoll.Decimal.Numeral
import ChainPoll.Settings

/-!
# Arguments of a poll

The arguments that a poll is started with: an address, and options for a span, for events, and for
the time that each call has.  An option may be shortened to any beginning that no other option
shares, and its value may follow in the same word after an equals sign.  A negative number is never
an option, and after two dashes no word is.

Main results:

- Theorem {lit}`Arguments.ofWords_nil`: without words all settings are the usual ones.
- Theorem {lit}`Arguments.Flag.startingWith_name`: no option has a name that is the beginning of
  another.
-/

namespace ChainPoll

/-- The arguments of a poll. -/
structure Arguments where
  address : String
  span : Option Int
  fromId : Option Int
  timeout : Binary64
deriving DecidableEq, Repr

/-- Why a poll is not started. -/
inductive Usage where
  /-- Help was asked for. -/
  | help
  /-- The words make no sense. -/
  | faulty
deriving DecidableEq, Repr

namespace Arguments

/-- The usual settings; each call has thirty seconds. -/
def usual : Arguments :=
  { address := Settings.defaultAddress, span := none, fromId := none
    timeout := .ofDecimal false 30 0 }

/-! ## Options -/

/-- An option. -/
inductive Flag where
  | help
  | span
  | fromId
  | timeout
deriving DecidableEq, Repr

namespace Flag

/-- All options. -/
def all : List Flag := [.help, .span, .fromId, .timeout]

/-- The name of an option. -/
def name : Flag → String
  | .help => "--help"
  | .span => "--span"
  | .fromId => "--from-id"
  | .timeout => "--timeout"

/-- The options whose names begin as given. -/
def startingWith (start : List Char) : List Flag :=
  all.filter fun flag => start.isPrefixOf flag.name.toList

/-- No option has a name that is the beginning of another. -/
theorem startingWith_name (flag : Flag) : startingWith flag.name.toList = [flag] := by
  cases flag <;> decide +kernel

end Flag

/-! ## Words -/

/-- What a word is. -/
inductive Word where
  | plain (text : String)
  /-- An option, with a value in the same word. -/
  | flag (flag : Flag) (attached : Option String)
  /-- A word that looks like an option and is none. -/
  | stranger
  /-- Two dashes, after which all words are plain. -/
  | dashes
deriving DecidableEq, Repr

/-- Whether a text is a run of digits of any script. -/
def isDigitRun (cs : List Char) : Bool :=
  !cs.isEmpty && cs.all fun c => (Text.digitValue? c).isSome

/-- Whether the text after a dash makes a negative number; a line break may end it. -/
def isNegated (cs : List Char) : Bool :=
  let cs := if cs.getLast? = some '\n' then cs.dropLast else cs
  isDigitRun cs ||
    match Decimal.splitAtFirst (· = '.') cs with
    | (whole, some fraction) => (whole.isEmpty || isDigitRun whole) && isDigitRun fraction
    | (_, none) => false

/-- What a word is that begins with a dash and names no option. -/
def otherWord (word : String) (cs : List Char) : Word :=
  if isNegated cs || cs.contains ' ' then .plain word else .stranger

/-- What a word is that begins with two dashes. -/
def longWord (word : String) (cs : List Char) : Except Usage Word :=
  let (start, attached) := Decimal.splitAtFirst (· = '=') ('-' :: '-' :: cs)
  match Flag.startingWith start with
  | [flag] => .ok (.flag flag (attached.map String.ofList))
  | [] => .ok (otherWord word ('-' :: cs))
  | _ => .error .faulty

/--
Whether a word that begins with the short option for help asks for it.  The option may be repeated
in the word, and other letters may follow, but no value and no dash.
-/
def asksHelp (cs : List Char) : Bool :=
  match cs.dropWhile (· = 'h') with
  | '=' :: _ => false
  | '-' :: _ => false
  | _ => true

/-- What a word is before the two dashes. -/
def ofWord (word : String) : Except Usage Word :=
  match word.toList with
  | '-' :: '-' :: cs => longWord word cs
  | ['-'] => .ok (.plain word)
  | '-' :: 'h' :: rest =>
    .ok (.flag .help (if asksHelp rest then none else some (String.ofList rest)))
  | '-' :: cs => .ok (otherWord word cs)
  | _ => .ok (.plain word)

/-- What the words are. -/
def ofWordList : List String → Except Usage (List Word)
  | [] => .ok []
  | "--" :: rest => .ok (.dashes :: rest.map .plain)
  | word :: rest => do
    let first ← ofWord word
    let others ← ofWordList rest
    return first :: others

/-! ## Values -/

/-- Sets an option to a value. -/
def set (a : Arguments) (flag : Flag) (value : String) : Except Usage Arguments :=
  match flag with
  | .help => .error .faulty
  | .span =>
    match Text.integer? value.toList with
    | some n => .ok { a with span := some n }
    | none => .error .faulty
  | .fromId =>
    match Text.integer? value.toList with
    | some n => .ok { a with fromId := some n }
    | none => .error .faulty
  | .timeout =>
    match Decimal.real? value.toList with
    | some x => .ok { a with timeout := x }
    | none => .error .faulty

/-! ## Reading -/

/--
What was read of some words: the arguments, whether there was an address, whether words were left.
-/
structure Progress where
  arguments : Arguments
  addressed : Bool
  leftover : Bool
deriving DecidableEq, Repr

/-- Takes a word as the address, of which there is one at most. -/
def Progress.address (p : Progress) (text : String) : Progress :=
  if p.addressed then { p with leftover := true }
  else { p with arguments := { p.arguments with address := text }, addressed := true }

/--
Reads words in order.  Two dashes belong to the address before or behind them; without a word they
stand for the usual address.
-/
def read (p : Progress) : List Word → Except Usage Progress
  | [] => .ok p
  | .flag .help none :: _ => .error .help
  | .flag flag (some value) :: rest => do
    read { p with arguments := ← p.arguments.set flag value } rest
  | .flag flag none :: .plain value :: rest => do
    read { p with arguments := ← p.arguments.set flag value } rest
  | .flag _ none :: _ => .error .faulty
  | .stranger :: rest => read { p with leftover := true } rest
  | .plain text :: .dashes :: rest => read (p.address text) rest
  | .plain text :: rest => read (p.address text) rest
  | .dashes :: .plain text :: rest => read (p.address text) rest
  | .dashes :: rest => read (p.address p.arguments.address) rest

/-- Reads the arguments of a poll; words that are left over are a fault. -/
def ofWords (words : List String) : Except Usage Arguments := do
  let p ← read ⟨usual, false, false⟩ (← ofWordList words)
  if p.leftover then .error .faulty else .ok p.arguments

/-- Without words all settings are the usual ones. -/
theorem ofWords_nil : ofWords [] = .ok usual := by
  simp [ofWords, ofWordList, read, bind, Except.bind]

end Arguments
end ChainPoll
