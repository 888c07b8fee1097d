import ChainPoll.Text.Lowercase
import ChainPoll.Url.Flaw
import ChainPoll.Url.Path

/-!
# Host names in many scripts

A host name in ASCII is lower-cased.  A name with characters beyond ASCII is up to a codec, which
splits it into labels and writes each label with such characters in ASCII: the prefix `xn--`, its
ASCII characters, and the others as differences in an adaptive base-36 code.

Main results:

- Theorem {lit}`encodeHost_of_ascii`: an ASCII name is only lower-cased.
-/

namespace ChainPoll
namespace Url

/-! ## The adaptive code -/

/-- The digit of a value below thirty-six. -/
def codeDigit (d : Nat) : Char :=
  if d < 26 then Char.ofNat (97 + d) else Char.ofNat (22 + d)

/-- The threshold of a digit at position `k`. -/
def codeThreshold (k bias : Nat) : Nat :=
  if k ≤ bias then 1 else if bias + 26 ≤ k then 26 else k - bias

/-- Divides a difference down until it fits, counting the divisions. -/
def codeDivide (delta k : Nat) : Nat × Nat :=
  if 455 < delta then codeDivide (delta / 35) (k + 36) else (delta, k)
termination_by delta
decreasing_by omega

/-- The bias after a difference among `points` code points. -/
def codeBias (delta points : Nat) (first : Bool) : Nat :=
  let delta := if first then delta / 700 else delta / 2
  let (rest, k) := codeDivide (delta + delta / points) 0
  k + 36 * rest / (rest + 38)

/-- Every threshold lies between one and twenty-six. -/
theorem codeThreshold_bounds (k bias : Nat) :
    1 ≤ codeThreshold k bias ∧ codeThreshold k bias ≤ 26 := by
  unfold codeThreshold
  split
  · omega
  · split <;> omega

/-- A difference as a run of digits of which the last is below its threshold. -/
def codeDigits (bias k q : Nat) : List Char :=
  let t := codeThreshold k bias
  if q < t then [codeDigit q]
  else codeDigit (t + (q - t) % (36 - t)) :: codeDigits bias (k + 36) ((q - t) / (36 - t))
termination_by q
decreasing_by
  have hbounds := codeThreshold_bounds k bias
  have hdiv := Nat.div_le_self (q - codeThreshold k bias) (36 - codeThreshold k bias)
  omega

/-- The state of the coder: text so far, pending difference, bias, and code points handled. -/
structure Coder where
  out : List Char
  delta : Nat
  bias : Nat
  handled : Nat

/-- What one character of the label does while the code point `point` is inserted. -/
def Coder.scan (basic point : Nat) (coder : Coder) (c : Char) : Coder :=
  if c.toNat < point then { coder with delta := coder.delta + 1 }
  else if c.toNat = point then
    { out := coder.out ++ codeDigits coder.bias 36 coder.delta
      delta := 0
      bias := codeBias coder.delta (coder.handled + 1) (coder.handled == basic)
      handled := coder.handled + 1 }
  else coder

/-- Inserts all occurrences of the given code points, which ascend from `next` on. -/
def Coder.insertAll (label : List Char) (basic : Nat) : List Nat → Nat → Coder → Coder
  | [], _, coder => coder
  | point :: points, next, coder =>
    let coder := { coder with delta := coder.delta + (point - next) * (coder.handled + 1) }
    let coder := label.foldl (Coder.scan basic point) coder
    insertAll label basic points (point + 1) { coder with delta := coder.delta + 1 }

/-- A label with characters beyond ASCII in the adaptive code. -/
def encodeLabel (label : List Char) : List Char :=
  let basic := label.filter (·.toNat < 128)
  let points := ((label.filter (128 ≤ ·.toNat)).map Char.toNat).mergeSort.eraseDups
  let start : Coder := { out := [], delta := 0, bias := 72, handled := basic.length }
  let coded := (Coder.insertAll label basic.length points 128 start).out
  basic ++ (if basic = [] then [] else ['-']) ++ coded

/-! ## Labels -/

/-- What a character of a host name becomes before it is encoded; some characters vanish. -/
def foldHostChar (c : Char) : List Char :=
  let n := c.toNat
  if n = 0xAD ∨ n = 0x200B ∨ n = 0x2060 ∨ n = 0xFEFF then []
  else if n = 0x3002 ∨ n = 0xFF0E ∨ n = 0xFF61 then ['.']
  else if n = 0x130 then ['i', Char.ofNat 0x307]
  else if 0xFF01 ≤ n ∧ n ≤ 0xFF5E then [Text.lowerChar (Char.ofNat (n - 0xFEE0))]
  else [Text.lowerChar c]

/-- The mark of an encoded label. -/
def labelMark : List Char := ['x', 'n', '-', '-']

/-- The longest label. -/
def maxLabel : Nat := 63

/-- One label of a host name in ASCII. -/
def labelText (label : List Char) : Except Flaw (List Char) :=
  if label.all (·.toNat < 128) then
    if label = [] ∨ maxLabel < label.length then .error .labelLength else .ok label
  else if labelMark.isPrefixOf label then .error .labelPrefix
  else
    let encoded := labelMark ++ encodeLabel label
    if maxLabel < encoded.length then .error .labelLength else .ok encoded

/-- Labels in ASCII between points; one empty label is allowed at the end. -/
def labelsText (labels : List (List Char)) : Except Flaw (List Char) := do
  if labels.getLast? = some [] ∧ 1 < labels.length then
    return joinAll '.' (← labels.dropLast.mapM labelText) ++ ['.']
  else return joinAll '.' (← labels.mapM labelText)

/-! ## Host names -/

/--
The codec that writes host names with characters beyond ASCII in ASCII.  It rests on tables of all
scripts and is a parameter here: what is proved of addresses holds for every codec.
-/
class HostCodec where
  encode : List Char → Except Flaw (List Char)

/-- Whether a folded label may stand in a name by the strict rules, as far as ASCII goes. -/
def isStrictLabel (label : List Char) : Bool :=
  label.all (fun c => decide (128 ≤ c.toNat) || c.isAlphanum || c == '-')
    && label.head? != some '-' && label.getLast? != some '-'
    && ((label.drop 2).take 2 != ['-', '-'] || labelMark.isPrefixOf label)

/--
A name by the strict rules, or else by the lenient ones.  These fold only the labels with characters
beyond ASCII, so that the others keep their case.
-/
def transcribe (cs : List Char) : Except Flaw (List Char) :=
  let strict := splitAll '.' (cs.flatMap foldHostChar)
  if strict.all isStrictLabel then labelsText strict
  else
    let points := cs.map fun c => if foldHostChar c = ['.'] then '.' else c
    labelsText ((splitAll '.' points).map fun label =>
      if label.all (·.toNat < 128) then label else label.flatMap foldHostChar)

/--
The codec of a running program: letters of every script are lower-cased, wide forms are narrowed.
-/
instance : HostCodec := ⟨transcribe⟩

/--
A host name in ASCII: one that is in ASCII is only lower-cased, another one is up to the codec.
-/
def encodeHost [HostCodec] (cs : List Char) : Except Flaw (List Char) :=
  if cs.all (·.toNat < 128) then .ok (cs.map Char.toLower) else HostCodec.encode cs

/-- An ASCII name is only lower-cased. -/
theorem encodeHost_of_ascii [HostCodec] {cs : List Char} (h : ∀ c ∈ cs, c.toNat < 128) :
    encodeHost cs = .ok (cs.map Char.toLower) := by
  have hall : cs.all (·.toNat < 128) = true := by simpa [List.all_eq_true] using h
  rw [encodeHost, if_pos hall]

end Url
end ChainPoll
