import ChainPoll.Text.Blank
import ChainPoll.Text.Digits

/-!
# Numerals as people type them

Whole numbers on a command line and in a port: blanks around them, one sign, digits of any script,
and single low lines between digits.

Main results:

- Theorem {lit}`ungroup?_of_all_isDigit`: a run of digits without low lines is its own ungrouping.
-/

namespace ChainPoll
namespace Text

/-- The zero digits of all scripts; the nine characters after each are the other digits. -/
def zeroDigits : List Nat :=
  [0x30, 0x660, 0x6f0, 0x7c0, 0x966, 0x9e6, 0xa66, 0xae6, 0xb66, 0xbe6, 0xc66, 0xce6, 0xd66,
   0xde6, 0xe50, 0xed0, 0xf20, 0x1040, 0x1090, 0x17e0, 0x1810, 0x1946, 0x19d0, 0x1a80, 0x1a90,
   0x1b50, 0x1bb0, 0x1c40, 0x1c50, 0xa620, 0xa8d0, 0xa900, 0xa9d0, 0xa9f0, 0xaa50, 0xabf0, 0xff10,
   0x104a0, 0x10d30, 0x11066, 0x110f0, 0x11136, 0x111d0, 0x112f0, 0x11450, 0x114d0, 0x11650,
   0x116c0, 0x11730, 0x118e0, 0x11950, 0x11c50, 0x11d50, 0x11da0, 0x16a60, 0x16ac0, 0x16b50,
   0x1d7ce, 0x1d7d8, 0x1d7e2, 0x1d7ec, 0x1d7f6, 0x1e140, 0x1e2f0, 0x1e950, 0x1fbf0]

/-- The value of a decimal digit of any script. -/
def digitValue? (c : Char) : Option Nat :=
  (zeroDigits.find? fun z => z ≤ c.toNat && c.toNat ≤ z + 9).map (c.toNat - ·)

/-- Turns blanks of any kind into a space and digits of any script to ASCII digits. -/
def plainChar (c : Char) : Char :=
  if isSpace c then ' '
  else match digitValue? c with
    | some d => Nat.digitChar d
    | none => c

/--
A numeral without its surrounding blanks.  In a purely ASCII text only ASCII blanks count, in any
other text all of them.
-/
def plainNumeral (cs : List Char) : List Char :=
  if cs.all (·.toNat < 128) then trimBy isAsciiBlank cs
  else trimBy isAsciiBlank (cs.map plainChar)

/-- Reads a whole number typed with blanks, a sign, digits of any script, or grouping low lines. -/
def integer? (cs : List Char) : Option Int := do
  let (negative, body) := splitSign (plainNumeral cs)
  let ds ← ungroup? body
  let n ← ofDigits? ds
  return signed negative n

/-- A digit run has nothing to ungroup. -/
theorem ungroup?_of_all_isDigit {cs : List Char} (hne : cs ≠ []) (h : ∀ c ∈ cs, c.isDigit = true) :
    ungroup? cs = some cs := by
  fun_induction ungroup? cs with
  | case1 => exact absurd rfl hne
  | case2 c hc => rfl
  | case3 c hc => simp_all
  | case4 c rest hc ih => exact absurd (h '_' (by simp)) (by decide)
  | case5 c rest hc => exact absurd (h '_' (by simp)) (by decide)
  | case6 c d rest hd hc ih =>
    rw [ih (by simp) fun x hx => h x (by simp [hx])]
    rfl
  | case7 c d rest hd hc => exact absurd (h c (by simp)) hc

end Text
end ChainPoll
