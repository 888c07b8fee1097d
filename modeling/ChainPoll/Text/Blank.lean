/-!
# White space

Which characters count as blank, and trimming a text at both ends.

Main results:

- Theorem {lit}`isBlank_of_isAsciiBlank`: every ASCII blank is blank.
- Theorem {lit}`trimBy_of_no_blank_ends`: a text whose ends are not blank is its own trimming.
-/

namespace ChainPoll
namespace Text

/-- The characters with the Unicode property `White_Space`. -/
def isBlank (c : Char) : Bool :=
  let n := c.toNat
  (9 ≤ n && n ≤ 13) || n == 0x20 || n == 0x85 || n == 0xA0 || n == 0x1680
    || (0x2000 ≤ n && n ≤ 0x200A) || n == 0x2028 || n == 0x2029 || n == 0x202F
    || n == 0x205F || n == 0x3000

/-- The separators of texts and records: blanks and the four information separators. -/
def isSpace (c : Char) : Bool :=
  isBlank c || (0x1C ≤ c.toNat && c.toNat ≤ 0x1F)

/-- The blanks of the ASCII range. -/
def isAsciiBlank (c : Char) : Bool :=
  (9 ≤ c.toNat && c.toNat ≤ 13) || c.toNat == 0x20

/-- Drops the longest runs of `blank` characters at both ends. -/
def trimBy (blank : Char → Bool) (cs : List Char) : List Char :=
  ((cs.dropWhile blank).reverse.dropWhile blank).reverse

/-- The text without blanks at its ends. -/
def trim (s : String) : String :=
  String.ofList (trimBy isBlank s.toList)

/-- Every ASCII blank is blank. -/
theorem isBlank_of_isAsciiBlank {c : Char} (h : isAsciiBlank c = true) : isBlank c = true := by
  simp only [isAsciiBlank, isBlank, Bool.or_eq_true] at h ⊢
  rcases h with h | h <;> simp [h]

/-- A text whose ends are not blank is its own trimming. -/
theorem trimBy_of_no_blank_ends {blank : Char → Bool} {cs : List Char}
    (hhead : ∀ c ∈ cs.head?, blank c = false) (hlast : ∀ c ∈ cs.getLast?, blank c = false) :
    trimBy blank cs = cs := by
  have hfront : ∀ ds : List Char, (∀ c ∈ ds.head?, blank c = false) → ds.dropWhile blank = ds := by
    intro ds hds
    cases ds with
    | nil => rfl
    | cons d ds => simp [hds d (by simp)]
  rw [trimBy, hfront cs hhead, hfront cs.reverse (by simpa using hlast), List.reverse_reverse]

end Text
end ChainPoll
