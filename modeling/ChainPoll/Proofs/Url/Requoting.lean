import Mathlib.Data.List.Basic
import ChainPoll.Url.Authority

/-!
# Requoted texts

A text that was requoted is made of safe characters and of escapes of octets that stand for none.
Such a text is requoted as it is, so that requoting twice is requoting once.

Main results:

- Theorem {lit}`quoted_requote`: what requoted texts are made of.
- Theorem {lit}`Quoted.requote_eq`: a text made like that stands for itself.
-/

namespace ChainPoll
namespace Url

/-! ## Octets -/

/-- An escaped octet is read as that octet. -/
theorem escapedOctet?_upperHex (b : UInt8) :
    escapedOctet? (upperHex (b.toNat / 16)) (upperHex (b.toNat % 16)) = some b := by
  have hb : b.toNat < 256 := b.toNat_lt
  rw [escapedOctet?, hexValue?_upperHex (by omega), hexValue?_upperHex (by omega)]
  simp only [Option.bind_eq_bind, Option.bind_some, Nat.div_add_mod]
  simp

/-- The octets of a character beyond ASCII are beyond ASCII. -/
theorem le_of_mem_utf8EncodeChar {c : Char} (hc : 128 ≤ c.toNat) {b : UInt8}
    (hb : b ∈ String.utf8EncodeChar c) : 128 ≤ b.toNat := by
  have hval : c.val.toNat = c.toNat := rfl
  simp only [String.utf8EncodeChar, hval] at hb
  rw [if_neg (by omega)] at hb
  split_ifs at hb <;> simp only [List.mem_cons, List.not_mem_nil, or_false] at hb <;>
    rcases hb with rfl | rfl | rfl | rfl <;> simp only [UInt8.toNat_ofNat'] <;> omega

/-- The octet of an ASCII character is its number. -/
theorem utf8EncodeChar_of_lt {c : Char} (hc : c.toNat < 128) :
    ∃ b : UInt8, String.utf8EncodeChar c = [b] ∧ b.toNat = c.toNat := by
  have hval : c.val.toNat = c.toNat := rfl
  refine ⟨UInt8.ofNat c.toNat, ?_, ?_⟩
  · simp only [String.utf8EncodeChar, hval]
    rw [if_pos (by omega)]
  · rw [UInt8.toNat_ofNat']
    omega

/-! ## Quoted texts -/

variable {safe : Char → Bool} {cs : List Char}

/-- Whether an octet is kept escaped: it is no safe character. -/
def KeptEscaped (safe : Char → Bool) (b : UInt8) : Prop :=
  ¬ (b.toNat < 128 ∧ safe (Char.ofNat b.toNat) = true)

/-- Texts made of safe characters and of escapes of octets that are no safe character. -/
inductive Quoted (safe : Char → Bool) : List Char → Prop where
  | nil : Quoted safe []
  | plain {c : Char} {cs : List Char} (hc : safe c = true) (h : Quoted safe cs) :
      Quoted safe (c :: cs)
  | escaped {b : UInt8} {cs : List Char} (hb : KeptEscaped safe b) (h : Quoted safe cs) :
      Quoted safe (percent b ++ cs)

/-- Escapes of several such octets may stand before a quoted text. -/
theorem Quoted.escapes {bs : List UInt8} (h : Quoted safe cs) (hbs : ∀ b ∈ bs, KeptEscaped safe b) :
    Quoted safe (bs.flatMap percent ++ cs) := by
  induction bs with
  | nil => exact h
  | cons b bs ih =>
      rw [List.flatMap_cons, List.append_assoc]
      exact .escaped (hbs b (by simp)) (ih fun b' hb' => hbs b' (by simp [hb']))

/-- The escape of a character that is not safe may stand before a quoted text. -/
theorem Quoted.escapeChar (h : Quoted safe cs) {c : Char} (hc : safe c = false) :
    Quoted safe (Url.escapeChar c ++ cs) := by
  refine h.escapes fun b hb => ?_
  by_cases hascii : c.toNat < 128
  · obtain ⟨b', hone, hval⟩ := utf8EncodeChar_of_lt hascii
    obtain rfl : b = b' := by simpa [hone] using hb
    rintro ⟨-, hsafe⟩
    rw [hval, Char.ofNat_toNat, hc] at hsafe
    simp at hsafe
  · have hbeyond : 128 ≤ b.toNat := le_of_mem_utf8EncodeChar (by omega) hb
    exact fun hkept => absurd hkept.1 (by omega)

/-- A text that was requoted is quoted. -/
theorem quoted_requote (hpercent : safe '%' = false) (cs : List Char) :
    Quoted safe (requote safe cs) := by
  have hstray : KeptEscaped safe 37 := fun h => by
    have hsafe : safe '%' = true := h.2
    rw [hpercent] at hsafe
    simp at hsafe
  fun_induction requote safe cs with
  | case1 => exact .nil
  | case2 high low rest b hoctet c hkept ih => exact .plain hkept.2 ih
  | case3 high low rest b hoctet c hkept ih => exact .escaped hkept ih
  | case4 high low rest hoctet ih => exact .escaped hstray ih
  | case5 c rest hpattern ih =>
      split
      · next hsafe => exact .plain hsafe ih
      · next hsafe => exact ih.escapeChar (by simpa using hsafe)

/-- Only the empty text is requoted to nothing. -/
theorem requote_ne_nil (h : cs ≠ []) : requote safe cs ≠ [] := by
  fun_cases requote safe cs with
  | case1 => exact absurd rfl h
  | case2 => simp
  | case3 => simp [percent]
  | case4 => simp [percent]
  | case5 c rest hpattern =>
      split
      · simp
      · have hsome : String.utf8EncodeChar c ≠ [] := by
          simp only [String.utf8EncodeChar]
          split_ifs <;> simp
        cases hbytes : String.utf8EncodeChar c with
        | nil => exact absurd hbytes hsome
        | cons b bs => simp [escapeChar, hbytes, percent]

/-- A quoted text is requoted as it is. -/
theorem Quoted.requote_eq (hpercent : safe '%' = false) (h : Quoted safe cs) :
    requote safe cs = cs := by
  induction h with
  | nil => rfl
  | @plain c cs hc _ ih =>
      have hne : c ≠ '%' := by
        rintro rfl
        rw [hpercent] at hc
        simp at hc
      rw [requote, if_pos hc, ih]
      · rfl
      · exact fun _ _ _ heq => absurd heq hne
  | @escaped b cs hb _ ih =>
      have hread := escapedOctet?_upperHex b
      simp only [percent, List.cons_append, List.nil_append]
      rw [requote, hread]
      simp only
      rw [if_neg hb, ih]
      rfl

/-- The characters of a quoted text are safe ones, percent signs and hexadecimal digits. -/
theorem Quoted.mem (h : Quoted safe cs) {c : Char} (hc : c ∈ cs) :
    safe c = true ∨ c = '%' ∨ ∃ n < 16, c = upperHex n := by
  induction h with
  | nil => simp at hc
  | plain hsafe _ ih =>
      rcases List.mem_cons.mp hc with rfl | hc
      · exact .inl hsafe
      · exact ih hc
  | @escaped b cs _ _ ih =>
      have hb : b.toNat < 256 := b.toNat_lt
      simp only [percent, List.cons_append, List.nil_append, List.mem_cons] at hc
      rcases hc with rfl | rfl | rfl | hc
      · exact .inr (.inl rfl)
      · exact .inr (.inr ⟨_, by omega, rfl⟩)
      · exact .inr (.inr ⟨_, by omega, rfl⟩)
      · exact ih hc

end Url
end ChainPoll
