import Mathlib.Data.List.TakeWhile
import ChainPoll.Proofs.Url.Hosts
import ChainPoll.Proofs.Url.Requoting

/-!
# Authorities that are settled

An authority whose host is settled, and whose user name and password are quoted, is read off its
text, passes the checks of a base address, and is its own canonical form.  The canonical form of an
authority with a plain host is the text of a settled one.

Main results:

- Theorem {lit}`Authority.ofText?_text`: a settled authority is read off its text.
- Theorem {lit}`Authority.canonical_text`: the text of a settled authority is canonical.
- Theorem {lit}`Authority.exists_settled`: a canonical authority with a plain host is that of a
  settled one.
-/

namespace ChainPoll
namespace Url

/-! ## Splitting at one character -/

variable {sep : Char}

/-- A text without the separator is not split. -/
theorem splitFirst_of_notMem {cs : List Char} (h : sep ∉ cs) : splitFirst sep cs = (cs, none) := by
  have hdrop : cs.dropWhile (· ≠ sep) = [] :=
    List.dropWhile_eq_nil_iff.2 fun c hc => by simpa using fun heq : c = sep => h (heq ▸ hc)
  rw [splitFirst, hdrop]

/-- A text is split at the first separator. -/
theorem splitFirst_append {front : List Char} (back : List Char) (h : sep ∉ front) :
    splitFirst sep (front ++ sep :: back) = (front, some back) := by
  have hfront : ∀ c ∈ front, decide (c ≠ sep) = true := fun c hc => by
    simpa using fun heq : c = sep => h (heq ▸ hc)
  have hdrop : (front ++ sep :: back).dropWhile (· ≠ sep) = sep :: back := by
    rw [List.dropWhile_append_of_pos hfront, List.dropWhile_cons_of_neg (by simp)]
  have htake : (front ++ sep :: back).takeWhile (· ≠ sep) = front := by
    rw [List.takeWhile_append_of_pos hfront, List.takeWhile_cons_of_neg (by simp), List.append_nil]
  rw [splitFirst, hdrop, htake]

/-- A text is split at its first separator if it has one. -/
theorem splitFirst_cases (sep : Char) (cs : List Char) :
    (sep ∉ cs ∧ splitFirst sep cs = (cs, none)) ∨
      ∃ front back, cs = front ++ sep :: back ∧ sep ∉ front ∧
        splitFirst sep cs = (front, some back) := by
  by_cases h : sep ∈ cs
  · obtain ⟨front, back, rfl, hfront⟩ := List.eq_append_cons_of_mem h
    exact .inr ⟨front, back, rfl, hfront, splitFirst_append back hfront⟩
  · exact .inl ⟨h, splitFirst_of_notMem h⟩

/-- What is split off a text before a separator lacks it, and is part of the text. -/
theorem splitFirst_fst (sep : Char) (cs : List Char) :
    sep ∉ (splitFirst sep cs).1 ∧ (splitFirst sep cs).1 ⊆ cs := by
  rcases splitFirst_cases sep cs with ⟨hnone, hsplit⟩ | ⟨front, back, rfl, hfront, hsplit⟩
  · rw [hsplit]
    exact ⟨hnone, List.Subset.refl cs⟩
  · rw [hsplit]
    exact ⟨hfront, List.subset_append_left _ _⟩

/-- A text without the separator is not split at its last one either. -/
theorem splitLast_of_notMem {cs : List Char} (h : sep ∉ cs) : splitLast sep cs = (none, cs) := by
  rw [splitLast, splitFirst_of_notMem (by simpa using h)]

/-- A text is split at the last separator. -/
theorem splitLast_append (front : List Char) {back : List Char} (h : sep ∉ back) :
    splitLast sep (front ++ sep :: back) = (some front, back) := by
  have hreverse : (front ++ sep :: back).reverse = back.reverse ++ sep :: front.reverse := by simp
  rw [splitLast, hreverse, splitFirst_append _ (by simpa using h)]
  simp

/-- What is split off a text after its last separator lacks it, and is part of the text. -/
theorem splitLast_snd (sep : Char) (cs : List Char) :
    sep ∉ (splitLast sep cs).2 ∧ (splitLast sep cs).2 ⊆ cs := by
  rcases splitFirst_cases sep cs.reverse with ⟨hnone, hsplit⟩ | ⟨back, front, hcs, hback, hsplit⟩
  · rw [splitLast, hsplit]
    exact ⟨by simpa using hnone, List.Subset.refl cs⟩
  · rw [splitLast, hsplit]
    refine ⟨by simpa using hback, fun c hc => ?_⟩
    have hmem : c ∈ cs.reverse := hcs ▸ List.mem_append_left _ (List.mem_reverse.mp hc)
    exact List.mem_reverse.mp hmem

/-! ## Ports -/

/-- A decimal digit may stand in an encoded name. -/
theorem isHostChar_of_isDigit {c : Char} (h : c.isDigit = true) : isHostChar c = true := by
  have hlt : c.toNat < 128 := by
    simp only [Char.isDigit, Bool.and_eq_true, decide_eq_true_eq, ge_iff_le,
      UInt32.le_iff_toNat_le] at h
    exact Nat.lt_of_le_of_lt h.2 (by decide)
  obtain ⟨k, rfl⟩ := exists_fin_of_lt hlt
  have hall : ∀ k : Fin 128, (Char.ofNat k.val).isDigit = true →
      isHostChar (Char.ofNat k.val) = true := by
    decide
  exact hall k h

/-- The digits of a number are typed as that number. -/
theorem integer?_digits (n : ℕ) : Text.integer? (Text.digits n) = some (n : Int) := by
  have hdigit : ∀ c ∈ Text.digits n, c.isDigit = true := fun c hc => Text.isDigit_of_mem_digits hc
  have hascii : (Text.digits n).all (·.toNat < 128) = true := by
    simp only [List.all_eq_true, decide_eq_true_eq]
    exact fun c hc => (isHostChar_iff.mp (isHostChar_of_isDigit (hdigit c hc))).1
  have hblank : ∀ c, c.isDigit = true → Text.isAsciiBlank c = false := by
    intro c hc
    simp only [Char.isDigit, Bool.and_eq_true, decide_eq_true_eq, ge_iff_le,
      UInt32.le_iff_toNat_le] at hc
    have hlow : 48 ≤ c.toNat := hc.1
    simp only [Text.isAsciiBlank, Bool.or_eq_false_iff, Bool.and_eq_false_iff,
      decide_eq_false_iff_not,
      beq_eq_false_iff_ne]
    omega
  have hplain : Text.plainNumeral (Text.digits n) = Text.digits n := by
    rw [Text.plainNumeral, if_pos hascii]
    exact Text.trimBy_of_no_blank_ends (fun c hc => hblank c (hdigit c (List.mem_of_mem_head? hc)))
      fun c hc => hblank c (hdigit c (List.mem_of_mem_getLast? hc))
  rw [Text.integer?, hplain, Text.splitSign_digits]
  simp only [Text.ungroup?_of_all_isDigit (Text.digits_ne_nil n) hdigit, Text.ofDigits?_digits,
    Option.bind_eq_bind, Option.bind_some]
  rfl

/-- The digits of a port are read as that port. -/
theorem port?_digits {n : ℕ} (h : n ≤ 65535) : port? (Text.digits n) = .ok (some n) := by
  have hrange : (0 : Int) ≤ n ∧ (n : Int) ≤ 65535 := by omega
  simp only [port?, if_neg (Text.digits_ne_nil n), integer?_digits,
    if_pos hrange, Int.toNat_natCast]

/-- A port that is read is in range. -/
theorem le_of_port? {cs : List Char} {n : ℕ} (h : port? cs = .ok (some n)) : n ≤ 65535 := by
  unfold port? at h
  split at h
  · simp at h
  · split at h
    · simp at h
    · split at h
      · next hrange =>
        obtain rfl := Option.some.inj (Except.ok.inj h)
        omega
      · simp at h

/-! ## Hosts with ports -/

/--
A host that is read holds no closing bracket if it holds a colon, and none if there are no brackets.
-/
theorem notMem_of_splitHost (cs : List Char) :
    (splitHost cs).1 ⊆ cs ∧ (':' ∈ (splitHost cs).1 → '[' ∈ cs ∧ ']' ∉ (splitHost cs).1) := by
  rcases splitFirst_cases '[' cs with ⟨-, hsplit⟩ | ⟨front, back, hcs, -, hsplit⟩
  · rw [splitHost, hsplit]
    obtain ⟨hcolon, hsub⟩ := splitFirst_fst ':' cs
    exact ⟨hsub, fun hmem => absurd hmem hcolon⟩
  · rw [splitHost, hsplit]
    obtain ⟨hclosing, hsub⟩ := splitFirst_fst ']' back
    refine ⟨fun c hc => ?_, fun _ => ⟨by simp [hcs], hclosing⟩⟩
    rw [hcs]
    exact List.mem_append_right _ (List.mem_cons_of_mem _ (hsub hc))

/-- The text of a port behind a host. -/
def portText (port : Option ℕ) : List Char :=
  match port with
  | none => []
  | some n => ':' :: Text.digits n

/-- The text of host and port is that of the host and that of the port. -/
theorem hostPortText_eq (host : List Char) (port : Option ℕ) :
    hostPortText host port = host ++ portText port := by
  cases port <;> simp [hostPortText, portText]

/-- The characters of the text of a port. -/
theorem mem_portText {port : Option ℕ} {c : Char} (h : c ∈ portText port) :
    isBare c = true ∧ c ≠ '@' ∧ c ≠ '[' ∧ c ≠ ']' := by
  cases port with
  | none => simp [portText] at h
  | some n =>
      rcases List.mem_cons.mp h with rfl | h
      · decide
      · obtain ⟨-, -, hname⟩ :=
          isHostChar_iff.mp (isHostChar_of_isDigit (Text.isDigit_of_mem_digits h))
        obtain ⟨hbare, hat, hmark⟩ := isNameChar_iff.mp hname
        exact ⟨hbare, hat, (ne_of_isHostMark hmark).2⟩

/-- A settled host and the text of a port are read off their text. -/
theorem splitHost_bracketed [HostCodec] {host : List Char}
    (h : SettledHost host) (port : Option ℕ) :
    splitHost (bracketed host ++ portText port) = (host, (portText port).drop 1) := by
  have hport : ((splitFirst ':' (portText port)).2).getD [] = (portText port).drop 1 := by
    cases port with
    | none => rfl
    | some n =>
        have hsplit := splitFirst_append (Text.digits n) (List.not_mem_nil (a := ':'))
        rw [List.nil_append] at hsplit
        rw [portText, hsplit]
        rfl
  by_cases hcolon : ':' ∈ host
  · have hclosing : ']' ∉ host := fun hmem => (h.bare _ hmem).2.2 rfl
    have htext : bracketed host ++ portText port = [] ++ '[' :: (host ++ ']' :: portText port) := by
      rw [bracketed, if_pos hcolon]
      simp
    rw [splitHost, htext, splitFirst_append _ List.not_mem_nil]
    simp only [splitFirst_append _ hclosing, Option.getD_some, hport]
  · have hopening : '[' ∉ host ++ portText port := by
      intro hmem
      rcases List.mem_append.mp hmem with hmem | hmem
      · exact hcolon (h.bracket hmem)
      · exact (mem_portText hmem).2.2.1 rfl
    rw [splitHost, bracketed, if_neg hcolon, splitFirst_of_notMem hopening]
    cases port with
    | none =>
        simp only [portText, List.append_nil, splitFirst_of_notMem hcolon]
        rfl
    | some n =>
        simp only [portText, splitFirst_append _ hcolon]
        rfl

/-! ## Settled authorities -/

namespace Authority

/-- An authority of which each part is written as it is read. -/
structure Settled [HostCodec] (a : Authority) (host : List Char) : Prop where
  host_eq : a.host = some host
  host : SettledHost host
  user : ∀ user ∈ a.user, user ≠ [] ∧ Quoted isUserChar user
  password : ∀ password ∈ a.password, Quoted isUserChar password
  port : ∀ n ∈ a.port, n ≤ 65535

/-- User name and password, as they stand before a host. -/
def userText (a : Authority) : List Char :=
  match a.user, a.password with
  | none, none => []
  | user, some password => user.getD [] ++ ':' :: password ++ ['@']
  | some user, none => user ++ ['@']

/-- The text of an authority is what stands before the host, the host, and its port. -/
theorem text_eq (a : Authority) (host : List Char) :
    a.text host = a.userText ++ (host ++ portText a.port) := by
  cases hu : a.user <;> cases hp : a.password <;> simp [text, userText, hu, hp, hostPortText_eq]

/--
The characters of what stands before a host are those of user name and password, and their marks.
-/
theorem mem_userText {a : Authority} {c : Char} (h : c ∈ a.userText) :
    (∃ user ∈ a.user, c ∈ user) ∨ (∃ password ∈ a.password, c ∈ password) ∨ c = ':' ∨ c = '@' := by
  obtain ⟨user, password, host, port⟩ := a
  cases user <;> cases password <;> simp [userText] at h ⊢ <;> tauto

/-- A character that stands for itself in a user name is an ASCII one. -/
theorem lt_of_isUserChar {c : Char} (h : isUserChar c = true) : c.toNat < 128 := by
  have hmarks : ("-._~!$'()*,".toList ++ "+&=;".toList).all (·.toNat < 128) = true := by decide
  simp only [List.all_eq_true, decide_eq_true_eq] at hmarks
  simp only [isUserChar, isUnreserved, Bool.or_eq_true, List.contains_iff_mem] at h
  rcases h with (h | h) | h
  · delta Char.isAlphanum Char.isAlpha Char.isUpper Char.isLower Char.isDigit at h
    simp only [Bool.or_eq_true, Bool.and_eq_true, decide_eq_true_eq, ge_iff_le,
      UInt32.le_iff_toNat_le] at h
    have hval : c.val.toNat = c.toNat := rfl
    simp only [hval] at h
    rcases h with (h | h) | h <;> exact Nat.lt_of_le_of_lt h.2 (by decide)
  · exact hmarks c (List.mem_append_left _ h)
  · exact hmarks c (List.mem_append_right _ h)

/-- The characters of a quoted user name or password. -/
theorem mem_quoted {cs : List Char} (h : Quoted isUserChar cs) {c : Char} (hc : c ∈ cs) :
    isBare c = true ∧ c ≠ '@' ∧ c ≠ ':' ∧ c ≠ '[' ∧ c ≠ ']' := by
  rcases h.mem hc with huser | rfl | ⟨n, hn, rfl⟩
  · obtain ⟨k, rfl⟩ := exists_fin_of_lt (lt_of_isUserChar huser)
    have hall : ∀ k : Fin 128, isUserChar (Char.ofNat k.val) = true →
      isBare (Char.ofNat k.val) = true ∧
        Char.ofNat k.val ≠ '@' ∧ Char.ofNat k.val ≠ ':' ∧ Char.ofNat k.val ≠ '[' ∧
        Char.ofNat k.val ≠ ']' := by decide
    exact hall k huser
  · decide
  · have hall : ∀ k : Fin 16, isBare (upperHex k.val) = true ∧ upperHex k.val ≠ '@' ∧
        upperHex k.val ≠ ':' ∧ upperHex k.val ≠ '[' ∧ upperHex k.val ≠ ']' := by decide
    exact hall ⟨n, hn⟩

section Settled

variable [HostCodec] {a : Authority} {host : List Char}

/-- The characters of what stands before a settled host. -/
theorem Settled.mem_userText (h : a.Settled host) {c : Char} (hc : c ∈ a.userText) :
    isBare c = true ∧ c ≠ '[' ∧ c ≠ ']' := by
  have hquoted : ∀ {cs}, Quoted isUserChar cs → c ∈ cs → isBare c = true ∧ c ≠ '[' ∧ c ≠ ']' := by
    intro cs hcs hmem
    obtain ⟨hbare, -, -, hopening, hclosing⟩ := mem_quoted hcs hmem
    exact ⟨hbare, hopening, hclosing⟩
  rcases Authority.mem_userText hc with ⟨user, huser, hmem⟩ | ⟨password,
    hpassword, hmem⟩ | rfl | rfl
  · exact hquoted (h.user user huser).2 hmem
  · exact hquoted (h.password password hpassword) hmem
  · decide
  · decide

/-- The text of a settled authority is made of characters that may stand there. -/
theorem Settled.bare (h : a.Settled host) : ∀ c ∈ a.text (bracketed host), isBare c = true := by
  intro c hc
  rw [text_eq] at hc
  rcases List.mem_append.mp hc with hc | hc
  · exact (h.mem_userText hc).1
  · rcases List.mem_append.mp hc with hc | hc
    · exact (h.host.mem_bracketed hc).1
    · exact (mem_portText hc).1

/-- The text of a settled authority is not empty. -/
theorem Settled.text_ne_nil (h : a.Settled host) : a.text (bracketed host) ≠ [] := by
  have hhost : bracketed host ≠ [] := by
    unfold bracketed
    split
    · simp
    · exact h.host.ne_nil
  simp [text_eq, hhost]

/-- A settled authority without its port is settled. -/
theorem Settled.dropPort (h : a.Settled host) : { a with port := none }.Settled host where
  host_eq := h.host_eq
  host := h.host
  user := h.user
  password := h.password
  port := by simp

/-- Host and port of a settled authority hold no sign that ends user name and password. -/
theorem Settled.at_notMem (h : a.Settled host) : '@' ∉ bracketed host ++ portText a.port := by
  intro hmem
  rcases List.mem_append.mp hmem with hmem | hmem
  · exact (h.host.mem_bracketed hmem).2 rfl
  · exact (mem_portText hmem).2.1 rfl

/-- A settled authority is read off its text. -/
theorem ofText?_text (h : a.Settled host) :
    Authority.ofText? (a.text (bracketed host)) = .ok a := by
  obtain ⟨user, password, ahost, port⟩ := a
  obtain rfl : ahost = some host := h.host_eq
  have hat : '@' ∉ bracketed host ++ portText port := h.at_notMem
  have hhost : nonempty? host = some host := if_neg h.host.ne_nil
  have hport : port? ((portText port).drop 1) = .ok port := by
    cases port with
    | none => rfl
    | some n => exact port?_digits (h.port n rfl)
  rw [text_eq]
  cases user with
  | none =>
      cases password with
      | none =>
          simp only [userText, List.nil_append, ofText?, splitLast_of_notMem hat,
            splitHost_bracketed h.host,
            hport, hhost]
          rfl
      | some password =>
          have htext : userText ⟨none, some password, some host, port⟩ ++
            (bracketed host ++ portText port) =
              ([] ++ ':' :: password) ++ '@' :: (bracketed host ++ portText port) := by
                simp [userText]
          simp only [htext, ofText?, splitLast_append _ hat, splitFirst_append _ List.not_mem_nil,
            splitHost_bracketed h.host, hport, hhost]
          rfl
  | some user =>
      obtain ⟨hne, hquoted⟩ := h.user user rfl
      have huser : nonempty? user = some user := if_neg hne
      have hcolon : ':' ∉ user := fun hmem => (mem_quoted hquoted hmem).2.2.1 rfl
      cases password with
      | none =>
          have htext : userText ⟨some user, none, some host, port⟩ ++
            (bracketed host ++ portText port) =
              user ++ '@' :: (bracketed host ++ portText port) := by simp [userText]
          simp only [htext, ofText?, splitLast_append _ hat,
            splitFirst_of_notMem hcolon, Prod.map, id_eq,
            splitHost_bracketed h.host, hport, hhost, huser]
          rfl
      | some password =>
          have htext : userText ⟨some user, some password, some host, port⟩ ++
              (bracketed host ++ portText port) =
              (user ++ ':' :: password) ++ '@' :: (bracketed host ++ portText port) := by
                simp [userText]
          simp only [htext, ofText?, splitLast_append _ hat,
            splitFirst_append _ hcolon, Prod.map, id_eq,
            splitHost_bracketed h.host, hport, hhost, huser]
          rfl

/-- The text of a settled authority is canonical. -/
theorem canonical_text (h : a.Settled host) (scheme : String) :
    Authority.canonical scheme (a.text (bracketed host)) = .ok (a.text (bracketed host)) := by
  have hpercent : isUserChar '%' = false := by decide
  have huser : a.user.map (requote isUserChar) = a.user := by
    cases hu : a.user with
    | none => rfl
    | some user => rw [Option.map_some, (h.user user hu).2.requote_eq hpercent]
  have hpassword : a.password.map (requote isUserChar) = a.password := by
    cases hp : a.password with
    | none => rfl
    | some password => rw [Option.map_some, (h.password password hp).requote_eq hpercent]
  rw [Authority.canonical, ofText?_text h]
  simp only [h.host_eq, h.host.canonical, huser, hpassword, bind, Except.bind]
  rfl

/-- The text of a settled authority passes the check of its brackets. -/
theorem checkBrackets_text (h : a.Settled host) :
    checkBrackets (a.text (bracketed host)) = .ok () := by
  have hfront : '[' ∉ a.userText := fun hmem => (h.mem_userText hmem).2.1 rfl
  have hfront' : ']' ∉ a.userText := fun hmem => (h.mem_userText hmem).2.2 rfl
  have hport : '[' ∉ portText a.port := fun hmem => (mem_portText hmem).2.2.1 rfl
  have hport' : ']' ∉ portText a.port := fun hmem => (mem_portText hmem).2.2.2 rfl
  have hclosing : ']' ∉ host := fun hmem => (h.host.bare _ hmem).2.2 rfl
  by_cases hcolon : ':' ∈ host
  · have htext : a.text (bracketed host) =
        a.userText ++ '[' :: (host ++ ']' :: portText a.port) := by
      rw [text_eq, bracketed, if_pos hcolon]
      simp
    have hopen : (a.text (bracketed host)).contains '[' = true := by simp [htext]
    have hshut : (a.text (bracketed host)).contains ']' = true := by simp [htext]
    rw [checkBrackets, hopen, hshut]
    simp only [htext, splitFirst_append _ hfront, Option.getD_some, splitFirst_append _ hclosing,
      if_neg (h.host.head hcolon), if_pos hcolon]
  · have hopening : '[' ∉ host := fun hmem => hcolon (h.host.bracket hmem)
    have htext : a.text (bracketed host) = a.userText ++ (host ++ portText a.port) := by
      rw [text_eq, bracketed, if_neg hcolon]
    have hopen : (a.text (bracketed host)).contains '[' = false := by
      simp [htext, hfront, hopening, hport]
    have hshut : (a.text (bracketed host)).contains ']' = false := by
      simp [htext, hfront', hclosing, hport']
    rw [checkBrackets, hopen, hshut]

/-- The text of a settled authority holds no disguised separator. -/
theorem checkDisguises_text (h : a.Settled host) :
    checkDisguises (a.text (bracketed host)) = .ok () := by
  have hnone : (a.text (bracketed host)).any (fun c => disguises.contains c.toNat) = false := by
    rw [List.any_eq_false]
    intro c hc
    have hbare := h.bare c hc
    simp only [isBare, Bool.and_eq_true, Bool.not_eq_true'] at hbare
    rw [hbare.2]
    exact Bool.false_ne_true
  rw [checkDisguises, hnone]
  rfl

end Settled

/-! ## Authorities that were read -/

/--
What is read of an authority: a host of its characters, no empty user name, and a port in range.
-/
theorem spec_of_ofText? {cs : List Char} {a : Authority} (h : Authority.ofText? cs = .ok a) :
    (∀ host ∈ a.host, host ≠ [] ∧ (∀ c ∈ host, c ∈ cs ∧ c ≠ '@') ∧
      (':' ∈ host → '[' ∈ cs ∧ ']' ∉ host)) ∧ (∀ user ∈ a.user, user ≠ []) ∧
      ∀ n ∈ a.port, n ≤ 65535 := by
  have hnonempty : ∀ {ds es : List Char}, es ∈ nonempty? ds → es = ds ∧ es ≠ [] := by
    intro ds es hes
    unfold nonempty? at hes
    split at hes
    · simp at hes
    · next hne =>
      obtain rfl : ds = es := by simpa using hes
      exact ⟨rfl, hne⟩
  obtain ⟨hat, hsub⟩ := splitLast_snd '@' cs
  obtain ⟨hhost, hclosing⟩ := notMem_of_splitHost (splitLast '@' cs).2
  rw [ofText?] at h
  simp only at h
  cases hport : port? (splitHost (splitLast '@' cs).2).2 with
  | error flaw =>
      rw [hport] at h
      cases h
  | ok port =>
      rw [hport] at h
      obtain rfl := Except.ok.inj h
      refine ⟨fun host hmem => ?_, fun user hmem => ?_, fun n hmem => ?_⟩
      · obtain ⟨rfl, hne⟩ := hnonempty hmem
        refine ⟨hne, fun c hc => ⟨hsub (hhost hc), ?_⟩, fun hcolon => ?_⟩
        · rintro rfl
          exact hat (hhost hc)
        · exact ⟨hsub (hclosing hcolon).1, (hclosing hcolon).2⟩
      · simp only at hmem
        split at hmem
        · simp at hmem
        · exact (hnonempty hmem).2
      · obtain rfl : port = some n := hmem
        exact le_of_port? hport

/-- An authority that has a canonical form has a host. -/
theorem exists_of_canonical [HostCodec] {scheme : String} {cs canonical : List Char}
    (h : Authority.canonical scheme cs = .ok canonical) :
    ∃ a host, Authority.ofText? cs = .ok a ∧ a.host = some host := by
  rw [Authority.canonical] at h
  cases ha : Authority.ofText? cs with
  | error flaw =>
      rw [ha] at h
      cases h
  | ok a =>
      cases hhost : a.host with
      | none => simp [ha, hhost, bind, Except.bind, throw, throwThe, MonadExceptOf.throw] at h
      | some host => exact ⟨a, host, rfl, hhost⟩

/-- A canonical authority whose host was plain is the text of a settled one with the same port. -/
theorem exists_settled [HostCodec] {scheme : String} {cs canonical raw : List Char}
    {a : Authority} (hbare : ∀ c ∈ cs, isBare c = true) (ha : Authority.ofText? cs = .ok a)
    (hraw : a.host = some raw) (hplain : PlainHost raw)
    (h : Authority.canonical scheme cs = .ok canonical) :
    ∃ (settled : Authority) (host : List Char), settled.Settled host ∧ settled.port = a.port ∧
      canonical = settled.text (bracketed host) := by
  have hpercent : isUserChar '%' = false := by decide
  obtain ⟨hhost, huser, hport⟩ := spec_of_ofText? ha
  obtain ⟨hne, hchars, hclosing⟩ := hhost raw hraw
  rw [Authority.canonical, ha] at h
  simp only [hraw, bind, Except.bind] at h
  cases htext : canonicalHost raw with
  | error flaw =>
      rw [htext] at h
      cases h
  | ok text =>
      rw [htext] at h
      obtain ⟨host, hsettled, rfl⟩ := exists_settledHost hne
        (fun c hc => ⟨hbare c (hchars c hc).1, (hchars c hc).2⟩) (fun hcolon => (hclosing hcolon).2)
        hplain htext
      refine ⟨⟨a.user.map (requote isUserChar), a.password.map (requote isUserChar), some host,
        a.port⟩,
        host, ⟨rfl, hsettled, ?_, ?_, hport⟩, rfl, ?_⟩
      · intro user hmem
        obtain ⟨raw', hraw', rfl⟩ := Option.map_eq_some_iff.mp hmem
        exact ⟨requote_ne_nil (huser raw' hraw'), quoted_requote hpercent raw'⟩
      · intro password hmem
        obtain ⟨raw', -, rfl⟩ := Option.map_eq_some_iff.mp hmem
        exact quoted_requote hpercent raw'
      · exact (Except.ok.inj h).symm

end Authority
end Url
end ChainPoll
