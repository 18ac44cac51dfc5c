/-
  The grammar of socket texts.

  A socket is written as `node:port`, each part a numeral with white space around it.  The reader divides
  the text at its first colon, trims the parts, and reads digits from left to right until they end or the
  number does not fit.  What it accepts can be said without any of that:

  1. **Digits** — they are read exactly if the value of all of them fits (`readDigits_eq_ok_iff`).
     Further digits never make a number smaller, so giving up early refuses nothing that would fit.

  2. **Parts** — a numeral holds no white space, so trimming a part leaves its numeral and nothing else
     (`readPart_eq_ok_iff`).

  3. **Sockets** — a part that can be read holds no colon, so a colon between two such parts is the first
     one of the text.

  `read_grammar` puts these together, with the error of every text that is not so written.
-/
import FragmentGraph.Proofs.Socket.Name
import FragmentGraph.Socket.Reader
import Mathlib.Algebra.Group.Nat.Defs
import Mathlib.Data.List.DropRight

namespace FragmentGraph

open Text (isBlank trimBlank)

/-! ## The grammar -/

namespace Socket

/-- `Digits n text` — the text is one digit or more, and their value is `n`.  Zeros may lead. -/
structure Digits (n : UInt32) (text : List Char) : Prop where
  ne_nil : text ≠ []
  isDigit : ∀ c ∈ text, c.isDigit = true
  value : Nat.ofDigitChars 10 text 0 = n.toNat

/-- `Numeral n text` — the digits of `n`, alone or behind one plus sign. -/
inductive Numeral (n : UInt32) : List Char → Prop where
  | plain {digits : List Char} (h : Digits n digits) : Numeral n digits
  | plus {digits : List Char} (h : Digits n digits) : Numeral n ('+' :: digits)

/-- `Spells n part` — a numeral of `n` between two runs of white space. -/
def Spells (n : UInt32) (part : List Char) : Prop :=
  ∃ lead numeral trail, part = lead ++ numeral ++ trail ∧
    (∀ c ∈ lead, isBlank c = true) ∧ Numeral n numeral ∧ ∀ c ∈ trail, isBlank c = true

end Socket

open Socket (Digits Numeral Spells)

variable {n : UInt32} {cs part : List Char}

/-! ## Digits -/

/-- Further digits do not make a number smaller. -/
theorem le_ofDigitChars (cs : List Char) (number : Nat) :
    number ≤ Nat.ofDigitChars 10 cs number := by
  induction cs generalizing number with
  | nil => exact Nat.le_refl _
  | cons c rest ih =>
    have hle := ih (10 * number + (c.toNat - '0'.toNat))
    rw [Nat.ofDigitChars_cons]
    omega

/-- Digits are read exactly if the number that they make fits. -/
theorem readDigits_eq_ok_iff {number value : Nat} (hnumber : number < 2 ^ 32) :
    readDigits number cs = .ok value ↔
      (∀ c ∈ cs, c.isDigit = true) ∧ Nat.ofDigitChars 10 cs number = value ∧ value < 2 ^ 32 := by
  induction cs generalizing number with
  | nil =>
    constructor
    · intro h
      cases h
      exact ⟨fun c hc => absurd hc List.not_mem_nil, rfl, hnumber⟩
    · rintro ⟨_, rfl, _⟩
      rfl
  | cons c rest ih =>
    rw [readDigits, Nat.ofDigitChars_cons, List.forall_mem_cons, Nat.mul_comm 10 number]
    dsimp only
    split
    · next hc =>
      split
      · next hfits =>
        rw [ih hfits, and_iff_right hc]
      · next hlarge =>
        -- the value of all digits is no less than what is read so far, so it does not fit either
        have hle := le_ofDigitChars rest (number * 10 + (c.toNat - '0'.toNat))
        constructor
        · intro h
          cases h
        · rintro ⟨_, rfl, hlt⟩
          omega
    · next hc =>
      constructor
      · intro h
        cases h
      · rintro ⟨⟨h, _⟩, _⟩
        exact absurd h hc

/-- What is read from digits is the number that they spell. -/
theorem readDigits_map_eq_ok_iff {digits : List Char} (hne : digits ≠ []) :
    (readDigits 0 digits).map UInt32.ofNat = .ok n ↔ Digits n digits := by
  constructor
  · intro h
    cases hread : readDigits 0 digits with
    | error cause =>
      rw [hread] at h
      cases h
    | ok value =>
      obtain ⟨hdigits, hvalue, hlt⟩ := (readDigits_eq_ok_iff (by decide)).mp hread
      rw [hread] at h
      cases h
      refine ⟨hne, hdigits, ?_⟩
      rw [UInt32.toNat_ofNat_of_lt' hlt]
      exact hvalue
  · intro h
    have hread : readDigits 0 digits = .ok n.toNat :=
      (readDigits_eq_ok_iff (by decide)).mpr ⟨h.isDigit, h.value, n.toNat_lt⟩
    rw [hread]
    show Except.ok (UInt32.ofNat n.toNat) = _
    rw [UInt32.ofNat_toNat]

/-- A plus sign is no digit. -/
theorem Socket.Digits.head_ne_plus {digits : List Char} : ¬ Digits n ('+' :: digits) := fun h =>
  absurd (h.isDigit '+' List.mem_cons_self) (by decide)

/-- Exactly the numerals are read. -/
theorem readNumber_eq_ok_iff : readNumber cs = .ok n ↔ Numeral n cs := by
  fun_cases readNumber cs with
  | case1 =>
    constructor
    · intro h
      cases h
    · rintro ⟨h⟩
      exact absurd rfl h.ne_nil
  | case2 =>
    constructor
    · intro h
      cases h
    · rintro (h | h)
      · exact absurd h Digits.head_ne_plus
      · exact absurd rfl h.ne_nil
  | case3 digits hdigits =>
    rw [readDigits_map_eq_ok_iff hdigits]
    constructor
    · exact Numeral.plus
    · rintro (h | h)
      · exact absurd h Digits.head_ne_plus
      · exact h
  | case4 _ hempty _ hplus =>
    rw [readDigits_map_eq_ok_iff hempty]
    constructor
    · exact Numeral.plain
    · rintro (h | h)
      · exact h
      · exact absurd rfl (hplus _)

/-! ## Parts -/

theorem not_isBlank_of_isDigit {c : Char} (h : c.isDigit = true) : isBlank c = false := by
  have hrange : 48 ≤ c.toNat ∧ c.toNat ≤ 57 := by
    simpa [Char.isDigit, UInt32.le_iff_toNat_le] using h
  simp only [isBlank]
  grind

namespace Text

/-- A trimmed text lacks white space at its ends only. -/
theorem exists_trimBlank (s : List Char) :
    ∃ lead trail, s = lead ++ trimBlank s ++ trail ∧
      (∀ c ∈ lead, isBlank c = true) ∧ ∀ c ∈ trail, isBlank c = true := by
  refine ⟨s.takeWhile isBlank, (s.dropWhile isBlank).rtakeWhile isBlank, ?_,
    fun c hc => List.mem_takeWhile_imp hc, fun c hc => List.mem_rtakeWhile_imp hc⟩
  show s = s.takeWhile isBlank ++ (s.dropWhile isBlank).rdropWhile isBlank ++ _
  rw [List.append_assoc, List.rdropWhile_append_rtakeWhile, List.takeWhile_append_dropWhile]

/-- White space in front of a text without any is all that is dropped. -/
theorem dropWhile_append_of_not_isBlank {lead body : List Char} (hlead : ∀ c ∈ lead, isBlank c = true)
    (hbody : ∀ c ∈ body, isBlank c = false) : (lead ++ body).dropWhile isBlank = body := by
  rw [List.dropWhile_append_of_pos hlead]
  cases body with
  | nil => rfl
  | cons c body => exact List.dropWhile_cons_of_neg (by simp [hbody c List.mem_cons_self])

/-- Trimming finds a text without white space between two runs of it. -/
theorem trimBlank_append {lead body trail : List Char} (hlead : ∀ c ∈ lead, isBlank c = true)
    (hbody : ∀ c ∈ body, isBlank c = false) (htrail : ∀ c ∈ trail, isBlank c = true) :
    trimBlank (lead ++ body ++ trail) = body := by
  have htail : ∀ c ∈ trail.reverse, isBlank c = true :=
    fun c hc => htrail c (List.mem_reverse.mp hc)
  have hback : ∀ c ∈ body.reverse, isBlank c = false :=
    fun c hc => hbody c (List.mem_reverse.mp hc)
  rw [trimBlank, List.append_assoc, List.dropWhile_append_of_pos hlead]
  cases body with
  | nil => rw [List.nil_append, List.dropWhile_eq_nil_iff.mpr htrail]; rfl
  | cons c body =>
    rw [List.cons_append, List.dropWhile_cons_of_neg (by simp [hbody c List.mem_cons_self]),
      ← List.cons_append, List.reverse_append, dropWhile_append_of_not_isBlank htail hback,
      List.reverse_reverse]

end Text

namespace Socket

/-- A numeral is made of digits and plus signs. -/
theorem Numeral.isDigit_or_plus (h : Numeral n cs) : ∀ c ∈ cs, c.isDigit = true ∨ c = '+' := by
  cases h with
  | plain h => exact fun c hc => Or.inl (h.isDigit c hc)
  | plus h => exact List.forall_mem_cons.mpr ⟨Or.inr rfl, fun c hc => Or.inl (h.isDigit c hc)⟩

/-- A numeral holds no white space. -/
theorem Numeral.not_isBlank (h : Numeral n cs) : ∀ c ∈ cs, isBlank c = false := by
  intro c hc
  rcases h.isDigit_or_plus c hc with hdigit | rfl
  · exact not_isBlank_of_isDigit hdigit
  · decide

/-- A part that spells a number holds no colon. -/
theorem Spells.colon_notMem (h : Spells n part) : ':' ∉ part := by
  obtain ⟨lead, numeral, trail, rfl, hlead, hnumeral, htrail⟩ := h
  simp only [List.mem_append, not_or]
  refine ⟨⟨fun hc => ?_, fun hc => ?_⟩, fun hc => ?_⟩
  · exact absurd (hlead _ hc) (by decide)
  · rcases hnumeral.isDigit_or_plus _ hc with h | h
    · exact absurd h (by decide)
    · exact absurd h (by decide)
  · exact absurd (htrail _ hc) (by decide)

end Socket

/-- Exactly the parts that spell a number are read. -/
theorem readPart_eq_ok_iff : readPart part = .ok n ↔ Spells n part := by
  rw [readPart, readNumber_eq_ok_iff]
  constructor
  · intro h
    obtain ⟨lead, trail, hpart, hlead, htrail⟩ := Text.exists_trimBlank part
    exact ⟨lead, trimBlank part, trail, hpart, hlead, h, htrail⟩
  · rintro ⟨lead, numeral, trail, rfl, hlead, hnumeral, htrail⟩
    rw [Text.trimBlank_append hlead hnumeral.not_isBlank htrail]
    exact hnumeral

/-- A part is refused exactly if it spells no number. -/
theorem exists_readPart_eq_error_iff :
    (∃ cause, readPart part = .error cause) ↔ ¬ ∃ n, Spells n part := by
  simp only [← readPart_eq_ok_iff]
  cases readPart part with
  | error cause => simp
  | ok n => simp

/-! ## Sockets -/

namespace Socket

variable {text : String} {before after : List Char}

/-- A text without colon is refused as such. -/
theorem read_of_notMem (h : ':' ∉ text.toList) : Socket.read text = .error (.noColon text) := by
  have hdrop : text.toList.dropWhile (· != ':') = [] :=
    List.dropWhile_eq_nil_iff.mpr fun c hc => by
      simpa using fun heq : c = ':' => h (heq ▸ hc)
  simp only [Socket.read, hdrop]

/-- The first colon divides a text: the part before it is judged first, then the part behind it. -/
theorem read_of_split (hsplit : text.toList = before ++ ':' :: after) (hfirst : ':' ∉ before) :
    Socket.read text =
      match readPart before, readPart after with
      | .error cause, _ => .error (.badNode (String.ofList before) cause)
      | .ok _, .error cause => .error (.badPort (String.ofList after) cause)
      | .ok node, .ok port => .ok ⟨node, port⟩ := by
  have hbefore : ∀ c ∈ before, (c != ':') = true := fun c hc => by
    simpa using fun heq : c = ':' => hfirst (heq ▸ hc)
  have htake : text.toList.takeWhile (· != ':') = before := by
    rw [hsplit, List.takeWhile_append_of_pos hbefore]
    simp
  have hdrop : text.toList.dropWhile (· != ':') = ':' :: after := by
    rw [hsplit, List.dropWhile_append_of_pos hbefore]
    simp
  simp only [Socket.read, htake, hdrop]
  cases readPart before with
  | error cause => rfl
  | ok node => cases readPart after <;> rfl

/-- `Verdict text r` — the text is as the outcome `r` of reading it says: it has no colon, or the first
    colon has parts at its sides of which the first cannot be read, or only the second, or none. -/
inductive Verdict (text : String) : Except SocketError Socket → Prop where
  | noColon (h : ':' ∉ text.toList) : Verdict text (.error (.noColon text))
  | badNode {before after : List Char} {cause : NumberError}
      (hsplit : text.toList = before ++ ':' :: after) (hfirst : ':' ∉ before)
      (hbefore : readPart before = .error cause) :
      Verdict text (.error (.badNode (String.ofList before) cause))
  | badPort {before after : List Char} {node : NodeId} {cause : NumberError}
      (hsplit : text.toList = before ++ ':' :: after) (hfirst : ':' ∉ before)
      (hbefore : readPart before = .ok node) (hafter : readPart after = .error cause) :
      Verdict text (.error (.badPort (String.ofList after) cause))
  | socket {before after : List Char} {node : NodeId} {port : PortIndex}
      (hsplit : text.toList = before ++ ':' :: after) (hfirst : ':' ∉ before)
      (hbefore : readPart before = .ok node) (hafter : readPart after = .ok port) :
      Verdict text (.ok ⟨node, port⟩)

/-- The outcome of reading a text is the one that fits it. -/
theorem read_eq_iff {r : Except SocketError Socket} : Socket.read text = r ↔ Verdict text r := by
  constructor
  · rintro rfl
    by_cases hcolon : ':' ∈ text.toList
    · obtain ⟨before, after, hsplit, hfirst⟩ := List.eq_append_cons_of_mem hcolon
      rw [read_of_split hsplit hfirst]
      cases hbefore : readPart before with
      | error cause => exact .badNode hsplit hfirst hbefore
      | ok node =>
        cases hafter : readPart after with
        | error cause => exact .badPort hsplit hfirst hbefore hafter
        | ok port => exact .socket hsplit hfirst hbefore hafter
    · rw [read_of_notMem hcolon]
      exact .noColon hcolon
  · intro h
    cases h with
    | noColon h => exact read_of_notMem h
    | badNode hsplit hfirst hbefore => rw [read_of_split hsplit hfirst, hbefore]
    | badPort hsplit hfirst hbefore hafter => rw [read_of_split hsplit hfirst, hbefore, hafter]
    | socket hsplit hfirst hbefore hafter => rw [read_of_split hsplit hfirst, hbefore, hafter]

/-- Two parts that spell a node and a port, with a colon between them, are all that is accepted. -/
theorem read_eq_ok_iff {s : Socket} : Socket.read text = .ok s ↔
    ∃ before after, text.toList = before ++ ':' :: after ∧
      Spells s.node before ∧ Spells s.port after := by
  rw [read_eq_iff]
  constructor
  · intro h
    cases h with
    | socket hsplit _ hbefore hafter =>
      exact ⟨_, _, hsplit, readPart_eq_ok_iff.mp hbefore, readPart_eq_ok_iff.mp hafter⟩
  · rintro ⟨before, after, hsplit, hnode, hport⟩
    exact .socket hsplit hnode.colon_notMem (readPart_eq_ok_iff.mpr hnode)
      (readPart_eq_ok_iff.mpr hport)

/-- Only a text without colon is refused for lacking one. -/
theorem read_eq_noColon_iff {shown : String} :
    Socket.read text = .error (.noColon shown) ↔ shown = text ∧ ':' ∉ text.toList := by
  rw [read_eq_iff]
  constructor
  · intro h
    cases h with
    | noColon h => exact ⟨rfl, h⟩
  · rintro ⟨rfl, h⟩
    exact .noColon h

/-- The node is at fault exactly if the part before the first colon spells no number. -/
theorem exists_read_eq_badNode_iff {part : String} :
    (∃ cause, Socket.read text = .error (.badNode part cause)) ↔
      ∃ after, text.toList = part.toList ++ ':' :: after ∧ ':' ∉ part.toList ∧
        ¬ ∃ n, Spells n part.toList := by
  simp only [read_eq_iff, ← exists_readPart_eq_error_iff]
  constructor
  · rintro ⟨cause, h⟩
    cases h with
    | badNode hsplit hfirst hbefore =>
      rw [String.toList_ofList]
      exact ⟨_, hsplit, hfirst, cause, hbefore⟩
  · rintro ⟨after, hsplit, hfirst, cause, hbefore⟩
    have h := Verdict.badNode hsplit hfirst hbefore
    rw [String.ofList_toList] at h
    exact ⟨cause, h⟩

/-- The port is at fault exactly if the part before the first colon spells a number and the part behind
    it does not. -/
theorem exists_read_eq_badPort_iff {part : String} :
    (∃ cause, Socket.read text = .error (.badPort part cause)) ↔
      ∃ before, text.toList = before ++ ':' :: part.toList ∧ ':' ∉ before ∧
        (∃ n, Spells n before) ∧ ¬ ∃ p, Spells p part.toList := by
  simp only [read_eq_iff, ← exists_readPart_eq_error_iff]
  constructor
  · rintro ⟨cause, h⟩
    cases h with
    | badPort hsplit hfirst hbefore hafter =>
      rw [String.toList_ofList]
      exact ⟨_, hsplit, hfirst, ⟨_, readPart_eq_ok_iff.mp hbefore⟩, cause, hafter⟩
  · rintro ⟨before, hsplit, hfirst, ⟨node, hbefore⟩, cause, hafter⟩
    have h := Verdict.badPort hsplit hfirst (readPart_eq_ok_iff.mpr hbefore) hafter
    rw [String.ofList_toList] at h
    exact ⟨cause, h⟩

/-- The digits of a number spell it. -/
theorem spells_decimal (n : UInt32) : Spells n (Numeric.decimal n.toNat).toList := by
  rw [Numeric.toList_decimal]
  refine ⟨[], Nat.toDigits 10 n.toNat, [], by simp, by simp, .plain ⟨Nat.toDigits_ne_nil, ?_, ?_⟩,
    by simp⟩
  · exact Numeric.isDigit_toDigits
  · exact Nat.ofDigitChars_toDigits (by decide) (by decide)

/-- The text of a socket is read as that socket. -/
theorem read_text (s : Socket) : Socket.read s.text = .ok s := by
  refine read_eq_ok_iff.mpr ⟨_, _, ?_, spells_decimal s.node, spells_decimal s.port⟩
  simp [Socket.text]

/-- **The reader accepts exactly its grammar.**  A text is read as a socket if and only if it is a part
    that spells the node, a colon, and a part that spells the port.  Of the other texts, one without colon
    is refused as such; else the part before the first colon is refused if it spells no number, and else
    the part behind it, each shown as it was written.  The text of every socket is read back. -/
theorem read_grammar :
    (∀ text : String,
      (∀ s, Socket.read text = .ok s ↔
        ∃ before after, text.toList = before ++ ':' :: after ∧
          Spells s.node before ∧ Spells s.port after) ∧
      (∀ shown, Socket.read text = .error (.noColon shown) ↔ shown = text ∧ ':' ∉ text.toList) ∧
      (∀ part, (∃ cause, Socket.read text = .error (.badNode part cause)) ↔
        ∃ after, text.toList = part.toList ++ ':' :: after ∧ ':' ∉ part.toList ∧
          ¬ ∃ n, Spells n part.toList) ∧
      (∀ part, (∃ cause, Socket.read text = .error (.badPort part cause)) ↔
        ∃ before, text.toList = before ++ ':' :: part.toList ∧ ':' ∉ before ∧
          (∃ n, Spells n before) ∧ ¬ ∃ p, Spells p part.toList)) ∧
    ∀ s : Socket, Socket.read s.text = .ok s := by
  refine ⟨fun text => ⟨fun s => ?_, fun shown => ?_, fun part => ?_, fun part => ?_⟩, read_text⟩
  · exact read_eq_ok_iff
  · exact read_eq_noColon_iff
  · exact exists_read_eq_badNode_iff
  · exact exists_read_eq_badPort_iff

example : Socket.read " +007 :\t4294967295\u3000" = .ok ⟨7, 0xffffffff⟩ := by decide

example : Socket.read "4294967296:0:0" = .error (.badNode "4294967296" .tooLarge) := by decide

example : Socket.read "1:0:0" = .error (.badPort "0:0" .badDigit) := by decide

end Socket

end FragmentGraph
