/-
  Scanning text made of tokens.

  `Scans cs tokens` says that between tokens the scanner takes `cs` as `tokens`, whatever it has read
  before and whatever follows.  Only a number needs to know what follows: it ends where a character
  comes that no number has (`Stops`).  So texts are put together at the punctuation marks, which end a
  number (`Scans.append_cons`).

  A printed string is scanned as its content: one step per character (`run?_escaped`), then the run over
  all of them (`run?_flatMap_escaped`).
-/
import FragmentGraph.Proofs.Json.Numeral
import Mathlib.Data.List.Forall2

namespace FragmentGraph.Json

namespace Scanner

theorem run?_cons (state : Scanner) (done : List Token) (c : Char) (rest : List Char) :
    state.run? done (c :: rest)
      = (state.next? c).bind fun (next, tokens) => next.run? (tokens.reverse ++ done) rest := by
  simp only [run?]
  cases state.next? c <;> rfl

/-- What follows does not go on with a number. -/
def Stops (rest : List Char) : Prop := ∀ c ∈ rest.head?, isNumberChar c = false

/-- Between tokens, the characters are scanned as the tokens. -/
def Scans (cs : List Char) (tokens : List Token) : Prop :=
  ∀ done rest, Stops rest → gap.run? done (cs ++ rest) = gap.run? (tokens.reverse ++ done) rest

/-- The character is a token by itself. -/
def Mark (c : Char) (token : Token) : Prop := start? c = some (gap, [token])

/-- A character that is a token by itself does not go on with a number. -/
theorem Mark.stops {c : Char} {token : Token} (hc : Mark c token) (rest : List Char) :
    Stops (c :: rest) := by
  have hmark : isNumberChar c = false := by
    unfold Mark start? at hc
    split at hc
    · cases hc
    · split at hc
      · cases hc
      · split at hc <;> cases hc <;> decide
  simpa [Stops] using hmark

theorem run?_mark {c : Char} {token : Token} (hc : Mark c token) (done : List Token)
    (rest : List Char) : gap.run? done (c :: rest) = gap.run? (token :: done) rest := by
  rw [run?_cons, next?, hc]
  rfl

/-! ## Putting texts together -/

namespace Scans

variable {c : Char} {token : Token} {cs ds : List Char} {ts us : List Token}

theorem nil : Scans [] [] := fun _ _ _ => rfl

theorem cons (hc : Mark c token) (hds : Scans ds us) : Scans (c :: ds) (token :: us) := by
  intro done rest hrest
  rw [List.cons_append, run?_mark hc, hds _ _ hrest]
  simp

theorem append_cons (hcs : Scans cs ts) (hc : Mark c token) (hds : Scans ds us) :
    Scans (cs ++ c :: ds) (ts ++ token :: us) := by
  intro done rest hrest
  rw [List.append_assoc, List.cons_append, hcs _ _ (hc.stops _), run?_mark hc, hds _ _ hrest]
  simp

theorem enclosed {d : Char} {last : Token} (hc : Mark c token) (hcs : Scans cs ts) (hd : Mark d last) :
    Scans (c :: (cs ++ [d])) (token :: (ts ++ [last])) :=
  cons hc (append_cons hcs hd nil)

/-- Texts with commas between them are scanned as their tokens with commas between them. -/
theorem intercalate {texts : List (List Char)} {tokens : List (List Token)}
    (h : List.Forall₂ Scans texts tokens) :
    Scans ([','].intercalate texts) ([Token.comma].intercalate tokens) := by
  induction h with
  | nil => exact nil
  | @cons text ts texts tokens htext hrest ih =>
    cases hrest with
    | nil => simpa using htext
    | cons hnext hrest =>
      rw [List.intercalate_cons_cons, List.intercalate_cons_cons, List.append_assoc,
        List.append_assoc]
      exact append_cons htext rfl ih

end Scans

/-! ## Words and numbers -/

theorem scans_null : Scans ['n', 'u', 'l', 'l'] [.null] := fun _ _ _ => rfl

theorem scans_true : Scans ['t', 'r', 'u', 'e'] [.bool true] := fun _ _ _ => rfl

theorem scans_false : Scans ['f', 'a', 'l', 's', 'e'] [.bool false] := fun _ _ _ => rfl

theorem run?_number {cs : List Char} (hcs : ∀ c ∈ cs, isNumberChar c = true) (read : List Char)
    (done : List Token) (rest : List Char) :
    (number read).run? done (cs ++ rest) = (number (cs.reverse ++ read)).run? done rest := by
  induction cs generalizing read with
  | nil => rfl
  | cons c cs ih =>
    obtain ⟨hc, hcs⟩ := List.forall_mem_cons.mp hcs
    rw [List.cons_append, run?_cons, next?, if_pos hc]
    simpa using ih hcs (c :: read)

/-- A number ends where no number goes on. -/
theorem run?_number_stops {read : List Char} {token : Token} (htoken : finishNumber? read = some token)
    (done : List Token) {rest : List Char} (hrest : Stops rest) :
    (number read).run? done rest = gap.run? (token :: done) rest := by
  cases rest with
  | nil => simp [run?, finish?, htoken]
  | cons c rest =>
    have hc : isNumberChar c = false := hrest c rfl
    rw [run?_cons, run?_cons, next?, next?, hc, htoken]
    cases start? c with
    | none => rfl
    | some p => simp

theorem not_isSpace_of_start {c : Char} (hc : (c.isDigit || c == '-') = true) : ¬ isSpace c = true := by
  intro hspace
  simp only [isSpace, Bool.or_eq_true, beq_iff_eq, or_assoc] at hspace
  rcases hspace with rfl | rfl | rfl | rfl <;> exact absurd hc (by decide)

/-- A numeral is one token: its first character starts a number and the others go on with it. -/
theorem scans_numeral {cs : List Char} {n : Numeral} (hn : Numeral.ofChars? cs = some n) :
    Scans cs [.numeral n] := by
  obtain ⟨⟨c, cs, rfl, hstart⟩, hchars⟩ := Numeral.chars_of_ofChars? hn
  intro done rest hrest
  have hnumber : start? c = some (number [c], []) := by
    unfold start?
    rw [if_neg (not_isSpace_of_start hstart), if_pos hstart]
  have hfinish : finishNumber? (cs.reverse ++ [c]) = some (.numeral n) := by
    simp [finishNumber?, hn]
  rw [List.cons_append, run?_cons, next?, hnumber, Option.bind_some]
  show (number [c]).run? done (cs ++ rest) = _
  rw [run?_number (List.forall_mem_cons.mp hchars).2, run?_number_stops hfinish done hrest]
  rfl

/-! ## Strings -/

/-- A control character is spelled by its code. -/
theorem controlEscape_eq {c : Char} (hc : c < ' ') :
    ∃ high low h l, controlEscape c = ['\\', 'u', '0', '0', high, low]
      ∧ hexValue high = some h ∧ hexValue low = some l ∧ h * 16 + l = c.toNat := by
  have hsmall : c.toNat < 32 := hc
  have hcode : ∀ n < 32,
      controlEscape (Char.ofNat n) = ['\\', 'u', '0', '0', Nat.digitChar (n / 16), Nat.digitChar (n % 16)]
        ∧ hexValue (Nat.digitChar (n / 16)) = some (n / 16)
        ∧ hexValue (Nat.digitChar (n % 16)) = some (n % 16) := by decide
  obtain ⟨hchars, hhigh, hlow⟩ := hcode c.toNat hsmall
  rw [Char.ofNat_toNat] at hchars
  exact ⟨_, _, _, _, hchars, hhigh, hlow, by omega⟩

/-- The draft of a string without escapes that wait. -/
def settled (read : List Char) : Draft := ⟨read, none, false⟩

/-- The escape of a control character is scanned as the character.  Its code is no half of a surrogate
    pair, so nothing waits. -/
theorem run?_controlEscape {c : Char} (hc : c < ' ') (read : List Char) (done : List Token)
    (rest : List Char) :
    (plain (settled read)).run? done (controlEscape c ++ rest)
      = (plain (settled (c :: read))).run? done rest := by
  obtain ⟨high, low, h, l, hchars, hhigh, hlow, hcode⟩ := controlEscape_eq hc
  have hpush : (settled read).pushUnit c.toNat = settled (c :: read) := by
    have hsmall : c.toNat < 32 := hc
    have hleading : Draft.isLeading c.toNat = false := by simp [Draft.isLeading]; omega
    have htrailing : Draft.isTrailing c.toNat = false := by simp [Draft.isTrailing]; omega
    simp [settled, Draft.pushUnit, Draft.push, hleading, htrailing]
  rw [hchars]
  show (unit (settled read) 2 0).run? done (high :: low :: rest) = _
  rw [run?_cons, next?, hhigh]
  show (unit (settled read) 1 (0 * 16 + h)).run? done (low :: rest) = _
  rw [run?_cons, next?, hlow, Nat.zero_mul, Nat.zero_add]
  show (plain ((settled read).pushUnit (h * 16 + l))).run? done rest = _
  rw [hcode, hpush]

/-- A printed character is scanned as the character. -/
theorem run?_escaped (c : Char) (read : List Char) (done : List Token) (rest : List Char) :
    (plain (settled read)).run? done (escaped c ++ rest)
      = (plain (settled (c :: read))).run? done rest := by
  unfold escaped
  split
  next h => subst h; rfl
  split
  next h => subst h; rfl
  split
  next h => subst h; rfl
  split
  next h => subst h; rfl
  split
  next h => subst h; rfl
  split
  next h => subst h; rfl
  split
  next h => subst h; rfl
  split
  next h => exact run?_controlEscape h read done rest
  next hquote hbackslash _ _ _ _ _ hcontrol =>
    rw [List.singleton_append, run?_cons, next?, if_neg hquote, if_neg hbackslash, if_neg hcontrol]
    rfl

/-- The printed characters of a string, up to the closing quote, are scanned as the string. -/
theorem run?_flatMap_escaped (cs read : List Char) (done : List Token) (rest : List Char) :
    (plain (settled read)).run? done (cs.flatMap escaped ++ '"' :: rest)
      = gap.run? (.text (some (String.ofList (read.reverse ++ cs))) :: done) rest := by
  induction cs generalizing read with
  | nil =>
    rw [List.append_nil]
    rfl
  | cons c cs ih =>
    rw [List.flatMap_cons, List.append_assoc, run?_escaped, ih]
    simp

theorem scans_renderText (s : String) : Scans (renderText s).toList [.text (some s)] := by
  intro done rest _
  have hchars : (renderText s).toList ++ rest = '"' :: (s.toList.flatMap escaped ++ '"' :: rest) := by
    simp [renderText]
  rw [hchars, run?_cons]
  show (plain (settled [])).run? done _ = _
  rw [run?_flatMap_escaped]
  simp

end Scanner

end FragmentGraph.Json
