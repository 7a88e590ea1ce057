import DcpuAsm.Terminal.Emoji
import DcpuAsm.Terminal.Ligature

/-!
How a text starts, as far as that can change the columns of what is put in front of it. Emoji
sequences and ligatures take fewer columns than their characters alone; which of them a text starts
with is its `Onset`, and `Onset.push` puts one more character in front. Columns that a character in
front may still take away are `pending`, all others are settled for good.
-/

namespace DcpuAsm

/-- What a text starts with. Joined is what has a joiner in front that waits for an emoji. -/
inductive Lead where
  /-- Nothing that a character in front has a part in. -/
  | plain
  | emoji
  | skinTone
  | flagLetter
  /-- Two flag letters or more. -/
  | flagLetters
  | joinedEmoji
  /-- A keycap in front of a joined emoji. -/
  | joinedKeycap
  /-- A flag letter in front of a joined emoji. -/
  | joinedFlagLetter
  /-- Two flag letters or more in front of a joined emoji. -/
  | joinedFlagLetters (odd : Bool)
  /-- Tag letters in front of the tag that ends the run, and a joined emoji behind it. -/
  | joinedTagLetters (count : Nat)
  /-- Tag digits in front of such a run. -/
  | joinedTagDigits (count : Nat)
  /-- A letter, with a joiner in front or not. -/
  | ligature (letter : Ligature) (joined : Bool)
  deriving DecidableEq, Repr

/-- The two styles of a character that has a choice. -/
inductive Style where
  | text
  | emoji
  deriving DecidableEq, Repr

/-- How a text starts: a selector of a style, if there is one, and what stands behind it. -/
structure Onset where
  lead : Lead
  style : Option Style
  deriving DecidableEq, Repr

/-- The onset of a text that no character in front has a part in. -/
def Onset.plain : Onset := ⟨.plain, none⟩

/-! ### What a lead is -/

/-- The columns that a character in front may still take away. -/
def Lead.pending : Lead → Nat
  | .joinedFlagLetter | .joinedFlagLetters true => 1
  | .ligature .joinedConsonant _ | .ligature .subscriptLetter _ => 1
  | _ => 0

def Lead.isLigature : Lead → Bool
  | .ligature _ _ => true
  | _ => false

/-- May an emoji that is chosen by a selector stand in front of the joiner? -/
def Lead.awaitsStyled : Lead → Bool
  | .joinedEmoji | .joinedKeycap => true
  | _ => false

/-- What a text of one character starts with. -/
def Lead.ofChar (c : Char) : Lead :=
  if isFlagLetter c then .flagLetter
  else if isSkinTone c then .skinTone
  else if isEmoji c then .emoji
  else match Ligature.ofChar? c with
    | some letter => .ligature letter false
    | none => .plain

/-! ### Characters that join a lead -/

/-- The letter that is open for more once a character is drawn into a letter. There is none if the
ligature is complete. The character may have no part in the letter. -/
def Ligature.draw? (joined : Bool) (c : Char) : Ligature → Option (Option Ligature)
  | .alef => if inRanges lamRanges c.toNat then some none else none
  | .lamed => if joined ∧ c = '\u05d0' then some none else none
  | .ya => if joined ∧ c = '\u1a17' then some (some .yaBehindVowel) else none
  | .yaBehindVowel => if c = '\u1a15' then some none else none
  | .consonant =>
    if c = '\u2d7f' then some (some .joinedConsonant)
    else if joined ∧ inRanges consonantRanges c.toNat then some none
    else none
  | .joinedConsonant => if inRanges consonantRanges c.toNat then some none else none
  | .toneLetter => if inRanges [(0xA4F8, 0xA4FB)] c.toNat then some none else none
  | .orkhonI => if joined ∧ c.toNat = 0x10C32 then some none else none
  | .subscriptLetter => if c = '\u17d2' then some none else none

/-- A letter with a character in front that has a part in it. -/
def Ligature.join? (joined : Bool) (c : Char) (letter : Ligature) : Option Lead :=
  if letter = .alef ∧ isJoiningMark c then some (.ligature letter joined)
  else if letter ≠ .alef ∧ c = zeroWidthJoiner then some (.ligature letter true)
  else if letter ≠ .alef ∧ isIgnorableMark c then some (.ligature letter joined)
  else (letter.draw? joined c).map fun
    | some next => .ligature next false
    | none => .plain

/-- A lead with a character in front that has a part in it, and the columns settled by that. -/
def Lead.join? (c : Char) : Lead → Option (Nat × Lead)
  | .plain => none
  | .emoji => if c = zeroWidthJoiner then some (0, .joinedEmoji) else none
  | .skinTone =>
    if isModifierBase c then some (0, .emoji)
    else if c = zeroWidthJoiner then some (0, .joinedEmoji)
    else none
  | .flagLetter => if isFlagLetter c then some (1, .flagLetters) else none
  | .flagLetters =>
    if isFlagLetter c then some (1, .flagLetters)
    else if c = zeroWidthJoiner then some (0, .joinedEmoji)
    else none
  | .joinedEmoji =>
    if isFlagLetter c then some (0, .joinedFlagLetter)
    else if isSkinTone c then some (0, .skinTone)
    else if isEmoji c then some (0, .emoji)
    else if c = keycap then some (0, .joinedKeycap)
    else if isCancelTag c then some (0, .joinedTagLetters 0)
    else none
  | .joinedKeycap => none
  | .joinedFlagLetter => if isFlagLetter c then some (0, .joinedFlagLetters false) else none
  | .joinedFlagLetters odd =>
    if isFlagLetter c then some (if odd then 0 else 2, .joinedFlagLetters !odd)
    else if c = zeroWidthJoiner then some (if odd then 1 else 0, .joinedEmoji)
    else none
  | .joinedTagLetters count =>
    if isTagLetter c ∧ count < 6 then some (0, .joinedTagLetters (count + 1))
    else if isTagDigit c ∧ count < 5 then some (0, .joinedTagDigits 1)
    else if isTagBase c ∧ 3 ≤ count then some (0, .emoji)
    else none
  | .joinedTagDigits count =>
    if isTagDigit c ∧ count < 3 then some (0, .joinedTagDigits (count + 1))
    else if isTagBase c ∧ count = 3 then some (0, .emoji)
    else none
  | .ligature letter joined => (letter.join? joined c).map fun lead => (0, lead)

/-- Puts a character in front of a lead: the columns settled by that, and the new lead. -/
def Lead.push (c : Char) (lead : Lead) : Nat × Lead :=
  match lead.join? c with
  | some pushed => pushed
  | none => (lead.pending + (charWidth c - (Lead.ofChar c).pending), .ofChar c)

/-! ### Selectors -/

/-- What a selector leaves of the lead behind it once it has found no character to style. -/
def Onset.unstyled (o : Onset) : Lead :=
  if o.style = none ∨ o.lead.isLigature then o.lead else .plain

/-- Puts a selector in front of a lead. Ligatures reach over it, and an emoji that is chosen by it may
be joined. -/
def Lead.select (style : Style) (lead : Lead) : Nat × Onset :=
  if lead.isLigature ∨ style = .emoji ∧ lead.awaitsStyled then (0, ⟨lead, some style⟩)
  else (lead.pending, ⟨.plain, some style⟩)

/-- Puts a character in front of an onset: the columns settled by that, and the new onset. -/
def Onset.push (c : Char) (o : Onset) : Nat × Onset :=
  if o.style = some .emoji ∧ hasStyles c then
    (o.lead.pending + if o.lead.awaitsStyled then 0 else 2, ⟨.emoji, none⟩)
  else if c.toNat ≤ 0xA0 then (o.lead.pending + 1, .plain)
  else if c = emojiSelector then o.unstyled.select .emoji
  else if c = textSelector then o.unstyled.select .text
  else if o.style = some .text ∧ narrowsInText c then (o.lead.pending + 1, .plain)
  else
    let (settled, lead) := o.unstyled.push c
    (settled, ⟨lead, none⟩)

/-- A space settles all that is pending behind it, and nothing in front of it reaches beyond. -/
theorem Onset.push_space (o : Onset) : o.push ' ' = (o.lead.pending + 1, .plain) := by
  have h : hasStyles ' ' = false := by decide
  simp [Onset.push, h]

end DcpuAsm
