import LiveSchema.Text.Emoji
import LiveSchema.Text.Width

/-!
# LiveSchema.Text.Glyph

Characters that are drawn as one. A text is read from its end, so a character meets the glyph that
stands after it: a letter of a script that has ligatures, or an emoji that is not yet complete. By
joining it the character adds the columns by which both together are wider than the glyph was; that
is less than none where the glyph was counted too wide.

* `Letter` — the second half of a ligature, with `Letter.join` for its first half.
* `Glyph` — what may stand after a character, with `Glyph.join`.
* `Glyph.ofCode` — the glyph that a character begins on its own.
* `Glyph.meet` — what stands there once a character stands before a glyph.
-/

namespace LiveSchema.Text

/-! ### Sets of letters -/

/-- Letters of the Arabic group alef. -/
def alefRanges : Array (Nat × Nat) :=
  #[(0x622, 0x623), (0x625, 0x625), (0x627, 0x627), (0x671, 0x673), (0x675, 0x675), (0x773, 0x774),
    (0x870, 0x882)]

/-- Letters of the Arabic group lam. -/
def isLam (code : Nat) : Bool :=
  code == 0x644 || (0x6B5 ≤ code && code ≤ 0x6B8) || code == 0x76A || code == 0x8A6 ||
    code == 0x8C7

/-- Weightless characters that interrupt a line of Arabic writing. -/
def interruptingRanges : Array (Nat × Nat) :=
  #[(0x605, 0x605), (0x890, 0x891), (0x8E2, 0x8E2), (0x9BE, 0x9BE), (0x9D7, 0x9D7), (0xB3E, 0xB3E),
    (0xB57, 0xB57), (0xBBE, 0xBBE), (0xBD7, 0xBD7), (0xCC0, 0xCC0), (0xCC2, 0xCC2), (0xCC7, 0xCC8),
    (0xCCA, 0xCCB), (0xCD5, 0xCD6), (0xD3E, 0xD3E), (0xD4E, 0xD4E), (0xD57, 0xD57), (0xDCF, 0xDCF),
    (0xDDF, 0xDDF), (0x1160, 0x11FF), (0x1715, 0x1715), (0x1734, 0x1734), (0x180E, 0x180E),
    (0x1B35, 0x1B35), (0x1B3B, 0x1B3B), (0x1B3D, 0x1B3D), (0x1B43, 0x1B44), (0x1BAA, 0x1BAA),
    (0x1BF2, 0x1BF3), (0x200C, 0x200D), (0x2065, 0x2069), (0x302E, 0x302F), (0x3164, 0x3164),
    (0xA8FA, 0xA8FA), (0xA953, 0xA953), (0xA9C0, 0xA9C0), (0xD7B0, 0xD7C6), (0xD7CB, 0xD7FB),
    (0xFFA0, 0xFFA0), (0xFFF0, 0xFFF8), (0x111C0, 0x111C0), (0x111C2, 0x111C3), (0x11235, 0x11235),
    (0x1133E, 0x1133E), (0x1134D, 0x1134D), (0x11357, 0x11357), (0x113B8, 0x113B8),
    (0x113C2, 0x113C2), (0x113C5, 0x113C5), (0x113C7, 0x113C9), (0x113CF, 0x113CF),
    (0x113D1, 0x113D1), (0x114B0, 0x114B0), (0x114BD, 0x114BD), (0x115AF, 0x115AF),
    (0x116B6, 0x116B6), (0x11930, 0x11930), (0x1193D, 0x1193D), (0x1193F, 0x1193F),
    (0x11941, 0x11941), (0x11A84, 0x11A89), (0x11D46, 0x11D46), (0x11F02, 0x11F02),
    (0x11F41, 0x11F41), (0x16FF0, 0x16FF1), (0x1D165, 0x1D166), (0x1D16D, 0x1D172),
    (0xE0000, 0xE0000), (0xE0002, 0xE001F), (0xE0080, 0xE00FF), (0xE01F0, 0xE0FFF)]

/-- Whether a code point may stand between an Arabic letter and the next one. -/
def isTransparent (code : Nat) : Bool := isWeightless code && !isInRanges interruptingRanges code

/-- Khmer letters that may be drawn below another. -/
def khmerRanges : Array (Nat × Nat) :=
  #[(0x1780, 0x1782), (0x1784, 0x1787), (0x1789, 0x178C), (0x178E, 0x1793), (0x1795, 0x1798),
    (0x179B, 0x179D), (0x17A0, 0x17A0), (0x17A2, 0x17A2), (0x17A7, 0x17A7), (0x17AB, 0x17AC),
    (0x17AF, 0x17AF)]

/-- Consonants of the Tifinagh script. -/
def isTifinagh (code : Nat) : Bool := (0x2D31 ≤ code && code ≤ 0x2D65) || code == 0x2D6F

/-- Invisible marks that do not part the letters of a ligature. -/
def isIgnorableMark (code : Nat) : Bool :=
  code == 0x34F || code == 0x180F || (0x17B4 ≤ code && code ≤ 0x17B5) ||
    (0x180B ≤ code && code ≤ 0x180D) || (0xFE00 ≤ code && code ≤ 0xFE0F) ||
    (0xE0100 ≤ code && code ≤ 0xE01EF)

/-! ### Glyphs -/

/-- The second half of a ligature. -/
inductive Letter where
  /-- Hebrew lamed, after alef. -/
  | lamed
  /-- Buginese ya, after a vowel sign. -/
  | ya
  /-- Buginese ya with its vowel sign, after a letter. -/
  | yaWithVowel
  /-- A Tifinagh consonant. -/
  | tifinagh
  /-- A Tifinagh consonant and the sign that joins it to the one before. -/
  | tifinaghWithJoiner
  /-- One of the Lisu tones that follow another. -/
  | lisuTone
  /-- Old Turkic i. -/
  | orkhonI
  /-- A Khmer letter that a sign puts below the one before. -/
  | khmer
deriving DecidableEq

/-- What stands after a character, as far as its width depends on it. -/
inductive Glyph where
  /-- Nothing that joins. -/
  | other
  /-- A line feed. -/
  | lineFeed
  /-- An Arabic alef. -/
  | alef
  /-- Another second half of a ligature, and whether a joiner stands before it. -/
  | letter (letter : Letter) (tied : Bool)
  /-- The Kirat Rai vowel sign e. -/
  | vowelE
  /-- The Kirat Rai vowel sign ai. -/
  | vowelAi
  /-- A skin tone. -/
  | tone
  /-- The last letter of a flag. -/
  | flagLetter
  /-- Several letters of flags. -/
  | flagLetters
  /-- A whole emoji. -/
  | emoji
  /-- An emoji with a joiner before it. -/
  | joined
  /-- A joined emoji with the frame of a key before it. -/
  | joinedKeycap
  /-- A joined emoji with one flag letter before it. -/
  | joinedFlagLetter
  /-- A joined emoji with whole flags before it. -/
  | joinedFlags
  /-- A joined emoji with flags and one more flag letter before it. -/
  | joinedFlagsAndLetter
  /-- A joined emoji with the end of a tag sequence before it. -/
  | joinedTags
  /-- The same with so many digits before the end. -/
  | joinedTagDigits (count : Nat)
  /-- The same with so many letters before the end or the digits. -/
  | joinedTagLetters (count : Nat)
deriving DecidableEq

/-- The glyph that a character begins on its own. -/
def Glyph.ofCode (code : Nat) : Glyph :=
  if isInRanges alefRanges code then .alef
  else if code = 0x5DC then .letter .lamed false
  else if isInRanges khmerRanges code then .letter .khmer false
  else if code = 0x1A10 then .letter .ya false
  else if isTifinagh code then .letter .tifinagh false
  else if code = 0xA4FC ∨ code = 0xA4FD then .letter .lisuTone false
  else if code = 0x10C03 then .letter .orkhonI false
  else if code = 0x16D67 then .vowelE
  else if code = 0x16D68 then .vowelAi
  else if isFlagLetter code then .flagLetter
  else if isTone code then .tone
  else if isPictograph code then .emoji
  else .other

/-- Whether a glyph is the second half of a ligature, which a selector does not part from the
first. -/
def Glyph.isLetter : Glyph → Bool
  | .alef => true
  | .letter .. => true
  | _ => false

/-- Whether a selector may stand before a joined glyph. -/
def Glyph.isSelectable : Glyph → Bool
  | .joined => true
  | .joinedKeycap => true
  | _ => false

/-- The glyph once a joiner or an ignorable mark stands before it, if it is left in place. -/
def Glyph.behind (code : Nat) : Glyph → Option Glyph
  | .letter l tied =>
    if code = joiner then some (.letter l true)
    else if isIgnorableMark code then some (.letter l tied)
    else none
  | _ => none

/-- What the first half of a ligature adds to the second, and what both are. -/
def Letter.join (code : Nat) (tied : Bool) : Letter → Option (Int × Glyph)
  | .lamed => if tied ∧ code = 0x5D0 then some (0, .other) else none
  | .ya => if tied ∧ code = 0x1A17 then some (0, .letter .yaWithVowel true) else none
  | .yaWithVowel => if code = 0x1A15 then some (0, .other) else none
  | .tifinagh =>
    if code = 0x2D7F then some (1, .letter .tifinaghWithJoiner true)
    else if tied ∧ isTifinagh code then some (0, .other)
    else none
  | .tifinaghWithJoiner => if isTifinagh code then some (-1, .other) else none
  | .lisuTone => if 0xA4F8 ≤ code ∧ code ≤ 0xA4FB then some (0, .other) else none
  | .orkhonI => if tied ∧ code = 0x10C32 then some (0, .other) else none
  | .khmer => if code = 0x17D2 then some (-1, .other) else none

/-- A joiner before an emoji. -/
def joinEmoji (code : Nat) : Option (Int × Glyph) :=
  if code = joiner then some (0, .joined) else none

/-- What a character adds to a glyph that it joins, and what both are. -/
def Glyph.join (code : Nat) : Glyph → Option (Int × Glyph)
  | .alef =>
    if isLam code then some (0, .other)
    else if isTransparent code then some (0, .alef)
    else none
  | .letter l tied => l.join code tied
  | .vowelE =>
    if code = 0x16D63 ∨ code = 0x16D69 then some (0, .other)
    else if code = 0x16D67 then some (0, .vowelAi)
    else if code = 0x16D68 then some (1, .vowelE)
    else none
  | .vowelAi => if code = 0x16D63 then some (0, .other) else none
  | .tone => if takesTone code then some (0, .emoji) else joinEmoji code
  | .flagLetter => if isFlagLetter code then some (1, .flagLetters) else none
  | .flagLetters => if isFlagLetter code then some (1, .flagLetters) else joinEmoji code
  | .emoji => joinEmoji code
  | .joined =>
    if code = keycap then some (0, .joinedKeycap)
    else if isFlagLetter code then some (1, .joinedFlagLetter)
    else if isTone code then some (0, .tone)
    else if code = cancelTag then some (0, .joinedTags)
    else if isPictograph code then some (0, .emoji)
    else none
  | .joinedFlagLetter => if isFlagLetter code then some (-1, .joinedFlags) else none
  | .joinedFlags =>
    if isFlagLetter code then some (3, .joinedFlagsAndLetter) else joinEmoji code
  | .joinedFlagsAndLetter =>
    if isFlagLetter code then some (-1, .joinedFlags) else joinEmoji code
  | .joinedTags =>
    if isTagLetter code then some (0, .joinedTagLetters 1)
    else if isTagDigit code then some (0, .joinedTagDigits 1)
    else none
  | .joinedTagDigits n =>
    if code = blackFlag ∧ n = 3 then some (0, .emoji)
    else if isTagDigit code ∧ n < 3 then some (0, .joinedTagDigits (n + 1))
    else none
  | .joinedTagLetters n =>
    if code = blackFlag ∧ 3 ≤ n then some (0, .emoji)
    else if isTagLetter code ∧ n < 6 then some (0, .joinedTagLetters (n + 1))
    else if isTagDigit code ∧ n ≤ 4 then some (0, .joinedTagDigits 1)
    else none
  | .joinedKeycap | .lineFeed | .other => none

/-- What a character adds to a glyph that it meets, and what then stands there: the same glyph, both
as one, or the glyph of the character alone. -/
def Glyph.meet (g : Glyph) (code : Nat) : Int × Glyph :=
  match g.behind code with
  | some glyph => (0, glyph)
  | none => (g.join code).getD (codeColumns code, .ofCode code)

end LiveSchema.Text
