import LiveSchema.Text.Glyph

/-!
# LiveSchema.Text.Columns

How many columns of a terminal a text takes. A character takes its own width
(`LiveSchema.Text.Width`) unless it is drawn together with what stands after it
(`LiveSchema.Text.Glyph`), or a selector that stands after it chooses its form. So a text is read
from its end, and `Ahead` holds what has been met there.

* `step` — the columns that one character adds.
* `columns` — the columns of a text.
-/

namespace LiveSchema.Text

/-- Characters that choose the form of the character before them. -/
inductive Selector where
  /-- The form of a pictograph. -/
  | emoji
  /-- The form of narrow text. -/
  | text
  /-- The wide form of a quotation mark. -/
  | wide

/-- The selector that a code point is. -/
def selector? (code : Nat) : Option Selector :=
  if code = 0xFE0F then some .emoji
  else if code = 0xFE0E then some .text
  else if code = 0xFE01 then some .wide
  else none

/-- Whether a code point is a quotation mark that has a wide form. -/
def isCurvedQuote (code : Nat) : Bool :=
  code == 0x2018 || code == 0x2019 || code == 0x201C || code == 0x201D

/-- What stands after a character: a glyph, and the selectors before it that wait for their
character. -/
structure Ahead where
  glyph : Glyph := .other
  emoji : Bool := false
  text : Bool := false
  wide : Bool := false

namespace Ahead

/-- Put a selector before a glyph. A glyph that does not bear it is not joined any more. -/
def select (a : Ahead) (s : Selector) : Ahead :=
  let bears := match s with
    | .emoji => a.glyph.isLetter || a.glyph.isSelectable
    | _ => a.glyph.isLetter
  let a := if bears then a else {}
  match s with
  | .emoji => { a with emoji := true }
  | .text => { a with text := true }
  | .wide => { a with wide := true }

/-- A selector for a pictograph that stood before no such character goes unused. -/
def dropEmoji (a : Ahead) : Ahead :=
  if a.emoji then { a with emoji := false, glyph := if a.glyph.isLetter then a.glyph else .other }
  else a

end Ahead

/-- The last of the code points of plain Latin: controls, signs, letters and the fixed blank. -/
def lastPlain : Nat := 0xA0

/-- A control, sign or letter of plain Latin takes one column. A return and a line feed take one
together. -/
def plainStep (code : Nat) (a : Ahead) : Int × Ahead :=
  if code = 0x0A then (1, { glyph := .lineFeed })
  else if code = 0x0D ∧ a.glyph = .lineFeed then (0, {})
  else (1, {})

/-- The columns that a character adds to what stands after it, and what then stands there. A
selector goes unused if the next character that is none does not take it. -/
def step (code : Nat) (a : Ahead) : Int × Ahead :=
  if a.emoji ∧ takesEmojiSelector code then
    (if a.glyph.isSelectable then 0 else 2, { glyph := .emoji })
  else
    let a := a.dropEmoji
    if code ≤ lastPlain then plainStep code a
    else
      match selector? code with
      | some s => (0, a.select s)
      | none =>
        if a.text ∧ takesTextSelector code then (1, {})
        else if a.wide ∧ isCurvedQuote code then (2, {})
        else
          let (added, glyph) := a.glyph.meet code
          (added, { glyph := glyph })

/-- Put a character before a text of which the columns are known. -/
def before (c : Char) (rest : Int × Ahead) : Int × Ahead :=
  let (added, a) := step c.toNat rest.2
  (rest.1 + added, a)

/-- The number of columns that a text takes. -/
def columns (s : String) : Nat := (s.toList.foldr before (0, {})).1.toNat

end LiveSchema.Text
