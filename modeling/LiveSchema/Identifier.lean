/-!
# LiveSchema.Identifier

Names of types, properties and views: an ASCII letter or an underscore, then ASCII letters, digits
and underscores. `isIdentifier` is the test; `takeIdentifier` splits the longest identifier off the
front of a text.
-/

namespace LiveSchema

/-- A character that an identifier can begin with. -/
def isIdentifierStart (c : Char) : Bool := c.isAlpha || c = '_'

/-- A character inside an identifier. -/
def isIdentifierPart (c : Char) : Bool := c.isAlphanum || c = '_'

/-- Whether a list of characters is an identifier. -/
def isIdentifierChars : List Char → Bool
  | [] => false
  | c :: rest => isIdentifierStart c && rest.all isIdentifierPart

/-- Whether a text is an identifier. -/
def isIdentifier (s : String) : Bool := isIdentifierChars s.toList

/-- The longest identifier at the front, and what follows it. -/
def takeIdentifier : List Char → Option (List Char × List Char)
  | [] => none
  | c :: rest =>
    if isIdentifierStart c then
      some (c :: rest.takeWhile isIdentifierPart, rest.dropWhile isIdentifierPart)
    else none

theorem isIdentifierPart_of_start {c : Char} (h : isIdentifierStart c = true) :
    isIdentifierPart c = true := by
  simp only [isIdentifierStart, isIdentifierPart, Char.isAlphanum, Bool.or_eq_true] at *
  exact h.imp_left .inl

/-- Nothing is lost by the split. -/
theorem append_of_takeIdentifier {cs name rest : List Char}
    (h : takeIdentifier cs = some (name, rest)) : name ++ rest = cs := by
  cases cs with
  | nil => simp [takeIdentifier] at h
  | cons c cs =>
    simp only [takeIdentifier] at h
    split at h
    · obtain ⟨rfl, rfl⟩ := Prod.mk.inj (Option.some.inj h)
      simp [List.takeWhile_append_dropWhile]
    · simp at h

end LiveSchema
