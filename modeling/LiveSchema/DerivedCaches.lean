import LiveSchema.CompiledType

/-!
# LiveSchema.DerivedCaches

Answers that were computed from a generation and are kept until the next one. An entry is keyed by
the sequence number of the generation that it was computed from, and is only stored while that
generation is the one the caches were last cleared for: who still reads a replaced generation gets
right answers and leaves nothing behind. Answers about unknown names are not stored, so the caches
cannot be filled with them.
-/

namespace LiveSchema

/-- Stored answers to questions about two names in a generation. -/
structure AnswerCache (α : Type) where
  entries : List ((Nat × String × String) × α) := []

namespace AnswerCache

variable {α : Type}

/-- The stored answer to a question. -/
def find? (c : AnswerCache α) (key : Nat × String × String) : Option α := c.entries.lookup key

/-- The number of stored answers. -/
def size (c : AnswerCache α) : Nat := c.entries.length

/-- What a lookup comes to: the answer, the cache after it, and whether the answer was computed. -/
structure Answer (α : Type) where
  value : α
  cache : AnswerCache α
  computed : Bool

/-- Answer a question from the cache, or compute the answer and store it if `keep` says so. -/
def ask (c : AnswerCache α) (key : Nat × String × String) (keep : Bool) (compute : Unit → α) :
    Answer α :=
  match c.find? key with
  | some value => ⟨value, c, false⟩
  | none =>
    let value := compute ()
    ⟨value, if keep then ⟨(key, value) :: c.entries⟩ else c, true⟩

end AnswerCache

/-- The caches of a registry. -/
structure DerivedCaches where
  /-- The generation that the caches were last cleared for. -/
  current : Nat := 0
  inheritance : AnswerCache Bool := {}
  templates : AnswerCache (List CompiledType) := {}

namespace DerivedCaches

/-- Drop all answers, and store new ones only for the generation of that sequence number. -/
def invalidate (_ : DerivedCaches) (sequence : Nat) : DerivedCaches := { current := sequence }

/-- Whether one type extends another, in a generation. `known` says whether the first is one of its
types. -/
def askInheritance (c : DerivedCaches) (sequence : Nat) (child ancestor : String) (known : Bool)
    (compute : Unit → Bool) : AnswerCache.Answer Bool × DerivedCaches :=
  let answer :=
    c.inheritance.ask (sequence, child, ancestor) (known && c.current = sequence) compute
  (answer, { c with inheritance := answer.cache })

/-- Which relationship types can connect two node types, in a generation. `known` says whether the
first is one of its types. -/
def askTemplates (c : DerivedCaches) (sequence : Nat) (source target : String) (known : Bool)
    (compute : Unit → List CompiledType) :
    AnswerCache.Answer (List CompiledType) × DerivedCaches :=
  let answer := c.templates.ask (sequence, source, target) (known && c.current = sequence) compute
  (answer, { c with templates := answer.cache })

end DerivedCaches

end LiveSchema
