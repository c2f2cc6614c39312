import LiveSchema.Emission

/-!
# LiveSchema.Compile.Error

What can be wrong with a batch of definitions. A batch is rejected as a whole, with everything that
was found.
-/

namespace LiveSchema

/-- One thing wrong with a batch. -/
inductive CompileError where
  | definition (cause : DefinitionError)
  | duplicateType (name : String)
  | duplicateHelper (name : String)
  | orphanHelper (helper owner : String) (ownerKind : Kind)
  | unresolvedParent (typeName parent : String)
  | kindMismatch (typeName : String) (kind : Kind) (parent : String)
  | inheritanceCycle (members : List String)
  | unresolvedReference (typeName property target : String)
  | unresolvedEndpoint (typeName endpoint : String)
  | unknownViewProperty (typeName view property : String)
deriving DecidableEq

/-- The wording of one thing. -/
def CompileError.message : CompileError → String
  | .definition cause => cause.message
  | .duplicateType name => "Type name '" ++ name ++ "' is defined more than once"
  | .duplicateHelper name => "Helper unit '" ++ name ++ "' is emitted more than once"
  | .orphanHelper helper owner kind =>
    "Helper unit '" ++ helper ++ "' has no owning " ++ kind.name ++ " type '" ++ owner ++ "'"
  | .unresolvedParent t parent => "Type '" ++ t ++ "' extends unknown type '" ++ parent ++ "'"
  | .kindMismatch t kind parent =>
    "Type '" ++ t ++ "' (" ++ kind.name ++ ") cannot extend '" ++ parent ++
      "' of a different kind"
  | .inheritanceCycle members => "Inheritance cycle between " ++ ", ".intercalate members
  | .unresolvedReference t p target =>
    "Property '" ++ t ++ "." ++ p ++ "' references unknown node type '" ++ target ++ "'"
  | .unresolvedEndpoint t endpoint =>
    "Relationship '" ++ t ++ "' has unknown endpoint type '" ++ endpoint ++ "'"
  | .unknownViewProperty t view p =>
    "View '" ++ view ++ "' of type '" ++ t ++ "' lists unknown property '" ++ p ++ "'"

/-- The wording of everything wrong with a batch. -/
def CompileError.summary (errors : List CompileError) : String :=
  toString errors.length ++ " compile error(s): " ++
    "; ".intercalate (errors.map CompileError.message)

end LiveSchema
