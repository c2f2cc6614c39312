import LiveSchema.Index.Key

/-!
# LiveSchema.Index.Catalog

The index catalog of the database, and the statements that change it. The catalog logs every
statement that reaches it, also one that it rejects. Creating an index that exists, or dropping one
that does not, succeeds and changes nothing.

A gate stands in front of the catalog. While it is closed, statements of the engine wait, and go
through one by one as they are let through.
-/

namespace LiveSchema

/-- A statement about one index. -/
inductive IndexStatement where
  | create (key : IndexKey)
  | drop (key : IndexKey)
deriving DecidableEq, Repr

namespace IndexStatement

/-- What a statement is about. -/
def key : IndexStatement → IndexKey
  | .create key => key
  | .drop key => key

/-- Whether a statement creates an index. -/
def isCreate : IndexStatement → Bool
  | .create _ => true
  | .drop _ => false

/-- The text of a statement. -/
def text : IndexStatement → String
  | .create key => "CREATE INDEX ON :" ++ key.typeName ++ "(" ++ key.property ++ ")"
  | .drop key => "DROP INDEX ON :" ++ key.typeName ++ "(" ++ key.property ++ ")"

end IndexStatement

/-- Why a statement fails. -/
inductive CatalogError where
  | rejected (statement : IndexStatement) (reason : String)
deriving DecidableEq

/-- The wording of a failure. -/
def CatalogError.message : CatalogError → String
  | .rejected statement reason =>
    "Index statement '" ++ statement.text ++ "' rejected: " ++ reason

/-- The indexes that exist, the statements that arrived, and the properties whose statements fail.
-/
structure Catalog where
  indexes : SortedMap IndexKey Unit := .empty
  calls : List IndexStatement := []
  failing : SortedMap IndexKey Unit := .empty

namespace Catalog

/-- Whether an index exists. -/
def has (c : Catalog) (key : IndexKey) : Bool := c.indexes.contains key

/-- Make every statement about an index fail. -/
def failOn (c : Catalog) (key : IndexKey) : Catalog := { c with failing := c.failing.insert key () }

/-- Let no statement fail any more. -/
def clearFailures (c : Catalog) : Catalog := { c with failing := .empty }

/-- The effect of a statement that is not rejected. -/
def apply (c : Catalog) : IndexStatement → Catalog
  | .create key => { c with indexes := c.indexes.insert key () }
  | .drop key => { c with indexes := c.indexes.erase key }

/-- Take a statement: the catalog after it, and whether it failed. -/
def issue (c : Catalog) (statement : IndexStatement) : Catalog × Option CatalogError :=
  let logged := { c with calls := c.calls ++ [statement] }
  if c.failing.contains statement.key then
    (logged, some (.rejected statement "injected failure"))
  else (logged.apply statement, none)

end Catalog

/-- The gate in front of a catalog. -/
structure Gate where
  closed : Bool := false
  /-- How many statements the closed gate still lets through. -/
  permits : Nat := 0

namespace Gate

/-- Open or close the gate; permits that were not used are lost. -/
def setClosed (_ : Gate) (closed : Bool) : Gate := ⟨closed, 0⟩

/-- Let more statements through. -/
def allow (g : Gate) (n : Nat) : Gate := { g with permits := g.permits + n }

/-- Pass the gate with one statement, if it is open or has a permit. -/
def pass? (g : Gate) : Option Gate :=
  if g.closed then
    match g.permits with
    | 0 => none
    | n + 1 => some { g with permits := n }
  else some g

end Gate

end LiveSchema
