import LiveSchema.PropertyType.Basic
import Mathlib.Logic.Function.Iterate

/-!
# LiveSchema.Proofs.PropertyType.Grammar

The written forms of property types, as a grammar that says nothing about how a text is read:

    Type   ::= Blanks Base Layers Blanks
    Layers ::= (Blanks '[]')*
    Base   ::= String | Integer | Long | Double | Boolean | Date | Json
             | 'Enum' Blanks '(' Names ')'
             | 'Ref' Blanks '(' Padded ')'
    Names  ::= Padded (',' Padded)*
    Padded ::= Blanks Name Blanks
    Name   ::= [A-Za-z_][A-Za-z0-9_]*

with a space, a tab, a carriage return and a line feed as blanks. Each rule is a relation between
characters and what they stand for; `Denotes` is the rule for a whole type. A type that some text
denotes is well-formed (`Denotes.wellFormed`): its names are names and its enumerations not empty.
-/

namespace LiveSchema.PropertyType

/-! ### Characters -/

/-- A letter of a name. -/
def IsLetter (c : Char) : Prop := 'A' ≤ c ∧ c ≤ 'Z' ∨ 'a' ≤ c ∧ c ≤ 'z' ∨ c = '_'

/-- A character of a name after its first. -/
def IsNameChar (c : Char) : Prop := IsLetter c ∨ '0' ≤ c ∧ c ≤ '9'

instance : DecidablePred IsLetter := fun c =>
  inferInstanceAs (Decidable ('A' ≤ c ∧ c ≤ 'Z' ∨ 'a' ≤ c ∧ c ≤ 'z' ∨ c = '_'))

instance : DecidablePred IsNameChar := fun c =>
  inferInstanceAs (Decidable (IsLetter c ∨ '0' ≤ c ∧ c ≤ '9'))

/-- A blank. -/
def IsBlank (c : Char) : Prop := c ∈ [' ', '\t', '\r', '\n']

instance : DecidablePred IsBlank := fun c =>
  inferInstanceAs (Decidable (c ∈ [' ', '\t', '\r', '\n']))

/-- Any number of blanks. -/
def Blanks (cs : List Char) : Prop := ∀ c ∈ cs, IsBlank c

/-! ### The rules -/

/-- A name. -/
def IsName : List Char → Prop
  | [] => False
  | first :: rest => IsLetter first ∧ ∀ c ∈ rest, IsNameChar c

/-- A name with blanks around it. -/
inductive Padded : List Char → String → Prop where
  | mk {before name after : List Char} (hbefore : Blanks before) (hname : IsName name)
      (hafter : Blanks after) : Padded (before ++ name ++ after) (String.ofList name)

/-- One name or more, with commas between them. -/
inductive Names : List Char → List String → Prop where
  | single {cs : List Char} {name : String} (h : Padded cs name) : Names cs [name]
  | cons {cs rest : List Char} {name : String} {names : List String} (h : Padded cs name)
      (hrest : Names rest names) : Names (cs ++ ',' :: rest) (name :: names)

/-- The name of a scalar type. -/
inductive Scalar : String → PropertyType → Prop where
  | string : Scalar "String" .string
  | integer : Scalar "Integer" .integer
  | long : Scalar "Long" .long
  | double : Scalar "Double" .double
  | boolean : Scalar "Boolean" .boolean
  | date : Scalar "Date" .date
  | json : Scalar "Json" .json

/-- A type that is no collection. -/
inductive Base : List Char → PropertyType → Prop where
  | scalar {name : String} {t : PropertyType} (h : Scalar name t) : Base name.toList t
  | enumeration {gap names : List Char} {values : List String} (hgap : Blanks gap)
      (hnames : Names names values) :
      Base ("Enum".toList ++ gap ++ '(' :: (names ++ [')'])) (.enumeration values)
  | reference {gap name : List Char} {target : String} (hgap : Blanks gap)
      (hname : Padded name target) :
      Base ("Ref".toList ++ gap ++ '(' :: (name ++ [')'])) (.reference target)

/-- A number of collection layers. -/
inductive Layers : List Char → Nat → Prop where
  | nil : Layers [] 0
  | cons {gap rest : List Char} {k : Nat} (hgap : Blanks gap) (hrest : Layers rest k) :
      Layers (gap ++ '[' :: ']' :: rest) (k + 1)

/-- What may follow the base of a type: collection layers, and blanks at the end. -/
inductive Tail : List Char → Nat → Prop where
  | mk {layers after : List Char} {k : Nat} (hlayers : Layers layers k) (hafter : Blanks after) :
      Tail (layers ++ after) k

/-- The characters of a type, and the type: its base inside its collection layers. -/
inductive Denotes : List Char → PropertyType → Prop where
  | mk {before base tail : List Char} {t : PropertyType} {k : Nat} (hbefore : Blanks before)
      (hbase : Base base t) (htail : Tail tail k) :
      Denotes (before ++ (base ++ tail)) (collection^[k] t)

/-! ### Characters of a text -/

@[simp] theorem blanks_nil : Blanks [] := nofun

theorem blanks_append_iff {as bs : List Char} :
    Blanks (as ++ bs) ↔ Blanks as ∧ Blanks bs := by
  simp only [Blanks, List.mem_append, or_imp, forall_and]

theorem IsName.isNameChar {name : List Char} (h : IsName name) {c : Char} (hc : c ∈ name) :
    IsNameChar c := by
  cases name with
  | nil => exact h.elim
  | cons first rest =>
      rcases List.mem_cons.1 hc with rfl | hc
      · exact Or.inl h.1
      · exact h.2 c hc

theorem IsName.ne_nil {name : List Char} (h : IsName name) : name ≠ [] := by
  rintro rfl
  exact h

/-- A blank is no character of a name. -/
theorem not_isNameChar_of_blank {c : Char} (h : IsBlank c) : ¬ IsNameChar c := by
  simp only [IsBlank, List.mem_cons, List.not_mem_nil, or_false] at h
  rcases h with rfl | rfl | rfl | rfl <;> decide

theorem Padded.blank_or_isNameChar {cs : List Char} {name : String} (h : Padded cs name)
    {c : Char} (hc : c ∈ cs) : IsBlank c ∨ IsNameChar c := by
  obtain ⟨hbefore, hname, hafter⟩ := h
  simp only [List.mem_append] at hc
  rcases hc with (hc | hc) | hc
  · exact Or.inl (hbefore c hc)
  · exact Or.inr (hname.isNameChar hc)
  · exact Or.inl (hafter c hc)

theorem Names.blank_or_isNameChar {cs : List Char} {names : List String} (h : Names cs names)
    {c : Char} (hc : c ∈ cs) : IsBlank c ∨ IsNameChar c ∨ c = ',' := by
  induction h with
  | single h => exact (h.blank_or_isNameChar hc).imp_right Or.inl
  | cons h _ ih =>
      simp only [List.mem_append, List.mem_cons] at hc
      rcases hc with hc | rfl | hc
      · exact (h.blank_or_isNameChar hc).imp_right Or.inl
      · exact Or.inr (Or.inr rfl)
      · exact ih hc

theorem Blanks.not_mem {cs : List Char} (h : Blanks cs) {c : Char}
    (hc : ¬ IsBlank c) : c ∉ cs :=
  fun hmem => hc (h c hmem)

theorem Padded.not_mem {cs : List Char} {name : String} (h : Padded cs name) {c : Char}
    (hblank : ¬ IsBlank c) (hname : ¬ IsNameChar c) : c ∉ cs :=
  fun hmem => (h.blank_or_isNameChar hmem).elim hblank hname

theorem Names.not_mem_close {cs : List Char} {names : List String} (h : Names cs names) :
    ')' ∉ cs := by
  intro hmem
  rcases h.blank_or_isNameChar hmem with hblank | hname | hcomma
  · exact absurd hblank (by decide)
  · exact absurd hname (by decide)
  · exact absurd hcomma (by decide)

/-- What follows the base of a type does not go on with a name. -/
theorem Tail.head_not_isNameChar {cs : List Char} {k : Nat} (h : Tail cs k) {c : Char}
    (hc : cs.head? = some c) : ¬ IsNameChar c := by
  obtain ⟨hlayers, hafter⟩ := h
  cases hlayers with
  | nil =>
      rw [List.nil_append] at hc
      exact not_isNameChar_of_blank (hafter c (List.mem_of_head? hc))
  | @cons gap rest k hgap hrest =>
      cases gap with
      | nil =>
          obtain rfl : '[' = c := Option.some.inj hc
          decide
      | cons blank gap =>
          obtain rfl : blank = c := Option.some.inj hc
          exact not_isNameChar_of_blank (hgap blank List.mem_cons_self)

/-! ### Putting texts together -/

theorem Names.blanks_append {gap cs : List Char} {names : List String} (hgap : Blanks gap)
    (h : Names cs names) : Names (gap ++ cs) names := by
  have padded : ∀ {cs : List Char} {name : String}, Padded cs name → Padded (gap ++ cs) name := by
    rintro _ _ ⟨hbefore, hname, hafter⟩
    rw [← List.append_assoc, ← List.append_assoc]
    exact .mk (blanks_append_iff.2 ⟨hgap, hbefore⟩) hname hafter
  cases h with
  | single h => exact .single (padded h)
  | cons h hrest =>
      rw [← List.append_assoc]
      exact .cons (padded h) hrest

theorem Layers.append {as bs : List Char} {k m : Nat} (ha : Layers as k) (hb : Layers bs m) :
    Layers (as ++ bs) (m + k) := by
  induction ha with
  | nil => exact hb
  | @cons gap rest k hgap _ ih =>
      rw [List.append_assoc, List.cons_append, List.cons_append]
      exact .cons hgap ih

theorem Blanks.tail {cs : List Char} (h : Blanks cs) : Tail cs 0 := .mk .nil h

theorem Tail.blanks_append {gap cs : List Char} {k : Nat} (hgap : Blanks gap) (h : Tail cs k) :
    Tail (gap ++ cs) k := by
  obtain ⟨hlayers, hafter⟩ := h
  cases hlayers with
  | nil => exact Blanks.tail (blanks_append_iff.2 ⟨hgap, hafter⟩)
  | cons hfirst hrest =>
      rw [← List.append_assoc, ← List.append_assoc]
      exact .mk (.cons (blanks_append_iff.2 ⟨hgap, hfirst⟩) hrest) hafter

/-- One more layer in front. -/
theorem Tail.cons {cs : List Char} {k : Nat} (h : Tail cs k) : Tail ('[' :: ']' :: cs) (k + 1) := by
  obtain ⟨hlayers, hafter⟩ := h
  exact .mk (.cons blanks_nil hlayers) hafter

/-- One more layer at the end. -/
theorem Tail.snoc {cs : List Char} {k : Nat} (h : Tail cs k) : Tail (cs ++ ['[', ']']) (k + 1) := by
  obtain ⟨hlayers, hafter⟩ := h
  have hlast : Layers (_ ++ ['[', ']']) 1 := .cons hafter .nil
  have htail := Tail.mk (hlayers.append hlast) blanks_nil
  rwa [List.append_nil, ← List.append_assoc, Nat.add_comm] at htail

/-- A collection is written as its items with a layer after them. -/
theorem Denotes.collection {cs : List Char} {t : PropertyType} (h : Denotes cs t) :
    Denotes (cs ++ ['[', ']']) (.collection t) := by
  obtain ⟨hbefore, hbase, htail⟩ := h
  rw [List.append_assoc, List.append_assoc, ← Function.iterate_succ_apply' PropertyType.collection]
  exact .mk hbefore hbase htail.snoc

theorem Base.denotes {cs : List Char} {t : PropertyType} (h : Base cs t) : Denotes cs t := by
  have hdenotes := Denotes.mk blanks_nil h blanks_nil.tail
  rwa [List.nil_append, List.append_nil] at hdenotes

/-! ### Types that can be written -/

/-- Every enumeration inside a type has values, and all its values and every reference are
names. -/
def WellFormed : PropertyType → Prop
  | .enumeration values => values ≠ [] ∧ ∀ value ∈ values, IsName value.toList
  | .reference target => IsName target.toList
  | .collection items => items.WellFormed
  | _ => True

theorem Padded.isName {cs : List Char} {name : String} (h : Padded cs name) :
    IsName name.toList := by
  obtain ⟨-, hname, -⟩ := h
  rwa [String.toList_ofList]

theorem Names.wellFormed {cs : List Char} {names : List String} (h : Names cs names) :
    (PropertyType.enumeration names).WellFormed := by
  induction h with
  | single h => exact ⟨List.cons_ne_nil _ _, by simpa using h.isName⟩
  | cons h _ ih => exact ⟨List.cons_ne_nil _ _, List.forall_mem_cons.2 ⟨h.isName, ih.2⟩⟩

theorem wellFormed_iterate_collection (k : Nat) (t : PropertyType) :
    (collection^[k] t).WellFormed ↔ t.WellFormed := by
  induction k generalizing t with
  | zero => rfl
  | succ k ih => rw [Function.iterate_succ_apply, ih, WellFormed]

/-- A type that some text denotes is well-formed. -/
theorem Denotes.wellFormed {cs : List Char} {t : PropertyType} (h : Denotes cs t) :
    t.WellFormed := by
  obtain ⟨-, hbase, -⟩ := h
  rw [wellFormed_iterate_collection]
  cases hbase with
  | scalar h => cases h <;> trivial
  | enumeration _ hnames => exact hnames.wellFormed
  | reference _ hname => exact hname.isName

end LiveSchema.PropertyType
