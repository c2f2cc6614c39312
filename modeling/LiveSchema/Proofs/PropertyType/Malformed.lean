import LiveSchema.Proofs.PropertyType.Reading
import Mathlib.Data.List.Basic

/-!
# LiveSchema.Proofs.PropertyType.Malformed

Texts that denote no type. Whatever the grammar does not give is refused, and `Malformed` lists ways
of not being given: something after a complete type, brackets that are not `[]`, a missing name
before a closing parenthesis, a keyword that goes on, a character outside ASCII. None of them says
where in the text it happens or what else the text contains.

* `Malformed.not_denotes` — a malformed text denotes no type.
* `parse_follows_grammar` — reading accepts exactly what the grammar gives, with the value that it
  gives, and refuses everything else.
-/

namespace LiveSchema.PropertyType

/-- The words that a base begins with. -/
def keywords : List String :=
  ["String", "Integer", "Long", "Double", "Boolean", "Date", "Json", "Enum", "Ref"]

/-- Ways of denoting no type. -/
inductive Malformed : List Char → Prop where
  /-- Something follows a complete type that is neither layers nor blanks. -/
  | junk {cs rest : List Char} {t : PropertyType} (h : Denotes cs t) (hrest : ∀ k, ¬ Tail rest k) :
      Malformed (cs ++ rest)
  /-- A bracket is not closed at once. -/
  | bracket {before after : List Char} (h : after.head? ≠ some ']') :
      Malformed (before ++ '[' :: after)
  /-- No name stands between the parentheses. -/
  | emptyList {before gap after : List Char} (h : Blanks gap) :
      Malformed (before ++ '(' :: (gap ++ ')' :: after))
  /-- No name follows the last comma. -/
  | commaAtEnd {before gap after : List Char} (h : Blanks gap) :
      Malformed (before ++ ',' :: (gap ++ ')' :: after))
  /-- The first word only begins with a keyword. -/
  | longKeyword {before after : List Char} {keyword : String} {c : Char} (hbefore : Blanks before)
      (h : keyword ∈ keywords) (hc : IsNameChar c) :
      Malformed (before ++ (keyword.toList ++ c :: after))
  /-- A character is not ASCII. -/
  | foreign {before after : List Char} {c : Char} (h : 128 ≤ c.toNat) :
      Malformed (before ++ c :: after)

/-! ### Characters of a type -/

theorem Scalar.mem_keywords {name : String} {t : PropertyType} (h : Scalar name t) :
    name ∈ keywords := by
  cases h <;> decide

theorem isNameChar_of_mem_keyword {keyword : String} (h : keyword ∈ keywords) {c : Char}
    (hc : c ∈ keyword.toList) : IsNameChar c := by
  have hall : keywords.all (·.toList.all fun c => decide (IsNameChar c)) = true := by decide
  exact of_decide_eq_true (List.all_eq_true.1 (List.all_eq_true.1 hall keyword h) c hc)

theorem ne_nil_of_mem_keywords {keyword : String} (h : keyword ∈ keywords) :
    keyword.toList ≠ [] := by
  revert keyword
  decide

theorem Tail.mem {cs : List Char} {k : Nat} (h : Tail cs k) {c : Char} (hc : c ∈ cs) :
    IsBlank c ∨ c ∈ ['[', ']'] := by
  obtain ⟨hlayers, hafter⟩ := h
  rcases List.mem_append.1 hc with hc | hc
  · induction hlayers with
    | nil => cases hc
    | cons hgap _ ih =>
        rcases List.mem_append.1 hc with hc | hc
        · exact Or.inl (hgap c hc)
        · simp only [List.mem_cons] at hc
          rcases hc with rfl | rfl | hc
          · exact Or.inr (by decide)
          · exact Or.inr (by decide)
          · exact ih (List.mem_append_left _ hc) hc
  · exact Or.inl (hafter c hc)

theorem Padded.exists_last {cs : List Char} {name : String} (h : Padded cs name) :
    ∃ front c after, cs = front ++ c :: after ∧ IsNameChar c ∧ Blanks after := by
  obtain ⟨hbefore, hname, hafter⟩ := h
  rename_i before name after
  refine ⟨before ++ name.dropLast, name.getLast hname.ne_nil, after, ?_,
    hname.isNameChar (List.getLast_mem _), hafter⟩
  calc before ++ name ++ after
      = before ++ (name.dropLast ++ [name.getLast hname.ne_nil]) ++ after := by
        rw [List.dropLast_append_getLast]
    _ = before ++ name.dropLast ++ name.getLast hname.ne_nil :: after := by
        rw [← List.append_assoc, List.append_assoc _ [_]]
        rfl

/-- A list of names ends in a name. -/
theorem Names.exists_last {cs : List Char} {names : List String} (h : Names cs names) :
    ∃ front c after, cs = front ++ c :: after ∧ IsNameChar c ∧ Blanks after := by
  induction h with
  | single h => exact h.exists_last
  | @cons cs rest _ _ _ _ ih =>
      obtain ⟨front, c, after, rfl, hc, hafter⟩ := ih
      exact ⟨cs ++ ',' :: front, c, after, by simp, hc, hafter⟩

/-- What the closing parenthesis of a base follows, after blanks, is a name; and it is the only
closing parenthesis. -/
theorem exists_before_close {keyword : String} {gap content : List Char}
    (hkeyword : keyword ∈ keywords) (hgap : Blanks gap)
    (hcontent : ∀ x ∈ content, IsBlank x ∨ IsNameChar x ∨ x = ',')
    (hlast : ∃ front c after, content = front ++ c :: after ∧ IsNameChar c ∧ Blanks after) :
    ∃ front c after, keyword.toList ++ gap ++ '(' :: (content ++ [')']) =
        front ++ c :: (after ++ [')']) ∧ IsNameChar c ∧ Blanks after ∧
      ∀ x ∈ front, IsBlank x ∨ IsNameChar x ∨ x ∈ ['(', ','] := by
  obtain ⟨front, c, after, rfl, hc, hafter⟩ := hlast
  refine ⟨keyword.toList ++ gap ++ '(' :: front, c, after, by simp, hc, hafter, ?_⟩
  intro x hx
  simp only [List.mem_append, List.mem_cons] at hx
  rcases hx with (hx | hx) | rfl | hx
  · exact Or.inr (Or.inl (isNameChar_of_mem_keyword hkeyword hx))
  · exact Or.inl (hgap x hx)
  · exact Or.inr (Or.inr (by decide))
  · rcases hcontent x (List.mem_append_left _ hx) with hx | hx | rfl
    · exact Or.inl hx
    · exact Or.inr (Or.inl hx)
    · exact Or.inr (Or.inr (by decide))

/-- The base of a type is a scalar, or ends in a closing parenthesis. -/
theorem Base.cases_close {base : List Char} {t : PropertyType} (h : Base base t) :
    (∃ name, Scalar name t ∧ base = name.toList) ∨
      ∃ front c after, base = front ++ c :: (after ++ [')']) ∧ IsNameChar c ∧ Blanks after ∧
        ∀ x ∈ front, IsBlank x ∨ IsNameChar x ∨ x ∈ ['(', ','] := by
  cases h with
  | scalar h => exact Or.inl ⟨_, h, rfl⟩
  | enumeration hgap hnames =>
      exact Or.inr (exists_before_close (by decide) hgap (fun _ hx => hnames.blank_or_isNameChar hx)
        hnames.exists_last)
  | reference hgap hname =>
      exact Or.inr (exists_before_close (by decide) hgap
        (fun _ hx => (hname.blank_or_isNameChar hx).imp_right Or.inl) hname.exists_last)

theorem Base.mem {base : List Char} {t : PropertyType} (h : Base base t) {c : Char}
    (hc : c ∈ base) : IsBlank c ∨ IsNameChar c ∨ c ∈ ['(', ')', ','] := by
  rcases h.cases_close with ⟨name, hscalar, rfl⟩ | ⟨front, last, after, rfl, hlast, hafter, hfront⟩
  · exact Or.inr (Or.inl (hscalar.isName.isNameChar hc))
  · simp only [List.mem_append, List.mem_cons, List.not_mem_nil, or_false] at hc
    rcases hc with hc | rfl | hc | rfl
    · have hopen : ['(', ','].Sublist ['(', ')', ','] := by decide
      exact (hfront c hc).imp_right (Or.imp_right fun hmem => hopen.subset hmem)
    · exact Or.inr (Or.inl hlast)
    · exact Or.inl (hafter c hc)
    · exact Or.inr (Or.inr (by decide))

/-- Every character of a type. -/
theorem Denotes.mem {cs : List Char} {t : PropertyType} (h : Denotes cs t) {c : Char}
    (hc : c ∈ cs) : IsBlank c ∨ IsNameChar c ∨ c ∈ ['(', ')', ',', '[', ']'] := by
  obtain ⟨hbefore, hbase, htail⟩ := h
  simp only [List.mem_append] at hc
  rcases hc with hc | hc | hc
  · exact Or.inl (hbefore c hc)
  · rcases hbase.mem hc with hc | hc | hc
    · exact Or.inl hc
    · exact Or.inr (Or.inl hc)
    · exact Or.inr (Or.inr (List.mem_append_left ['[', ']'] hc))
  · rcases htail.mem hc with hc | hc
    · exact Or.inl hc
    · exact Or.inr (Or.inr (List.mem_append_right ['(', ')', ','] hc))

theorem isAscii_of_mem {c : Char} (h : IsBlank c ∨ IsNameChar c ∨ c ∈ ['(', ')', ',', '[', ']']) :
    c.toNat < 128 := by
  rcases h with h | h | h
  · simp only [IsBlank, List.mem_cons, List.not_mem_nil, or_false] at h
    rcases h with rfl | rfl | rfl | rfl <;> decide
  · simp only [IsNameChar, IsLetter, Char.le_def, UInt32.le_iff_toNat_le] at h
    have hchar : c.toNat = c.val.toNat := rfl
    rcases h with (⟨-, h⟩ | ⟨-, h⟩ | rfl) | ⟨-, h⟩
    · exact Nat.lt_of_le_of_lt h (by decide)
    · exact Nat.lt_of_le_of_lt h (by decide)
    · decide
    · exact Nat.lt_of_le_of_lt h (by decide)
  · simp only [List.mem_cons, List.not_mem_nil, or_false] at h
    rcases h with rfl | rfl | rfl | rfl | rfl <;> decide

/-! ### Where texts go wrong -/

/-- The last character that is no blank. -/
theorem eq_of_append_blanks {front front' after after' : List Char} {c c' : Char} (hc : ¬ IsBlank c)
    (hc' : ¬ IsBlank c') (hafter : Blanks after) (hafter' : Blanks after')
    (h : front ++ c :: after = front' ++ c' :: after') : c = c' := by
  rcases List.append_eq_append_iff.1 h with ⟨between, -, hrest⟩ | ⟨between, -, hrest⟩
  · cases between with
    | nil => exact (List.cons.inj hrest).1
    | cons x between =>
        rw [List.cons_append] at hrest
        have hmem : c' ∈ after :=
          (List.cons.inj hrest).2 ▸ List.mem_append_right _ List.mem_cons_self
        exact absurd (hafter c' hmem) hc'
  · cases between with
    | nil => exact (List.cons.inj hrest).1.symm
    | cons x between =>
        rw [List.cons_append] at hrest
        have hmem : c ∈ after' :=
          (List.cons.inj hrest).2 ▸ List.mem_append_right _ List.mem_cons_self
        exact absurd (hafter' c hmem) hc

/-- Between an opening parenthesis or a comma and the closing parenthesis stands a name. -/
theorem Denotes.ne_of_blanks {cs : List Char} {t : PropertyType} (h : Denotes cs t)
    {before gap after : List Char} {c : Char} (hblank : ¬ IsBlank c) (hc : ¬ IsNameChar c)
    (hgap : Blanks gap) : cs ≠ before ++ c :: (gap ++ ')' :: after) := by
  obtain ⟨hblanks, hbase, htail⟩ := h
  rename_i blanks base tail _ _
  intro hcs
  have hnot : ')' ∉ tail := fun hmem => absurd (htail.mem hmem) (by decide)
  rcases hbase.cases_close with ⟨name, hscalar, rfl⟩ |
    ⟨front, last, trailing, rfl, hlast, htrailing, hfront⟩
  · -- nowhere is a parenthesis
    have hmem : ')' ∈ blanks ++ (name.toList ++ tail) := by
      rw [hcs]
      simp
    simp only [List.mem_append] at hmem
    rcases hmem with hmem | hmem | hmem
    · exact absurd (hblanks _ hmem) (by decide)
    · exact absurd (hscalar.isName.isNameChar hmem) (by decide)
    · exact hnot hmem
  · -- both sides end in the same way, up to the parenthesis
    have hsplit : (blanks ++ front ++ last :: trailing) ++ ')' :: tail =
        (before ++ c :: gap) ++ ')' :: after := by
      simpa using hcs
    have hfree : ')' ∉ blanks ++ front ++ last :: trailing := by
      simp only [List.mem_append, List.mem_cons]
      rintro ((hmem | hmem) | rfl | hmem)
      · exact absurd (hblanks _ hmem) (by decide)
      · exact absurd (hfront _ hmem) (by decide)
      · exact absurd hlast (by decide)
      · exact absurd (htrailing _ hmem) (by decide)
    have hfront' := ((List.append_cons_inj_of_notMem hfree hnot).1 hsplit).1
    have heq : last = c :=
      eq_of_append_blanks (fun hb => not_isNameChar_of_blank hb hlast) hblank htrailing hgap hfront'
    exact hc (heq ▸ hlast)

theorem exists_of_append_eq {a : Char} {as bs before after : List Char} (ha : a ∉ as)
    (h : as ++ bs = before ++ a :: after) : ∃ middle, bs = middle ++ a :: after := by
  rcases List.append_eq_append_iff.1 h with ⟨between, -, hbs⟩ | ⟨between, has, hbs⟩
  · exact ⟨between, hbs⟩
  · cases between with
    | nil => exact ⟨[], hbs.symm⟩
    | cons x between =>
        obtain rfl : a = x := (List.cons.inj hbs).1
        exact absurd (has ▸ List.mem_append_right _ List.mem_cons_self) ha

/-- A bracket of a layer is closed at once. -/
theorem Tail.head_of_bracket {cs before after : List Char} {k : Nat} (h : Tail cs k)
    (hcs : cs = before ++ '[' :: after) : after.head? = some ']' := by
  obtain ⟨hlayers, hafter⟩ := h
  induction hlayers generalizing before with
  | nil =>
      have hmem : '[' ∈ before ++ '[' :: after := List.mem_append_right _ List.mem_cons_self
      exact absurd (hafter _ (hcs ▸ hmem)) (by decide)
  | @cons gap rest _ hgap _ ih =>
      rw [List.append_assoc] at hcs
      obtain ⟨middle, hmiddle⟩ := exists_of_append_eq (hgap.not_mem (by decide)) hcs
      match middle, hmiddle with
      | [], hmiddle =>
          rw [← (List.cons.inj hmiddle).2]
          rfl
      | [_], hmiddle =>
          have hclose := (List.cons.inj (List.cons.inj hmiddle).2).1
          exact absurd hclose (by decide)
      | _ :: _ :: middle, hmiddle => exact ih (List.cons.inj (List.cons.inj hmiddle).2).2

theorem Denotes.head_of_bracket {cs before after : List Char} {t : PropertyType}
    (h : Denotes cs t) (hcs : cs = before ++ '[' :: after) : after.head? = some ']' := by
  obtain ⟨hbefore, hbase, htail⟩ := h
  obtain ⟨_, hrest⟩ := exists_of_append_eq (hbefore.not_mem (by decide)) hcs
  have hbracket : '[' ∉ _ := fun hmem => absurd (hbase.mem hmem) (by decide)
  obtain ⟨_, htail'⟩ := exists_of_append_eq hbracket hrest
  exact htail.head_of_bracket htail'

/-! ### The first word -/

theorem keyword_eq_of_prefix {keyword word : String} (h : keyword ∈ keywords)
    (hword : word ∈ keywords) (hbegins : keyword.toList <+: word.toList) : keyword = word := by
  have hall : ∀ keyword ∈ keywords, ∀ word ∈ keywords, keyword.toList <+: word.toList →
      keyword = word := by decide
  exact hall keyword h word hword hbegins

/-- The first word of a base is a keyword. -/
theorem Base.exists_keyword {base : List Char} {t : PropertyType} (h : Base base t) :
    ∃ keyword ∈ keywords, ∃ rest, base = keyword.toList ++ rest ∧
      ∀ c, rest.head? = some c → ¬ IsNameChar c := by
  have hopen : ∀ {gap content : List Char}, Blanks gap → ∀ c,
      (gap ++ '(' :: content).head? = some c → ¬ IsNameChar c := by
    intro gap content hgap c hc
    cases gap with
    | nil =>
        obtain rfl : '(' = c := Option.some.inj hc
        decide
    | cons blank gap =>
        obtain rfl : blank = c := Option.some.inj hc
        exact not_isNameChar_of_blank (hgap blank List.mem_cons_self)
  cases h with
  | scalar h => exact ⟨_, h.mem_keywords, [], by rw [List.append_nil], nofun⟩
  | enumeration hgap _ => exact ⟨"Enum", by decide, _, List.append_assoc .., hopen hgap⟩
  | reference hgap _ => exact ⟨"Ref", by decide, _, List.append_assoc .., hopen hgap⟩

/-- No type begins with a word that is longer than a keyword. -/
theorem Denotes.ne_of_longKeyword {cs : List Char} {t : PropertyType} (h : Denotes cs t)
    {before after : List Char} {keyword : String} {c : Char} (hblanks : Blanks before)
    (hkeyword : keyword ∈ keywords) (hc : IsNameChar c) :
    cs ≠ before ++ (keyword.toList ++ c :: after) := by
  obtain ⟨hbefore, hbase, htail⟩ := h
  rename_i blanks base tail _ _
  intro hcs
  obtain ⟨word, hword, rest, hrest, hhead⟩ := hbase.exists_keyword
  have hparts : ∀ {keyword : String}, keyword ∈ keywords →
      ∀ c ∈ keyword.toList, isIdentifierPart c = true :=
    fun h c hc => isIdentifierPart_iff.2 (isNameChar_of_mem_keyword h hc)
  -- without the blanks in front, both begin with their words
  have hwords : word.toList ++ (rest ++ tail) = keyword.toList ++ c :: after := by
    have hskip := congrArg skipSpace hcs
    rwa [PropertyType.skipSpace_append hbefore, hbase.skipSpace_append,
      PropertyType.skipSpace_append hblanks,
      skipSpace_name (fun _ hc => isNameChar_of_mem_keyword hkeyword hc)
        (ne_nil_of_mem_keywords hkeyword), hrest, List.append_assoc] at hskip
  have htake := congrArg (List.takeWhile isIdentifierPart) hwords
  have hends : ∀ x, (rest ++ tail).head? = some x → isIdentifierPart x = false := by
    intro x hx
    rw [← Bool.not_eq_true, isIdentifierPart_iff]
    cases rest with
    | nil => exact htail.head_not_isNameChar hx
    | cons y rest => exact hhead x hx
  rw [(takeWhile_dropWhile_append (hparts hword) hends).1,
    List.takeWhile_append_of_pos (hparts hkeyword), List.takeWhile_cons,
    if_pos (isIdentifierPart_iff.2 hc)] at htake
  obtain rfl := keyword_eq_of_prefix hkeyword hword ⟨_, htake.symm⟩
  exact absurd htake (by simp)

theorem Tail.exists_of_append {cs rest : List Char} {k m : Nat} (h : Tail cs k)
    (hlong : Tail (cs ++ rest) m) : ∃ n, Tail rest n := by
  obtain ⟨hlayers, hafter⟩ := h
  have htake := takeLayers_eq_iff.2 hlong
  rw [List.append_assoc, takeLayers_append hlayers, takeLayers_blanks hafter] at htake
  exact ⟨_, takeLayers_eq_iff.1 (Prod.ext rfl (Prod.mk.inj htake).2)⟩

/-- After a type come layers and blanks. -/
theorem Denotes.exists_tail {cs rest : List Char} {t t' : PropertyType} (h : Denotes cs t)
    (hlong : Denotes (cs ++ rest) t') : ∃ k, Tail rest k := by
  obtain ⟨hbefore, hbase, htail⟩ := h
  rename_i before base tail inner _
  have hread : base? (base ++ (tail ++ rest)) = some (inner, tail ++ rest) := by
    cases hbase with
    | @scalar name _ h =>
        refine base?_scalar h fun c hc hname => ?_
        obtain ⟨after, hafter⟩ := List.head?_eq_some_iff.1 hc
        have htext : before ++ (name.toList ++ tail) ++ rest =
            before ++ (name.toList ++ c :: after) := by
          rw [← hafter, List.append_assoc, List.append_assoc]
        exact hlong.ne_of_longKeyword hbefore h.mem_keywords hname htext
    | enumeration hgap hnames => exact base?_enumeration hgap hnames
    | reference hgap hname => exact base?_reference hgap hname
  generalize htext : before ++ (base ++ tail) ++ rest = text at hlong
  obtain ⟨hbefore', hbase', htail'⟩ := hlong
  have hskip := congrArg skipSpace htext
  rw [List.append_assoc, PropertyType.skipSpace_append hbefore, List.append_assoc,
    hbase.skipSpace_append, PropertyType.skipSpace_append hbefore', hbase'.skipSpace_append]
    at hskip
  rw [hskip, base?_append hbase' fun c hc => htail'.head_not_isNameChar hc] at hread
  obtain ⟨-, rfl⟩ := Prod.mk.inj (Option.some.inj hread)
  exact htail.exists_of_append htail'

/-! ### Refusal -/

/-- A malformed text denotes no type. -/
theorem Malformed.not_denotes {cs : List Char} (h : Malformed cs) (t : PropertyType) :
    ¬ Denotes cs t := by
  intro hcs
  cases h with
  | junk h hrest =>
      obtain ⟨k, htail⟩ := h.exists_tail hcs
      exact hrest k htail
  | bracket h => exact h (hcs.head_of_bracket rfl)
  | emptyList h => exact hcs.ne_of_blanks (by decide) (by decide) h rfl
  | commaAtEnd h => exact hcs.ne_of_blanks (by decide) (by decide) h rfl
  | longKeyword hbefore h hc => exact hcs.ne_of_longKeyword hbefore h hc rfl
  | foreign h =>
      have hlt := isAscii_of_mem (hcs.mem (List.mem_append_right _ List.mem_cons_self))
      omega

/-- Reading a text gives a type exactly when the grammar does, and that type. Every other text is
refused, whatever is wrong with it. -/
theorem parse_follows_grammar (source : String) :
    (∀ t, parse source = .ok t ↔ Denotes source.toList t) ∧
      ((∃ failure, parse source = .error failure) ↔ ¬ ∃ t, Denotes source.toList t) ∧
      (Malformed source.toList → ∃ failure, parse source = .error failure) := by
  have hok : ∀ t, parse source = .ok t ↔ Denotes source.toList t := fun t => parseChars_eq_ok_iff
  have herror : (∃ failure, parse source = .error failure) ↔ ¬ ∃ t, Denotes source.toList t := by
    simp only [← hok]
    cases parse source with
    | ok t => exact ⟨nofun, fun h => absurd ⟨t, rfl⟩ h⟩
    | error failure => exact ⟨fun _ => nofun, fun _ => ⟨failure, rfl⟩⟩
  refine ⟨hok, herror, fun h => herror.2 ?_⟩
  rintro ⟨t, ht⟩
  exact h.not_denotes t ht

/-- A list of names that ends in a comma is refused. -/
theorem parse_comma_at_end :
    Malformed "Enum(draft, )[]".toList ∧ ∃ failure, parse "Enum(draft, )[]" = .error failure := by
  have hmalformed : Malformed ("Enum(draft".toList ++ ',' :: ([' '] ++ ')' :: ['[', ']'])) :=
    .commaAtEnd (by simp [Blanks, IsBlank])
  exact ⟨hmalformed, (parse_follows_grammar _).2.2 hmalformed⟩

end LiveSchema.PropertyType
