import LiveSchema.Proofs.PropertyType.Grammar
import LiveSchema.PropertyType.Parser
import Mathlib.Data.List.TakeWhile

/-!
# LiveSchema.Proofs.PropertyType.Reading

The reader of property types follows the grammar. Each part of the reader takes exactly what its
rule describes (`nameIn?_eq_some_iff`, `mapM_nameIn?_iff`, `enumeration?_eq_some_iff`,
`reference?_eq_some_iff`, `takeLayers_eq_iff`). The rules leave open where a part ends and the
reader does not: it takes the longest name, the first closing parenthesis and all layers. Nothing is
lost by that, since what may follow the base of a type never goes on with a name
(`base?_append`), and no name contains a comma or a parenthesis.

* `parseChars_eq_ok_iff` — the types that are read are those that the grammar gives.
-/

namespace LiveSchema.PropertyType

/-! ### Longest prefixes -/

/-- A prefix whose elements pass a test, before one that does not, is the longest. -/
theorem takeWhile_dropWhile_append {p : Char → Bool} {as bs : List Char}
    (ha : ∀ a ∈ as, p a = true) (hb : ∀ b, bs.head? = some b → p b = false) :
    (as ++ bs).takeWhile p = as ∧ (as ++ bs).dropWhile p = bs := by
  rw [List.takeWhile_append_of_pos ha, List.dropWhile_append_of_pos ha]
  cases bs with
  | nil => simp
  | cons b bs => simp [hb b rfl]

/-! ### Blanks -/

theorem isSpace_iff {c : Char} : isSpace c = true ↔ IsBlank c := by
  simp [isSpace, IsBlank, or_assoc]

theorem isSpace_eq_false {c : Char} (h : IsNameChar c) : isSpace c = false := by
  rw [← Bool.not_eq_true, isSpace_iff]
  exact fun hblank => not_isNameChar_of_blank hblank h

theorem skipSpace_append {gap cs : List Char} (h : Blanks gap) :
    skipSpace (gap ++ cs) = skipSpace cs :=
  List.dropWhile_append_of_pos fun c hc => isSpace_iff.2 (h c hc)

theorem skipSpace_eq_self {cs : List Char} (h : ∀ c, cs.head? = some c → isSpace c = false) :
    skipSpace cs = cs := by
  cases cs with
  | nil => rfl
  | cons c cs => simp [skipSpace, h c rfl]

/-- Skipping blanks leaves out blanks only. -/
theorem exists_skipSpace (cs : List Char) : ∃ gap, Blanks gap ∧ cs = gap ++ skipSpace cs :=
  ⟨cs.takeWhile isSpace, fun _ hc => isSpace_iff.1 (List.mem_takeWhile_imp hc),
    List.takeWhile_append_dropWhile.symm⟩

theorem exists_trimSpace (cs : List Char) :
    ∃ before after, Blanks before ∧ Blanks after ∧ cs = before ++ trimSpace cs ++ after := by
  obtain ⟨before, hbefore, hcs⟩ := exists_skipSpace cs
  obtain ⟨after, hafter, hrest⟩ := exists_skipSpace (skipSpace cs).reverse
  refine ⟨before, after.reverse, hbefore, fun c hc => hafter c (List.mem_reverse.1 hc), ?_⟩
  have htrim : skipSpace cs = trimSpace cs ++ after.reverse := by
    rw [trimSpace, ← List.reverse_append, ← hrest, List.reverse_reverse]
  rw [List.append_assoc, ← htrim, ← hcs]

/-! ### Names -/

theorem isAlpha_iff {c : Char} :
    c.isAlpha = true ↔ 'A' ≤ c ∧ c ≤ 'Z' ∨ 'a' ≤ c ∧ c ≤ 'z' := by
  have hupper : c.isUpper = true ↔ 'A' ≤ c ∧ c ≤ 'Z' := decide_eq_true_iff
  have hlower : c.isLower = true ↔ 'a' ≤ c ∧ c ≤ 'z' :=
    Bool.and_eq_true_iff.trans (and_congr decide_eq_true_iff decide_eq_true_iff)
  exact Bool.or_eq_true_iff.trans (or_congr hupper hlower)

theorem isIdentifierStart_iff {c : Char} : isIdentifierStart c = true ↔ IsLetter c := by
  have hstart : isIdentifierStart c = true ↔ c.isAlpha = true ∨ c = '_' :=
    Bool.or_eq_true_iff.trans (or_congr_right decide_eq_true_iff)
  rw [hstart, isAlpha_iff, or_assoc, IsLetter]

theorem isIdentifierPart_iff {c : Char} : isIdentifierPart c = true ↔ IsNameChar c := by
  have hdigit : c.isDigit = true ↔ '0' ≤ c ∧ c ≤ '9' :=
    Bool.and_eq_true_iff.trans (and_congr decide_eq_true_iff decide_eq_true_iff)
  have hpart : isIdentifierPart c = true ↔ (c.isAlpha = true ∨ c.isDigit = true) ∨ c = '_' :=
    Bool.or_eq_true_iff.trans (or_congr Bool.or_eq_true_iff decide_eq_true_iff)
  rw [hpart, or_right_comm, isAlpha_iff, hdigit, or_assoc (b := _ ∧ _), IsNameChar, IsLetter]

theorem isIdentifierChars_iff {cs : List Char} : isIdentifierChars cs = true ↔ IsName cs := by
  cases cs with
  | nil => simp [isIdentifierChars, IsName]
  | cons first rest =>
      simp only [isIdentifierChars, IsName, Bool.and_eq_true, List.all_eq_true,
        isIdentifierStart_iff, isIdentifierPart_iff]

/-- A name has no blanks in front of it. -/
theorem skipSpace_name {name rest : List Char} (h : ∀ c ∈ name, IsNameChar c) (hne : name ≠ []) :
    skipSpace (name ++ rest) = name ++ rest := by
  cases name with
  | nil => exact absurd rfl hne
  | cons c name =>
      refine skipSpace_eq_self fun first hfirst => ?_
      obtain rfl : c = first := Option.some.inj hfirst
      exact isSpace_eq_false (h c List.mem_cons_self)

theorem trimSpace_padded {before name after : List Char} (hbefore : Blanks before)
    (hname : IsName name) (hafter : Blanks after) : trimSpace (before ++ name ++ after) = name := by
  have hfront : skipSpace (before ++ name ++ after) = name ++ after := by
    rw [List.append_assoc, skipSpace_append hbefore]
    exact skipSpace_name (fun c hc => hname.isNameChar hc) hname.ne_nil
  have hback : skipSpace (name ++ after).reverse = name.reverse := by
    rw [List.reverse_append, skipSpace_append fun c hc => hafter c (List.mem_reverse.1 hc)]
    have hself : skipSpace (name.reverse ++ []) = name.reverse ++ [] :=
      skipSpace_name (fun c hc => hname.isNameChar (List.mem_reverse.1 hc))
        (by simpa using hname.ne_nil)
    rwa [List.append_nil] at hself
  rw [trimSpace, hfront, hback, List.reverse_reverse]

/-- The name in a piece of text is what stands between its blanks. -/
theorem nameIn?_eq_some_iff {cs : List Char} {name : String} :
    nameIn? cs = some name ↔ Padded cs name := by
  constructor
  · intro h
    simp only [nameIn?] at h
    split at h
    · rename_i hname
      obtain ⟨before, after, hbefore, hafter, hcs⟩ := exists_trimSpace cs
      have hpadded := Padded.mk hbefore (isIdentifierChars_iff.1 hname) hafter
      rw [← hcs, Option.some.inj h] at hpadded
      exact hpadded
    · cases h
  · rintro ⟨hbefore, hname, hafter⟩
    rw [nameIn?, trimSpace_padded hbefore hname hafter, if_pos (isIdentifierChars_iff.2 hname)]

/-- A name is read to its end. -/
theorem takeIdentifier_append {name rest : List Char} (hname : IsName name)
    (hrest : ∀ c, rest.head? = some c → ¬ IsNameChar c) :
    takeIdentifier (name ++ rest) = some (name, rest) := by
  cases name with
  | nil => exact hname.elim
  | cons first name =>
      obtain ⟨htake, hdrop⟩ := takeWhile_dropWhile_append
        (fun c hc => isIdentifierPart_iff.2 (hname.2 c hc))
        (fun c hc => Bool.eq_false_iff.2 fun h => hrest c hc (isIdentifierPart_iff.1 h))
      rw [List.cons_append, takeIdentifier, if_pos (isIdentifierStart_iff.2 hname.1), htake, hdrop]

/-! ### Lists of names -/

/-- The first piece reaches to the first comma. -/
theorem cutAtCommas_append {piece rest : List Char} (h : ',' ∉ piece) :
    cutAtCommas (piece ++ ',' :: rest) = piece :: cutAtCommas rest := by
  induction piece with
  | nil => simp [cutAtCommas]
  | cons c piece ih =>
      have hc : c ≠ ',' := fun hc => h (hc ▸ List.mem_cons_self)
      rw [List.cons_append, cutAtCommas, if_neg hc,
        ih (fun hmem => h (List.mem_cons_of_mem c hmem))]

theorem cutAtCommas_of_not_mem {piece : List Char} (h : ',' ∉ piece) :
    cutAtCommas piece = [piece] := by
  induction piece with
  | nil => rfl
  | cons c piece ih =>
      have hc : c ≠ ',' := fun hc => h (hc ▸ List.mem_cons_self)
      rw [cutAtCommas, if_neg hc, ih (fun hmem => h (List.mem_cons_of_mem c hmem))]

theorem Padded.comma_not_mem {cs : List Char} {name : String} (h : Padded cs name) : ',' ∉ cs :=
  h.not_mem (by decide) (by decide)

theorem names_of_mapM {cs : List Char} {names : List String}
    (h : (cutAtCommas cs).mapM nameIn? = some names) : Names cs names := by
  by_cases hcomma : ',' ∈ cs
  · obtain ⟨piece, rest, rfl, hpiece⟩ := List.eq_append_cons_of_mem hcomma
    rw [cutAtCommas_append hpiece, List.mapM_cons] at h
    obtain ⟨name, hname, others, hothers, rfl⟩ : ∃ name, nameIn? piece = some name ∧
        ∃ others, (cutAtCommas rest).mapM nameIn? = some others ∧ name :: others = names := by
      simpa [Option.bind_eq_some_iff] using h
    exact .cons (nameIn?_eq_some_iff.1 hname) (names_of_mapM hothers)
  · rw [cutAtCommas_of_not_mem hcomma, List.mapM_cons, List.mapM_nil] at h
    obtain ⟨name, hname, rfl⟩ : ∃ name, nameIn? cs = some name ∧ [name] = names := by
      simpa [Option.bind_eq_some_iff] using h
    exact .single (nameIn?_eq_some_iff.1 hname)
termination_by cs.length

/-- Cutting at the commas finds the names of a list. -/
theorem mapM_nameIn?_iff {cs : List Char} {names : List String} :
    (cutAtCommas cs).mapM nameIn? = some names ↔ Names cs names := by
  refine ⟨names_of_mapM, fun h => ?_⟩
  induction h with
  | single h =>
      rw [cutAtCommas_of_not_mem h.comma_not_mem, List.mapM_cons, nameIn?_eq_some_iff.2 h]
      rfl
  | cons h _ ih =>
      rw [cutAtCommas_append h.comma_not_mem, List.mapM_cons, nameIn?_eq_some_iff.2 h, ih]
      rfl

/-! ### Bases -/

/-- Parentheses enclose what stands before the first closing one. -/
theorem inParentheses?_eq_some_iff {cs content after : List Char} :
    inParentheses? cs = some (content, after) ↔
      ∃ gap, Blanks gap ∧ ')' ∉ content ∧ cs = gap ++ '(' :: (content ++ ')' :: after) := by
  have hclose : ∀ {c : Char}, (c != ')') = true ↔ c ≠ ')' := bne_iff_ne
  constructor
  · intro h
    obtain ⟨gap, hgap, hcs⟩ := exists_skipSpace cs
    unfold inParentheses? at h
    split at h
    · rename_i rest hopen
      split at h
      · rename_i closing after' hrest
        obtain ⟨rfl, rfl⟩ := Prod.mk.inj (Option.some.inj h)
        obtain rfl : closing = ')' := by
          have hhead := List.head_dropWhile_not (· != ')') (l := rest) (by simp [hrest])
          simpa [hrest] using hhead
        have hcontent : ')' ∉ rest.takeWhile (· != ')') :=
          fun hmem => hclose.1 (List.mem_takeWhile_imp (p := (· != ')')) hmem) rfl
        refine ⟨gap, hgap, hcontent, ?_⟩
        rw [← hrest, List.takeWhile_append_dropWhile, ← hopen]
        exact hcs
      · cases h
    · cases h
  · rintro ⟨gap, hgap, hcontent, rfl⟩
    obtain ⟨htake, hdrop⟩ : (content ++ ')' :: after).takeWhile (· != ')') = content ∧
        (content ++ ')' :: after).dropWhile (· != ')') = ')' :: after :=
      takeWhile_dropWhile_append (fun c hc => hclose.2 fun h => hcontent (h ▸ hc))
        (fun c hc => by simpa using (Option.some.inj hc).symm)
    have hskip : skipSpace (gap ++ '(' :: (content ++ ')' :: after)) =
        '(' :: (content ++ ')' :: after) := by
      rw [skipSpace_append hgap]
      exact skipSpace_eq_self fun c hc => Option.some.inj hc ▸ rfl
    simp only [inParentheses?, hskip, htake, hdrop]

theorem enumeration?_eq_some_iff {cs rest : List Char} {t : PropertyType} :
    enumeration? cs = some (t, rest) ↔
      ∃ gap names values, Blanks gap ∧ Names names values ∧ t = .enumeration values ∧
        cs = "Enum".toList ++ (gap ++ '(' :: (names ++ ')' :: rest)) := by
  constructor
  · intro h
    unfold enumeration? at h
    split at h
    · rename_i cs
      simp only [Option.bind_eq_bind, Option.bind_eq_some_iff, Option.pure_def, Option.some.injEq,
        Prod.mk.injEq] at h
      obtain ⟨⟨names, after⟩, hparens, values, hvalues, rfl, rfl⟩ := h
      obtain ⟨gap, hgap, -, hcs⟩ := inParentheses?_eq_some_iff.1 hparens
      exact ⟨gap, names, values, hgap, mapM_nameIn?_iff.1 hvalues, rfl, by rw [hcs]; rfl⟩
    · cases h
  · rintro ⟨gap, names, values, hgap, hnames, rfl, rfl⟩
    have hparens : inParentheses? (gap ++ '(' :: (names ++ ')' :: rest)) = some (names, rest) :=
      inParentheses?_eq_some_iff.2 ⟨gap, hgap, hnames.not_mem_close, rfl⟩
    simp only [show "Enum".toList = ['E', 'n', 'u', 'm'] from rfl, List.cons_append,
      List.nil_append, enumeration?, hparens, Option.bind_eq_bind, Option.bind_some,
      mapM_nameIn?_iff.2 hnames, Option.pure_def]

theorem reference?_eq_some_iff {cs rest : List Char} {t : PropertyType} :
    reference? cs = some (t, rest) ↔
      ∃ gap name target, Blanks gap ∧ Padded name target ∧ t = .reference target ∧
        cs = "Ref".toList ++ (gap ++ '(' :: (name ++ ')' :: rest)) := by
  constructor
  · intro h
    unfold reference? at h
    split at h
    · rename_i cs
      simp only [Option.bind_eq_bind, Option.bind_eq_some_iff, Option.pure_def, Option.some.injEq,
        Prod.mk.injEq] at h
      obtain ⟨⟨name, after⟩, hparens, target, htarget, rfl, rfl⟩ := h
      obtain ⟨gap, hgap, -, hcs⟩ := inParentheses?_eq_some_iff.1 hparens
      exact ⟨gap, name, target, hgap, nameIn?_eq_some_iff.1 htarget, rfl, by rw [hcs]; rfl⟩
    · cases h
  · rintro ⟨gap, name, target, hgap, hname, rfl, rfl⟩
    have hparens : inParentheses? (gap ++ '(' :: (name ++ ')' :: rest)) = some (name, rest) :=
      inParentheses?_eq_some_iff.2 ⟨gap, hgap, hname.not_mem (by decide) (by decide), rfl⟩
    simp only [show "Ref".toList = ['R', 'e', 'f'] from rfl, List.cons_append, List.nil_append,
      reference?, hparens, Option.bind_eq_bind, Option.bind_some, nameIn?_eq_some_iff.2 hname,
      Option.pure_def]

theorem scalar_iff {name : String} {t : PropertyType} :
    Scalar name t ↔ scalars.lookup name = some t := by
  constructor
  · rintro (_ | _) <;> rfl
  · intro h
    obtain ⟨before, after, hscalars, -⟩ := List.lookup_eq_some_iff.1 h
    have hmem : (name, t) ∈ scalars := hscalars ▸ List.mem_append_right _ List.mem_cons_self
    simp only [scalars, List.mem_cons, Prod.mk.injEq, List.not_mem_nil, or_false] at hmem
    rcases hmem with ⟨rfl, rfl⟩ | ⟨rfl, rfl⟩ | ⟨rfl, rfl⟩ | ⟨rfl, rfl⟩ | ⟨rfl, rfl⟩ | ⟨rfl, rfl⟩ |
      ⟨rfl, rfl⟩ <;> constructor

theorem scalar?_eq_some_iff {cs rest : List Char} {t : PropertyType} :
    scalar? cs = some (t, rest) ↔
      ∃ name, takeIdentifier cs = some (name, rest) ∧ Scalar (String.ofList name) t := by
  simp only [scalar?, Option.bind_eq_bind, Option.bind_eq_some_iff, Option.pure_def,
    Option.some.injEq, Prod.mk.injEq, scalar_iff]
  constructor
  · rintro ⟨⟨name, _⟩, hname, _, hlookup, rfl, rfl⟩
    exact ⟨name, hname, hlookup⟩
  · rintro ⟨name, hname, hlookup⟩
    exact ⟨(name, rest), hname, t, hlookup, rfl, rfl⟩

/-- What is read as a base is one. -/
theorem base_of_base? {cs rest : List Char} {t : PropertyType} (h : base? cs = some (t, rest)) :
    ∃ base, Base base t ∧ cs = base ++ rest := by
  simp only [base?, Option.orElse_eq_orElse, Option.orElse_eq_or, Option.or_eq_some_iff] at h
  rcases h with h | ⟨-, h | ⟨-, h⟩⟩
  · obtain ⟨gap, names, values, hgap, hnames, rfl, rfl⟩ := enumeration?_eq_some_iff.1 h
    exact ⟨_, .enumeration hgap hnames, by simp⟩
  · obtain ⟨gap, name, target, hgap, hname, rfl, rfl⟩ := reference?_eq_some_iff.1 h
    exact ⟨_, .reference hgap hname, by simp⟩
  · obtain ⟨name, hname, hscalar⟩ := scalar?_eq_some_iff.1 h
    exact ⟨_, .scalar hscalar, by rw [String.toList_ofList, append_of_takeIdentifier hname]⟩

theorem Scalar.isName {name : String} {t : PropertyType} (h : Scalar name t) :
    IsName name.toList := by
  cases h <;> exact isIdentifierChars_iff.1 rfl

theorem base?_enumeration {gap names rest : List Char} {values : List String} (hgap : Blanks gap)
    (hnames : Names names values) :
    base? ("Enum".toList ++ gap ++ '(' :: (names ++ [')']) ++ rest) =
      some (.enumeration values, rest) := by
  have henum : enumeration? ("Enum".toList ++ gap ++ '(' :: (names ++ [')']) ++ rest) =
      some (.enumeration values, rest) :=
    enumeration?_eq_some_iff.2 ⟨gap, names, values, hgap, hnames, rfl, by simp⟩
  rw [base?, henum]
  rfl

theorem base?_reference {gap name rest : List Char} {target : String} (hgap : Blanks gap)
    (hname : Padded name target) :
    base? ("Ref".toList ++ gap ++ '(' :: (name ++ [')']) ++ rest) =
      some (.reference target, rest) := by
  have href : reference? ("Ref".toList ++ gap ++ '(' :: (name ++ [')']) ++ rest) =
      some (.reference target, rest) :=
    reference?_eq_some_iff.2 ⟨gap, name, target, hgap, hname, rfl, by simp⟩
  have henum : enumeration? ("Ref".toList ++ gap ++ '(' :: (name ++ [')']) ++ rest) = none := rfl
  rw [base?, henum, href]
  rfl

theorem base?_scalar {name : String} {rest : List Char} {t : PropertyType} (h : Scalar name t)
    (hrest : ∀ c, rest.head? = some c → ¬ IsNameChar c) :
    base? (name.toList ++ rest) = some (t, rest) := by
  have hscalar : scalar? (name.toList ++ rest) = some (t, rest) :=
    scalar?_eq_some_iff.2 ⟨name.toList, takeIdentifier_append h.isName hrest, by simpa using h⟩
  -- no name of a scalar begins like an enumeration or a reference
  have hothers : enumeration? (name.toList ++ rest) = none ∧
      reference? (name.toList ++ rest) = none := by
    cases h <;> exact ⟨rfl, rfl⟩
  rw [base?, hothers.1, hothers.2, hscalar]
  rfl

/-- A base is read whatever follows it, unless that goes on with a name. -/
theorem base?_append {base rest : List Char} {t : PropertyType} (h : Base base t)
    (hrest : ∀ c, rest.head? = some c → ¬ IsNameChar c) :
    base? (base ++ rest) = some (t, rest) := by
  cases h with
  | scalar h => exact base?_scalar h hrest
  | enumeration hgap hnames => exact base?_enumeration hgap hnames
  | reference hgap hname => exact base?_reference hgap hname

/-! ### Layers -/

theorem takeLayers_blanks {gap cs : List Char} (h : Blanks gap) :
    takeLayers (gap ++ cs) = takeLayers cs := by
  induction gap with
  | nil => rfl
  | cons c gap ih =>
      have hc := isSpace_iff.2 (h c List.mem_cons_self)
      have hbracket : c ≠ '[' := fun hc' => by simp [hc', isSpace] at hc
      rw [List.cons_append, takeLayers, if_pos hc, ih fun x hx => h x (List.mem_cons_of_mem c hx)]
      exact fun _ hc' _ => hbracket hc'

/-- Layers in front are counted. -/
theorem takeLayers_append {layers cs : List Char} {k : Nat} (h : Layers layers k) :
    takeLayers (layers ++ cs) = ((takeLayers cs).1 + k, (takeLayers cs).2) := by
  induction h with
  | nil => rfl
  | cons hgap _ ih =>
      rw [List.append_assoc, takeLayers_blanks hgap, List.cons_append, List.cons_append, takeLayers,
        ih, Nat.add_assoc]

theorem tail_of_takeLayers {cs : List Char} {k : Nat} (h : takeLayers cs = (k, [])) :
    Tail cs k := by
  fun_induction takeLayers cs generalizing k with
  | case1 rest ih =>
      obtain ⟨rfl, hrest⟩ := Prod.mk.inj h
      exact (ih (Prod.ext rfl hrest)).cons
  | case2 c rest _ hc ih =>
      have hblank : Blanks [c] := by simpa [Blanks] using isSpace_iff.1 hc
      exact (ih h).blanks_append hblank
  | case3 c rest _ hc => cases h
  | case4 =>
      obtain ⟨rfl, -⟩ := Prod.mk.inj h
      exact blanks_nil.tail

theorem takeLayers_eq_iff {cs : List Char} {k : Nat} : takeLayers cs = (k, []) ↔ Tail cs k := by
  refine ⟨tail_of_takeLayers, ?_⟩
  rintro ⟨hlayers, hafter⟩
  have hnil : takeLayers (_ ++ []) = takeLayers [] := takeLayers_blanks hafter
  rw [List.append_nil] at hnil
  rw [takeLayers_append hlayers, hnil, takeLayers, Nat.zero_add]

/-! ### Types -/

theorem wrap_eq_iterate (k : Nat) (t : PropertyType) : wrap k t = collection^[k] t := by
  induction k generalizing t with
  | zero => rfl
  | succ k ih => rw [wrap, ih, Function.iterate_succ_apply]

/-- No blanks stand in front of a base. -/
theorem Base.skipSpace_append {base tail : List Char} {t : PropertyType} (h : Base base t) :
    skipSpace (base ++ tail) = base ++ tail := by
  cases h with
  | scalar h => exact skipSpace_name (fun c hc => h.isName.isNameChar hc) h.isName.ne_nil
  | enumeration => rfl
  | reference => rfl

/-- The types that are read are those that the grammar gives. -/
theorem parseChars_eq_ok_iff {cs : List Char} {t : PropertyType} :
    parseChars cs = .ok t ↔ Denotes cs t := by
  constructor
  · intro h
    obtain ⟨before, hbefore, hcs⟩ := exists_skipSpace cs
    simp only [parseChars] at h
    split at h
    next base rest hbase =>
      split at h
      next k hlayers =>
        obtain ⟨text, htext, hsplit⟩ := base_of_base? hbase
        rw [hcs, hsplit, ← Except.ok.inj h, wrap_eq_iterate]
        exact .mk hbefore htext (takeLayers_eq_iff.1 hlayers)
      next => cases h
    next => cases h
  · rintro ⟨hbefore, hbase, htail⟩
    have hread := base?_append hbase fun c hc => htail.head_not_isNameChar hc
    simp only [parseChars, PropertyType.skipSpace_append hbefore, hbase.skipSpace_append, hread,
      takeLayers_eq_iff.2 htail, wrap_eq_iterate]

end LiveSchema.PropertyType
