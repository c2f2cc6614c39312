import LiveSchema.Json.Printer
import LiveSchema.Json.Reader

/-!
# LiveSchema.Proofs.Json.Printing

What is printed on one line is read back. A text denotes a value if reading it gives the document of
the value and nothing follows (`Json.Denotes`); the printed form of a value without numbers denotes
the value (`Json.denotes_compact`).

The reader is given a count of steps that the length of the text bounds. A value takes at most two
steps for each of its characters, whatever follows it, and this is what the induction carries
(`Json.ReadsBack`).
-/

namespace LiveSchema.Json

open Reader

/-- Reading a text gives a value, and nothing follows it. -/
def Denotes (text : String) (v : Json) : Prop := Text.ofString text = ⟨.ofJson v, false⟩

/-- A value without numbers. -/
inductive Plain : Json → Prop where
  | null : Plain .null
  | bool (b : Bool) : Plain (.bool b)
  | string (s : String) : Plain (.string s)
  | list {items : List Json} (h : ∀ v ∈ items, Plain v) : Plain (.list items)
  | object {fields : List (String × Json)} (h : ∀ e ∈ fields, Plain e.2) : Plain (.object fields)

/-! ### Strings -/

/-- A control character is written by its number, which is read back. -/
theorem readHex_control {n : Nat} (hn : n < 32) (cs : List Char) :
    readHex ('0' :: '0' :: Text.hexDigit (n / 16) :: Text.hexDigit (n % 16) :: cs) =
      .ok (n, cs) := by
  have hdigits : ∀ n < 32,
      4 ≤ (String.ofList ['0', '0', Text.hexDigit (n / 16), Text.hexDigit (n % 16)]).utf8ByteSize ∧
        ['0', '0', Text.hexDigit (n / 16), Text.hexDigit (n % 16)].mapM hexValue? =
          some [0, 0, n / 16, n % 16] := by
    decide +kernel
  obtain ⟨hsize, hvalues⟩ := hdigits n hn
  unfold readHex
  dsimp only [List.take_succ_cons, List.take_zero, List.drop_succ_cons, List.drop_zero]
  rw [if_neg (by omega), hvalues]
  dsimp only
  congr 2
  omega

/-- A character is read back from its written form. -/
theorem readString_escapeChar (fuel : Nat) (shown : List Char) (c : Char) (cs : List Char) :
    readString (fuel + 1) (.ok shown) (escapeChar c ++ cs) =
      readString fuel (.ok (c :: shown)) cs := by
  unfold escapeChar
  split
  case h_1 | h_2 | h_3 | h_4 | h_5 | h_6 | h_7 => rfl
  case h_8 hquote hbackslash _ _ _ _ _ =>
    split
    next hcontrol =>
      have hfirst : isFirstHalf c.toNat = false := by
        simp only [isFirstHalf, Bool.and_eq_false_iff, decide_eq_false_iff_not]
        omega
      have hsecond : isSecondHalf c.toNat = false := by
        simp only [isSecondHalf, Bool.and_eq_false_iff, decide_eq_false_iff_not]
        omega
      simp only [List.cons_append, List.nil_append]
      rw [readString, readHex_control hcontrol]
      dsimp only
      rw [hsecond, hfirst, Char.ofNat_toNat]
      rfl
    next hcontrol =>
      rw [List.singleton_append, readString]
      · rw [if_neg hcontrol]
        rfl
      · exact hquote
      · exact fun h _ => hbackslash h
      · exact fun _ h _ => hbackslash h
      · exact fun _ _ h _ => hbackslash h

/-- The characters of a string are read back, up to the closing quote. -/
theorem readString_flatMap (s : List Char) {fuel : Nat} (hfuel : s.length < fuel)
    (shown rest : List Char) :
    readString fuel (.ok shown) (s.flatMap escapeChar ++ '"' :: rest) =
      .ok (.ok (String.ofList (shown.reverse ++ s)), rest) := by
  induction s generalizing fuel shown with
  | nil =>
      obtain ⟨fuel, rfl⟩ := Nat.exists_eq_add_one_of_ne_zero (Nat.ne_zero_of_lt hfuel)
      rw [List.append_nil]
      rfl
  | cons c s ih =>
      rw [List.length_cons] at hfuel
      obtain ⟨fuel, rfl⟩ := Nat.exists_eq_add_one_of_ne_zero (Nat.ne_zero_of_lt hfuel)
      rw [List.flatMap_cons, List.append_assoc, readString_escapeChar, ih (by omega),
        List.reverse_cons, List.append_assoc, List.singleton_append]

/-- Every character of a string takes up space in its written form. -/
theorem length_le_length_flatMap (s : List Char) : s.length ≤ (s.flatMap escapeChar).length := by
  induction s with
  | nil => exact Nat.le_refl 0
  | cons c s ih =>
      have hc : 0 < (escapeChar c).length := by
        unfold escapeChar
        split <;> try exact Nat.zero_lt_succ _
        split <;> exact Nat.zero_lt_succ _
      rw [List.flatMap_cons, List.length_append, List.length_cons]
      omega

theorem toList_printString (s : String) :
    (printString s).toList = '"' :: (s.toList.flatMap escapeChar ++ ['"']) := by
  rw [printString, String.toList_ofList]
  rfl

/-- A printed string is read back after its opening quote. -/
theorem readString_printString (s : String) (rest : List Char) :
    readString ((s.toList.flatMap escapeChar ++ '"' :: rest).length + 1) (.ok [])
      (s.toList.flatMap escapeChar ++ '"' :: rest) = .ok (.ok s, rest) := by
  have hlength := length_le_length_flatMap s.toList
  have hfuel : s.toList.length < (s.toList.flatMap escapeChar ++ '"' :: rest).length + 1 := by
    rw [List.length_append]
    omega
  rw [readString_flatMap s.toList hfuel, List.reverse_nil, List.nil_append, String.ofList_toList]

/-! ### Values -/

/-- Texts with commas between them. -/
def joined (texts : List (List Char)) : List Char := [','].intercalate texts

theorem joined_singleton (text : List Char) : joined [text] = text := List.intercalate_singleton

theorem joined_cons_cons_append (first second : List Char) (later : List (List Char))
    (rest : List Char) :
    joined (first :: second :: later) ++ rest =
      first ++ ',' :: (joined (second :: later) ++ rest) := by
  rw [joined, List.intercalate_cons_cons, List.append_assoc, List.append_assoc]
  rfl

theorem length_joined_cons_cons (first second : List Char) (later : List (List Char)) :
    (joined (first :: second :: later)).length =
      first.length + 1 + (joined (second :: later)).length := by
  have h := congrArg List.length (joined_cons_cons_append first second later [])
  simp only [List.length_append, List.length_cons, List.length_nil] at h
  omega

/-- They begin as the first one does. -/
theorem joined_cons_eq (first : List Char) (later : List (List Char)) :
    ∃ tail, joined (first :: later) = first ++ tail := by
  cases later with
  | nil => exact ⟨[], by rw [joined_singleton, List.append_nil]⟩
  | cons second later =>
      have h := joined_cons_cons_append first second later []
      rw [List.append_nil] at h
      exact ⟨_, h⟩

/-- What is printed of a value. -/
def printed (v : Json) : List Char := v.compact.toList

/-- What is printed of a field. -/
def printedField (e : String × Json) : List Char :=
  (printString e.1).toList ++ ':' :: printed e.2

theorem printed_list (items : List Json) :
    printed (.list items) = '[' :: (joined (items.map printed) ++ [']']) := by
  have hitems : compactItems items = items.map compact := by
    induction items with
    | nil => rfl
    | cons item rest ih => rw [compactItems, ih, List.map_cons]
  rw [printed, compact, String.toList_append, String.toList_append, String.toList_intercalate,
    hitems, List.map_map]
  rfl

theorem printed_object (fields : List (String × Json)) :
    printed (.object fields) =
      '\x7b' :: (joined (fields.map printedField) ++ ['\x7d']) := by
  have hfields : (compactFields fields).map String.toList = fields.map printedField := by
    induction fields with
    | nil => rfl
    | cons e rest ih =>
        rw [compactFields, List.map_cons, List.map_cons, ih, String.toList_append,
          String.toList_append, printedField, List.append_assoc]
        rfl
  rw [printed, compact, String.toList_append, String.toList_append, String.toList_intercalate,
    hfields]
  rfl

/-- How the printed form of a value begins. -/
def openings : List Char := ['n', 't', 'f', '"', '[', '\x7b']

theorem exists_opening {v : Json} (h : Plain v) :
    ∃ c cs, printed v = c :: cs ∧ c ∈ openings := by
  cases h with
  | null => exact ⟨'n', ['u', 'l', 'l'], by decide +kernel, by decide⟩
  | bool b =>
      cases b with
      | true => exact ⟨'t', ['r', 'u', 'e'], by decide +kernel, by decide⟩
      | false => exact ⟨'f', ['a', 'l', 's', 'e'], by decide +kernel, by decide⟩
  | string s => exact ⟨'"', _, toList_printString s, by decide⟩
  | list h => exact ⟨'[', _, printed_list _, by decide⟩
  | object h => exact ⟨'\x7b', _, printed_object _, by decide⟩

/-- Reading the printed form of a value, whatever follows it, takes at most two steps for each of
its characters. -/
def ReadsBack (v : Json) : Prop :=
  ∀ fuel rest, 2 * (printed v).length ≤ fuel →
    readValue fuel (printed v ++ rest) = (.ofJson v, some rest)

/-- After an item and a comma the next item is read. -/
theorem readItems_comma {fuel : Nat} {cs tail : List Char} {item : Document} {c : Char}
    (h : readValue fuel cs = (item, some (',' :: c :: tail))) (hc : c ∈ openings) :
    readItems (fuel + 1) cs =
      (item :: (readItems fuel (c :: tail)).1, (readItems fuel (c :: tail)).2) := by
  rw [readItems, h]
  dsimp only
  simp only [openings, List.mem_cons, List.not_mem_nil, or_false] at hc
  rcases hc with rfl | rfl | rfl | rfl | rfl | rfl <;> rfl

theorem readItems_bracket {fuel : Nat} {cs rest : List Char} {item : Document}
    (h : readValue fuel cs = (item, some (']' :: rest))) :
    readItems (fuel + 1) cs = ([item], none, some rest) := by
  rw [readItems, h]
  rfl

theorem readItems_printed {items : List Json} (hne : items ≠ [])
    (h : ∀ v ∈ items, Plain v ∧ ReadsBack v) {fuel : Nat} (rest : List Char)
    (hfuel : 2 * (joined (items.map printed)).length < fuel) :
    readItems fuel (joined (items.map printed) ++ ']' :: rest) =
      (Document.ofItems items, none, some rest) := by
  induction items generalizing fuel with
  | nil => exact absurd rfl hne
  | cons item later ih =>
      obtain ⟨fuel, rfl⟩ := Nat.exists_eq_add_one_of_ne_zero (Nat.ne_zero_of_lt hfuel)
      obtain ⟨-, hitem⟩ := h item List.mem_cons_self
      cases later with
      | nil =>
          rw [List.map_singleton, joined_singleton] at hfuel ⊢
          exact readItems_bracket (hitem fuel _ (by omega))
      | cons next later =>
          obtain ⟨c, cs, hopening, hc⟩ := exists_opening (h next (by simp)).1
          obtain ⟨tail, htail⟩ := joined_cons_eq (printed next) (later.map printed)
          rw [List.map_cons, List.map_cons, length_joined_cons_cons] at hfuel
          have hlater := @ih (List.cons_ne_nil next later)
            (fun v hv => h v (List.mem_cons_of_mem _ hv)) fuel (by rw [List.map_cons]; omega)
          rw [List.map_cons, List.map_cons, joined_cons_cons_append]
          -- the next item begins with a character that ends no list
          rw [List.map_cons, htail, hopening, List.cons_append, List.cons_append] at hlater
          rw [htail, hopening, List.cons_append, List.cons_append]
          rw [readItems_comma (hitem fuel _ (by omega)) hc, hlater]
          rfl

theorem printString_append (name : String) (cs : List Char) :
    (printString name).toList ++ cs = '"' :: (name.toList.flatMap escapeChar ++ '"' :: cs) := by
  rw [toList_printString, List.cons_append, List.append_assoc, List.singleton_append]

/-- The name of a field is read, and then its value. -/
theorem readEntries_printString {fuel : Nat} {name : String} {cs rest : List Char}
    {value : Document} (h : readValue fuel cs = (value, some rest)) :
    (∀ tail, rest = ',' :: '"' :: tail →
      readEntries (fuel + 1) ((printString name).toList ++ ':' :: cs) =
        ((.ok name, value) :: (readEntries fuel ('"' :: tail)).1,
          (readEntries fuel ('"' :: tail)).2)) ∧
    ∀ tail, rest = '\x7d' :: tail →
      readEntries (fuel + 1) ((printString name).toList ++ ':' :: cs) =
        ([(.ok name, value)], none, some tail) := by
  have hname := readString_printString name (':' :: cs)
  have hquote : skipSpace ('"' :: (name.toList.flatMap escapeChar ++ '"' :: ':' :: cs)) =
      '"' :: (name.toList.flatMap escapeChar ++ '"' :: ':' :: cs) := rfl
  have hcolon : skipSpace (':' :: cs) = ':' :: cs := rfl
  rw [printString_append]
  constructor
  · intro tail hrest
    simp only [readEntries, hquote, hname, hcolon, h, hrest]
    rfl
  · intro tail hrest
    simp only [readEntries, hquote, hname, hcolon, h, hrest]
    rfl

theorem readEntries_printed {fields : List (String × Json)} (hne : fields ≠ [])
    (h : ∀ e ∈ fields, ReadsBack e.2) {fuel : Nat} (rest : List Char)
    (hfuel : 2 * (joined (fields.map printedField)).length < fuel) :
    readEntries fuel (joined (fields.map printedField) ++ '\x7d' :: rest) =
      (Document.ofEntries fields, none, some rest) := by
  induction fields generalizing fuel with
  | nil => exact absurd rfl hne
  | cons e later ih =>
      obtain ⟨fuel, rfl⟩ := Nat.exists_eq_add_one_of_ne_zero (Nat.ne_zero_of_lt hfuel)
      have hvalue := h e List.mem_cons_self
      have hfield (cs : List Char) :
          printedField e ++ cs = (printString e.1).toList ++ ':' :: (printed e.2 ++ cs) := by
        rw [printedField, List.append_assoc, List.cons_append]
      have hlength := congrArg List.length (hfield [])
      simp only [List.length_append, List.length_cons, List.append_nil] at hlength
      cases later with
      | nil =>
          rw [List.map_singleton, joined_singleton] at hfuel ⊢
          rw [hfield]
          exact (readEntries_printString (hvalue fuel _ (by omega))).2 rest rfl
      | cons next later =>
          obtain ⟨tail, htail⟩ := joined_cons_eq (printedField next) (later.map printedField)
          rw [List.map_cons, List.map_cons, length_joined_cons_cons] at hfuel
          have hlater := @ih (List.cons_ne_nil next later)
            (fun e he => h e (List.mem_cons_of_mem _ he)) fuel (by rw [List.map_cons]; omega)
          rw [List.map_cons, List.map_cons, joined_cons_cons_append, hfield]
          -- the next field begins with the quote of its name
          have hquote : printedField next = '"' :: _ := printString_append next.1 _
          rw [List.map_cons, htail, hquote, List.cons_append, List.cons_append] at hlater
          rw [htail, hquote, List.cons_append, List.cons_append]
          rw [(readEntries_printString (hvalue fuel _ (by omega))).1 _ rfl, hlater]
          rfl

/-- A list that does not close at once has items. -/
theorem readValue_list {c : Char} (hc : c ∈ openings) (fuel : Nat) (cs : List Char) :
    readValue (fuel + 1) ('[' :: c :: cs) =
      (.list (readItems fuel (c :: cs)).1 (readItems fuel (c :: cs)).2.1,
        (readItems fuel (c :: cs)).2.2) := by
  simp only [openings, List.mem_cons, List.not_mem_nil, or_false] at hc
  rcases hc with rfl | rfl | rfl | rfl | rfl | rfl <;> rfl

theorem readsBack_list {items : List Json} (h : ∀ v ∈ items, Plain v ∧ ReadsBack v) :
    ReadsBack (.list items) := by
  intro fuel rest hfuel
  rw [printed_list, List.length_cons, List.length_append] at hfuel
  obtain ⟨fuel, rfl⟩ := Nat.exists_eq_add_one_of_ne_zero (by omega : fuel ≠ 0)
  rw [printed_list, List.cons_append, List.append_assoc, List.singleton_append]
  cases items with
  | nil => rfl
  | cons item later =>
      obtain ⟨c, cs, hopening, hc⟩ := exists_opening (h item List.mem_cons_self).1
      obtain ⟨tail, htail⟩ := joined_cons_eq (printed item) (later.map printed)
      have hitems := @readItems_printed _ (List.cons_ne_nil item later) h fuel rest (by omega)
      rw [List.map_cons, htail, hopening, List.cons_append, List.cons_append] at hitems
      rw [List.map_cons, htail, hopening, List.cons_append, List.cons_append,
        readValue_list hc, hitems]
      rfl

theorem readsBack_object {fields : List (String × Json)} (h : ∀ e ∈ fields, ReadsBack e.2) :
    ReadsBack (.object fields) := by
  intro fuel rest hfuel
  rw [printed_object, List.length_cons, List.length_append] at hfuel
  obtain ⟨fuel, rfl⟩ := Nat.exists_eq_add_one_of_ne_zero (by omega : fuel ≠ 0)
  rw [printed_object, List.cons_append, List.append_assoc, List.singleton_append]
  cases fields with
  | nil => rfl
  | cons e later =>
      obtain ⟨tail, htail⟩ := joined_cons_eq (printedField e) (later.map printedField)
      have hquote : printedField e = '"' :: _ := printString_append e.1 _
      have hfields := @readEntries_printed _ (List.cons_ne_nil e later) h fuel rest (by omega)
      rw [List.map_cons, htail, hquote, List.cons_append, List.cons_append] at hfields
      rw [List.map_cons, htail, hquote, List.cons_append, List.cons_append]
      show (Document.object (readEntries fuel ('"' :: _)).1 (readEntries fuel ('"' :: _)).2.1,
        (readEntries fuel ('"' :: _)).2.2) = _
      rw [hfields]
      rfl

theorem readsBack_string (s : String) : ReadsBack (.string s) := by
  intro fuel rest hfuel
  have hprinted : printed (.string s) = (printString s).toList := rfl
  rw [hprinted, toList_printString, List.length_cons] at hfuel
  obtain ⟨fuel, rfl⟩ := Nat.exists_eq_add_one_of_ne_zero (by omega : fuel ≠ 0)
  rw [hprinted, printString_append]
  have hquote : skipSpace ('"' :: (s.toList.flatMap escapeChar ++ '"' :: rest)) =
      '"' :: (s.toList.flatMap escapeChar ++ '"' :: rest) := rfl
  simp only [readValue, hquote, readString_printString]
  rfl

theorem readsBack_word {v : Json} {c : Char} {word : List Char} (hprinted : printed v = c :: word)
    (h : ∀ fuel rest, readValue (fuel + 1) (c :: word ++ rest) = (.ofJson v, some rest)) :
    ReadsBack v := by
  intro fuel rest hfuel
  rw [hprinted, List.length_cons] at hfuel
  obtain ⟨fuel, rfl⟩ := Nat.exists_eq_add_one_of_ne_zero (by omega : fuel ≠ 0)
  rw [hprinted]
  exact h fuel rest

/-- Whatever has no numbers is read back. -/
theorem Plain.readsBack {v : Json} (h : Plain v) : ReadsBack v := by
  induction h with
  | null =>
      have hprinted : printed .null = ['n', 'u', 'l', 'l'] := by decide +kernel
      exact readsBack_word hprinted fun _ _ => rfl
  | bool b =>
      cases b with
      | true =>
          have hprinted : printed (.bool true) = ['t', 'r', 'u', 'e'] := by decide +kernel
          exact readsBack_word hprinted fun _ _ => rfl
      | false =>
          have hprinted : printed (.bool false) = ['f', 'a', 'l', 's', 'e'] := by decide +kernel
          exact readsBack_word hprinted fun _ _ => rfl
  | string s => exact readsBack_string s
  | list h ih => exact readsBack_list fun v hv => ⟨h v hv, ih v hv⟩
  | object h ih => exact readsBack_object ih

/-- A text is read as one value, and what follows it may only be blank. -/
theorem ofString_of_readValue {text : String} {document : Document} {rest : List Char}
    (h : readValue (2 * text.toList.length + 1) text.toList = (document, some rest)) :
    Text.ofString text = ⟨document, !(skipSpace rest).isEmpty⟩ := by
  unfold Text.ofString
  dsimp only
  rw [h]

/-- **What is printed denotes the value.** -/
theorem denotes_compact {v : Json} (h : Plain v) : Denotes v.compact v := by
  have hread := h.readsBack (2 * v.printed.length + 1) [] (by omega)
  rw [List.append_nil] at hread
  exact ofString_of_readValue hread

end LiveSchema.Json
