import LiveSchema.Json.Decode
import LiveSchema.Proofs.Json.Printing
import Mathlib.Data.List.Nodup

/-!
# LiveSchema.Proofs.Json.Records

How records are written as objects. The fields may stand in any order, and those that hold their
default may be left out. What a record says of its fields is a list of members (`Member`), each with
the ways to write its value, and an object writes the record if it has these members, each once
(`WritesRecord`).

* `RecordDecoder.Reads` — a decoder takes every such object to one value. The lemmas about it follow
  the way in which a decoder is put together, field by field.
* `RecordDecoder.Reads.run` — so the decoder reads what is written.
-/

namespace LiveSchema

/-- A member of a record. -/
structure Member where
  name : String
  /-- The ways to write its value. -/
  Writes : Json → Prop
  /-- It may be left out. -/
  Optional : Prop

/-- Some fields write the members of a record, in any order. -/
structure WritesRecord (members : List Member) (fields : List (String × Json)) : Prop where
  distinct : (fields.map Prod.fst).Nodup
  written : ∀ e ∈ fields, ∃ m ∈ members, m.name = e.1 ∧ m.Writes e.2
  complete : ∀ m ∈ members, m.Optional ∨ ∃ e ∈ fields, e.1 = m.name

/-! ### Ways to write a value -/

namespace Writes

/-- A text is written as such. -/
def text (s : String) (v : Json) : Prop := v = .string s

/-- So is a truth value. -/
def flag (b : Bool) (v : Json) : Prop := v = .bool b

/-- An absent value is written as `null`. -/
def option {α : Type} (W : α → Json → Prop) (a : Option α) (v : Json) : Prop :=
  match a with
  | none => v = .null
  | some a => W a v

/-- A list is written item by item. -/
def list {α : Type} (W : α → Json → Prop) (as : List α) (v : Json) : Prop :=
  ∃ vs, v = .list vs ∧ List.Forall₂ W as vs

/-- A record is written as an object. -/
def record (members : List Member) (v : Json) : Prop :=
  ∃ fields, v = .object fields ∧ WritesRecord members fields

variable {α : Type} {W : α → Json → Prop} {write : α → Json}

@[simp] theorem text_string (s : String) : text s (.string s) := rfl

@[simp] theorem flag_bool (b : Bool) : flag b (.bool b) := rfl

theorem option_ofOption (h : ∀ a, W a (write a)) (a : Option α) :
    option W a (Json.ofOption write a) := by
  cases a with
  | none => rfl
  | some a => exact h a

theorem list_map (h : ∀ a, W a (write a)) (as : List α) : list W as (.list (as.map write)) :=
  ⟨_, rfl, List.forall₂_map_right_iff.mpr (List.forall₂_same.mpr fun a _ => h a)⟩

theorem list_singleton {a : α} {v : Json} (h : W a v) : list W [a] (.list [v]) :=
  ⟨_, rfl, .cons h .nil⟩

theorem plain_text {s : String} {v : Json} (h : text s v) : v.Plain := by
  obtain rfl : v = .string s := h
  exact .string s

theorem plain_flag {b : Bool} {v : Json} (h : flag b v) : v.Plain := by
  obtain rfl : v = .bool b := h
  exact .bool b

theorem plain_option (hW : ∀ {a v}, W a v → v.Plain) {a : Option α} {v : Json}
    (h : option W a v) : v.Plain := by
  cases a with
  | none =>
      obtain rfl : v = .null := h
      exact .null
  | some a => exact hW h

theorem plain_list (hW : ∀ {a v}, W a v → v.Plain) {as : List α} {v : Json}
    (h : list W as v) : v.Plain := by
  obtain ⟨vs, rfl, hvs⟩ := h
  refine .list ?_
  induction hvs with
  | nil => exact nofun
  | cons hv _ ih => exact List.forall_mem_cons.mpr ⟨hW hv, ih⟩

/-- A record has no numbers in it if its members have none. -/
theorem plain_record {members : List Member} (hm : ∀ m ∈ members, ∀ v, m.Writes v → v.Plain)
    {v : Json} (h : record members v) : v.Plain := by
  obtain ⟨fields, rfl, hw⟩ := h
  refine .object fun e he => ?_
  obtain ⟨m, hmem, -, hv⟩ := hw.written e he
  exact hm m hmem e.2 hv

end Writes

namespace Document

theorem ofItems_eq (items : List Json) : ofItems items = items.map ofJson := by
  induction items with
  | nil => rfl
  | cons item rest ih => rw [ofItems, ih, List.map_cons]

end Document

/-! ### Reading what is written -/

/-- Whatever is written in some way is read as one value. -/
def Decoder.Reads {α : Type} (decode : Decoder α) (W : Json → Prop) (a : α) : Prop :=
  ∀ v, W v → decode .text (.ofJson v) = .ok a

namespace Decoder

variable {α : Type} {decode : Decoder α} {W : α → Json → Prop}

theorem reads_text (s : String) : text.Reads (Writes.text s) s := by
  intro v hv
  obtain rfl : v = .string s := hv
  rfl

theorem reads_flag (b : Bool) : flag.Reads (Writes.flag b) b := by
  intro v hv
  obtain rfl : v = .bool b := hv
  rfl

/-- What is not absent must not be written as `null`. -/
theorem reads_optional (h : ∀ a, decode.Reads (W a) a) (hnull : ∀ a, ¬ W a .null) (a : Option α) :
    (optional decode).Reads (Writes.option W a) a := by
  intro v hv
  cases a with
  | none =>
      obtain rfl : v = .null := hv
      rfl
  | some a =>
      have hread := h a v hv
      have hsome : optional decode .text (.ofJson v) = some <$> decode .text (.ofJson v) := by
        cases v with
        | null => exact absurd hv (hnull a)
        | bool | number | string | list | object => rfl
      rw [hsome, hread]
      rfl

theorem reads_listOf (h : ∀ a, decode.Reads (W a) a) (as : List α) :
    (listOf decode).Reads (Writes.list W as) as := by
  intro v hv
  obtain ⟨vs, rfl, hvs⟩ := hv
  have hitems : items (decode .text) (vs.map Document.ofJson) = .ok as := by
    induction hvs with
    | nil => rfl
    | cons hv _ ih =>
        rw [List.map_cons, items, h _ _ hv, ih]
        rfl
  rw [Document.ofJson, Document.ofItems_eq, listOf, hitems]
  rfl

end Decoder

/-! ### Reading records -/

/-- The parts of a record have a member, or may lack it. -/
def Parts.Has (parts : Parts) (m : Member) : Prop :=
  (parts.entries.lookup m.name = none ∧ m.Optional) ∨
    ∃ v, parts.entries.lookup m.name = some (.ofJson v) ∧ m.Writes v

namespace RecordDecoder

variable {α β : Type}

/-- Whatever writes the members of a record is read as one value. -/
structure Reads (r : RecordDecoder α) (members : List Member) (a : α) : Prop where
  /-- Each field is checked under the name of its member, and passes. -/
  checks : List.Forall₂ (fun (field : String × Decoder Unit) (m : Member) =>
    field.1 = m.name ∧ ∀ v, m.Writes v → field.2 .text (.ofJson v) = .ok ()) r.fields members
  build : ∀ parts, (∀ m ∈ members, parts.Has m) → r.build .text parts = .ok a

/-! ### Putting decoders together -/

theorem reads_pure (a : α) : (pure a).Reads [] a where
  checks := .nil
  build := fun _ _ => rfl

theorem Reads.seq {f : RecordDecoder (α → β)} {r : RecordDecoder α}
    {members members' : List Member} {g : α → β} {a : α} (hf : f.Reads members g)
    (hr : r.Reads members' a) : (f <*> r).Reads (members ++ members') (g a) where
  checks := List.rel_append hf.checks hr.checks
  build := by
    intro parts hparts
    have hleft := hf.build parts fun m hm => hparts m (List.mem_append_left _ hm)
    have hright := hr.build parts fun m hm => hparts m (List.mem_append_right _ hm)
    show (f.apply r).build .text parts = .ok (g a)
    rw [RecordDecoder.apply]
    dsimp only
    rw [hleft, hright]
    rfl

theorem Reads.map (g : α → β) {r : RecordDecoder α} {members : List Member} {a : α}
    (hr : r.Reads members a) : (g <$> r).Reads members (g a) :=
  (reads_pure g).seq hr

/-- A check is passed by what is read. -/
theorem check_eq_ok {decode : Decoder α} {d : Document} {a : α} (h : decode .text d = .ok a) :
    (fun _ => ()) <$> decode .text d = .ok () := by
  rw [h]
  rfl

theorem reads_required (name : String) {decode : Decoder α} {W : Json → Prop} {a : α}
    (h : decode.Reads W a) : (required name decode).Reads [⟨name, W, False⟩] a where
  checks := .cons ⟨rfl, fun v hv => check_eq_ok (h v hv)⟩ .nil
  build := by
    intro parts hparts
    rcases hparts _ List.mem_cons_self with ⟨-, hnot⟩ | ⟨v, hlookup, hv⟩
    · exact hnot.elim
    · rw [required]
      dsimp only
      rw [hlookup]
      exact h v hv

theorem reads_withDefault (name : String) {fallback : α} {decode : Decoder α} {W : Json → Prop}
    {a : α} (h : decode.Reads W a) :
    (withDefault name fallback decode).Reads [⟨name, W, a = fallback⟩] a where
  checks := .cons ⟨rfl, fun v hv => check_eq_ok (h v hv)⟩ .nil
  build := by
    intro parts hparts
    rw [withDefault]
    dsimp only
    rcases hparts _ List.mem_cons_self with ⟨hnone, hdefault⟩ | ⟨v, hlookup, hv⟩
    · rw [hnone, hdefault]
    · rw [hlookup]
      exact h v hv

/-! ### Reading -/

/-- Written fields pass the checks one by one, and are kept in their order. -/
theorem checkEntries_ofEntries {known : List (String × Decoder Unit)} {seen : List String}
    {fields : List (String × Json)} (hn : (fields.map Prod.fst).Nodup)
    (hseen : ∀ e ∈ fields, e.1 ∉ seen)
    (h : ∀ e ∈ fields, ∃ check, known.lookup e.1 = some check ∧
      check .text (.ofJson e.2) = .ok ()) :
    checkEntries known .text seen (Document.ofEntries fields) =
      .ok (fields.map fun e => (e.1, .ofJson e.2)) := by
  induction fields generalizing seen with
  | nil => rfl
  | cons e rest ih =>
      obtain ⟨check, hlookup, hcheck⟩ := h e List.mem_cons_self
      obtain ⟨hnew, hrest⟩ := List.nodup_cons.mp hn
      have hunseen : seen.contains e.1 = false := by
        rw [← Bool.not_eq_true, List.contains_iff_mem]
        exact hseen e List.mem_cons_self
      have hlater := @ih (e.1 :: seen) hrest
        (fun e' he' hmem => by
          rcases List.mem_cons.mp hmem with heq | hmem
          · exact hnew (heq ▸ List.mem_map_of_mem he')
          · exact hseen e' (List.mem_cons_of_mem _ he') hmem)
        (fun e' he' => h e' (List.mem_cons_of_mem _ he'))
      rw [Document.ofEntries, checkEntries]
      dsimp only [orFault, bind, Except.bind]
      rw [hlookup]
      dsimp only
      rw [hunseen, if_neg Bool.false_ne_true, hcheck, hlater]
      rfl

/-- Each member has its check. -/
theorem lookup_of_checks {known : List (String × Decoder Unit)} {members : List Member}
    (h : List.Forall₂ (fun (field : String × Decoder Unit) (m : Member) =>
      field.1 = m.name ∧ ∀ v, m.Writes v → field.2 .text (.ofJson v) = .ok ()) known members)
    (hn : (members.map (·.name)).Nodup) {m : Member} (hm : m ∈ members) {v : Json}
    (hv : m.Writes v) :
    ∃ check, known.lookup m.name = some check ∧ check .text (.ofJson v) = .ok () := by
  induction h with
  | nil => cases hm
  | @cons field m' known members hfirst _ ih =>
      obtain ⟨hname, hcheck⟩ := hfirst
      obtain ⟨hnew, hrest⟩ := List.nodup_cons.mp hn
      rw [List.lookup_cons]
      rcases List.mem_cons.mp hm with rfl | hm
      · rw [hname, beq_self_eq_true]
        exact ⟨field.2, rfl, hcheck v hv⟩
      · have hne : (m.name == field.1) = false := by
          rw [beq_eq_false_iff_ne, hname]
          exact fun heq => hnew (List.mem_map.mpr ⟨m, hm, heq⟩)
        rw [hne]
        exact ih hrest hm

/-- Where fields write a record, each member is found or may be left out. -/
theorem has_of_writes {members : List Member} (hn : (members.map (·.name)).Nodup)
    {fields : List (String × Json)} (hw : WritesRecord members fields)
    {missing : String → DecodeError} {m : Member} (hm : m ∈ members) :
    Parts.Has ⟨fields.map fun e => (e.1, Document.ofJson e.2), missing⟩ m := by
  unfold Parts.Has
  dsimp only
  cases hlookup : (fields.map fun e => (e.1, Document.ofJson e.2)).lookup m.name with
  | none =>
      refine .inl ⟨rfl, (hw.complete m hm).resolve_right fun hfield => ?_⟩
      obtain ⟨e, he, hname⟩ := hfield
      have hne := List.lookup_eq_none_iff.mp hlookup _ (List.mem_map_of_mem he)
      exact absurd hname.symm (by simpa using hne)
  | some d =>
      obtain ⟨before, after, hfields, -⟩ := List.lookup_eq_some_iff.mp hlookup
      have hmem : (m.name, d) ∈ fields.map fun e => (e.1, Document.ofJson e.2) := by
        rw [hfields]
        exact List.mem_append_right before List.mem_cons_self
      obtain ⟨e, he, hpair⟩ := List.mem_map.mp hmem
      obtain ⟨hname, rfl⟩ := Prod.mk.inj hpair
      obtain ⟨m', hm', hname', hv⟩ := hw.written e he
      obtain rfl := List.inj_on_of_nodup_map hn hm' hm (hname'.trans hname)
      exact .inr ⟨e.2, rfl, hv⟩

/-- **What is written is read.** -/
theorem Reads.run {r : RecordDecoder α} {members : List Member} {a : α} (h : r.Reads members a)
    (hn : (members.map (·.name)).Nodup) (title : String) :
    (RecordDecoder.run title r).Reads (Writes.record members) a := by
  intro v hv
  obtain ⟨fields, rfl, hw⟩ := hv
  have hentries := @checkEntries_ofEntries r.fields [] fields hw.distinct
    (fun _ _ => List.not_mem_nil) (fun e he => by
      obtain ⟨m, hm, hname, hv⟩ := hw.written e he
      exact hname ▸ lookup_of_checks h.checks hn hm hv)
  rw [Document.ofJson, RecordDecoder.run]
  dsimp only [bind, Except.bind]
  rw [hentries]
  exact h.build _ fun m hm => has_of_writes hn hw hm

end RecordDecoder

end LiveSchema
