import LiveSchema.Proofs.Definition.Store
import LiveSchema.Proofs.Json.Records

/-!
# LiveSchema.Proofs.Definition.Files

Schema files. A file of definitions is a list of records, in each of which members that hold their
default may be left out and the order is free (`Definition.Written`). Loading it gives the last
definition of each kind and name, in order (`Definition.Arranged`), with every field as it was
written, whatever way of writing was chosen.

* `Definition.reads` — the decoder reads every way to write a definition.
* `Definition.arranged_definitions` — what a store of definitions lists.
* `Store.schema_files_round_trip` — so files are loaded as they were written, and what was loaded is
  loaded again unchanged.
-/

namespace LiveSchema

/-! ### Records -/

theorem Kind.reads (kind : Kind) : Kind.decoder.Reads (Writes.text kind.name) kind := by
  intro v hv
  obtain rfl : v = .string kind.name := hv
  cases kind <;> rfl

open RecordDecoder Decoder

namespace PropertyDeclaration

/-- The members of the record of a property. -/
def members (p : PropertyDeclaration) : List Member :=
  [⟨"name", Writes.text p.name, False⟩, ⟨"declared_type", Writes.text p.declaredType, False⟩,
    ⟨"indexed", Writes.flag p.indexed, p.indexed = false⟩,
    ⟨"indexed_when_empty", Writes.flag p.indexedWhenEmpty, p.indexedWhenEmpty = false⟩,
    ⟨"read_only", Writes.flag p.readOnly, p.readOnly = false⟩]

/-- The ways to write a property. -/
def Written (p : PropertyDeclaration) : Json → Prop := Writes.record p.members

theorem reads (p : PropertyDeclaration) : decoder.Reads p.Written p :=
  (reads_required "name" (reads_text p.name)).map PropertyDeclaration.mk
    |>.seq (reads_required "declared_type" (reads_text p.declaredType))
    |>.seq (reads_withDefault "indexed" (reads_flag p.indexed))
    |>.seq (reads_withDefault "indexed_when_empty" (reads_flag p.indexedWhenEmpty))
    |>.seq (reads_withDefault "read_only" (reads_flag p.readOnly))
    |>.run (by simp) _

theorem plain_of_written {p : PropertyDeclaration} {v : Json} (h : p.Written v) : v.Plain := by
  refine Writes.plain_record ?_ h
  simp only [members, List.forall_mem_cons]
  exact ⟨fun _ => Writes.plain_text, fun _ => Writes.plain_text, fun _ => Writes.plain_flag,
    fun _ => Writes.plain_flag, fun _ => Writes.plain_flag, nofun⟩

theorem written_toJson (p : PropertyDeclaration) : p.Written p.toJson :=
  ⟨_, rfl, by simp, by simp [members], by simp [members]⟩

end PropertyDeclaration

namespace ViewDeclaration

/-- The members of the record of a view. -/
def members (v : ViewDeclaration) : List Member :=
  [⟨"name", Writes.text v.name, False⟩,
    ⟨"properties", Writes.list Writes.text v.properties, False⟩]

/-- The ways to write a view. -/
def Written (v : ViewDeclaration) : Json → Prop := Writes.record v.members

theorem reads (v : ViewDeclaration) : decoder.Reads v.Written v :=
  (reads_required "name" (reads_text v.name)).map ViewDeclaration.mk
    |>.seq (reads_required "properties" (reads_listOf reads_text v.properties))
    |>.run (by simp) _

theorem plain_of_written {v : ViewDeclaration} {w : Json} (h : v.Written w) : w.Plain := by
  refine Writes.plain_record ?_ h
  simp only [members, List.forall_mem_cons]
  exact ⟨fun _ => Writes.plain_text, fun _ => Writes.plain_list Writes.plain_text, nofun⟩

theorem written_toJson (v : ViewDeclaration) : v.Written v.toJson := by
  have hproperties : Writes.list Writes.text v.properties (Json.ofStrings v.properties) :=
    Writes.list_map Writes.text_string v.properties
  exact ⟨_, rfl, by simp, by simp [members, hproperties], by simp [members]⟩

end ViewDeclaration

namespace Endpoints

/-- The members of the record of endpoints. -/
def members (e : Endpoints) : List Member :=
  [⟨"source", Writes.text e.source, False⟩, ⟨"target", Writes.text e.target, False⟩,
    ⟨"relationship_type", Writes.text e.relationshipType, False⟩]

/-- The ways to write endpoints. -/
def Written (e : Endpoints) : Json → Prop := Writes.record e.members

theorem reads (e : Endpoints) : decoder.Reads e.Written e :=
  (reads_required "source" (reads_text e.source)).map Endpoints.mk
    |>.seq (reads_required "target" (reads_text e.target))
    |>.seq (reads_required "relationship_type" (reads_text e.relationshipType))
    |>.run (by simp) _

theorem plain_of_written {e : Endpoints} {v : Json} (h : e.Written v) : v.Plain := by
  refine Writes.plain_record ?_ h
  simp only [members, List.forall_mem_cons]
  exact ⟨fun _ => Writes.plain_text, fun _ => Writes.plain_text, fun _ => Writes.plain_text, nofun⟩

theorem written_toJson (e : Endpoints) : e.Written e.toJson :=
  ⟨_, rfl, by simp, by simp [members], by simp [members]⟩

end Endpoints

namespace Definition

/-- The members of the record of a definition. -/
def members (d : Definition) : List Member :=
  [⟨"name", Writes.text d.name, False⟩, ⟨"kind", Writes.text d.kind.name, False⟩,
    ⟨"extends", Writes.option Writes.text d.parent, d.parent = none⟩,
    ⟨"properties", Writes.list PropertyDeclaration.Written d.properties, d.properties = []⟩,
    ⟨"views", Writes.list ViewDeclaration.Written d.views, d.views = []⟩,
    ⟨"auxiliary_source", Writes.option Writes.text d.auxiliarySource, d.auxiliarySource = none⟩,
    ⟨"endpoints", Writes.option Endpoints.Written d.endpoints, d.endpoints = none⟩,
    ⟨"builtin", Writes.flag d.builtin, d.builtin = false⟩,
    ⟨"non_indexed", Writes.flag d.nonIndexed, d.nonIndexed = false⟩]

/-- The ways to write a definition. -/
def Written (d : Definition) : Json → Prop := Writes.record d.members

/-- A definition is read however it is written. -/
theorem reads (d : Definition) : decoder.Reads d.Written d := by
  have hparent := reads_optional reads_text (fun _ => nofun) d.parent
  have hsource := reads_optional reads_text (fun _ => nofun) d.auxiliarySource
  have hendpoints := reads_optional Endpoints.reads (fun _ => nofun) d.endpoints
  exact (reads_required "name" (reads_text d.name)).map Definition.mk
    |>.seq (reads_required "kind" (Kind.reads d.kind))
    |>.seq (reads_withDefault "extends" hparent)
    |>.seq (reads_withDefault "properties" (reads_listOf PropertyDeclaration.reads d.properties))
    |>.seq (reads_withDefault "views" (reads_listOf ViewDeclaration.reads d.views))
    |>.seq (reads_withDefault "auxiliary_source" hsource)
    |>.seq (reads_withDefault "endpoints" hendpoints)
    |>.seq (reads_withDefault "builtin" (reads_flag d.builtin))
    |>.seq (reads_withDefault "non_indexed" (reads_flag d.nonIndexed))
    |>.run (by simp) _

theorem plain_of_written {d : Definition} {v : Json} (h : d.Written v) : v.Plain := by
  refine Writes.plain_record ?_ h
  simp only [members, List.forall_mem_cons]
  exact ⟨fun _ => Writes.plain_text, fun _ => Writes.plain_text,
    fun _ => Writes.plain_option Writes.plain_text,
    fun _ => Writes.plain_list PropertyDeclaration.plain_of_written,
    fun _ => Writes.plain_list ViewDeclaration.plain_of_written,
    fun _ => Writes.plain_option Writes.plain_text,
    fun _ => Writes.plain_option Endpoints.plain_of_written, fun _ => Writes.plain_flag,
    fun _ => Writes.plain_flag, nofun⟩

/-- The full record is one way to write a definition. -/
theorem written_toJson (d : Definition) : d.Written d.toJson := by
  have hparent := Writes.option_ofOption Writes.text_string d.parent
  have hproperties := Writes.list_map PropertyDeclaration.written_toJson d.properties
  have hviews := Writes.list_map ViewDeclaration.written_toJson d.views
  have hsource := Writes.option_ofOption Writes.text_string d.auxiliarySource
  have hendpoints := Writes.option_ofOption Endpoints.written_toJson d.endpoints
  refine ⟨_, rfl, by simp, ?_, by simp [members]⟩
  simp [members, hparent, hproperties, hviews, hsource, hendpoints]

/-! ### What is loaded -/

/-- Node types come before relationship types, and each kind is in name order. -/
def Precedes (d e : Definition) : Prop :=
  (d.kind = .node ∧ e.kind = .relationship) ∨ (d.kind = e.kind ∧ d.name < e.name)

/-- The last definition of each kind and name, in order. -/
structure Arranged (ds loaded : List Definition) : Prop where
  ordered : loaded.Pairwise Precedes
  mem_iff : ∀ d, d ∈ loaded ↔
    ∃ before after, ds = before ++ d :: after ∧ ∀ e ∈ after, ¬ (e.kind = d.kind ∧ e.name = d.name)

/-- What precedes a definition is of another kind or name. -/
theorem Precedes.other {d e : Definition} (h : Precedes d e) :
    ¬ (e.kind = d.kind ∧ e.name = d.name) := by
  intro hsame
  obtain ⟨hkind, hname⟩ := hsame
  rcases h with ⟨hnode, hrelationship⟩ | ⟨-, hlt⟩
  · rw [hkind, hnode] at hrelationship
    cases hrelationship
  · exact absurd hname hlt.ne'

theorem Precedes.asymm {d e : Definition} (h : Precedes d e) : ¬ Precedes e d := by
  intro hback
  rcases h with ⟨hnode, hrelationship⟩ | ⟨hsame, hlt⟩
  · rcases hback with ⟨hnode', -⟩ | ⟨hsame, -⟩
    · rw [hrelationship] at hnode'
      cases hnode'
    · rw [hrelationship, hnode] at hsame
      cases hsame
  · rcases hback with ⟨hnode, hrelationship⟩ | ⟨-, hlt'⟩
    · rw [hrelationship, hnode] at hsame
      cases hsame
    · exact lt_asymm hlt hlt'

/-- There is one such arrangement. -/
theorem Arranged.unique {ds loaded loaded' : List Definition} (h : Arranged ds loaded)
    (h' : Arranged ds loaded') : loaded = loaded' := by
  have hne {d e : Definition} (hlt : Precedes d e) : d ≠ e := by
    intro heq
    exact hlt.other ⟨heq ▸ rfl, heq ▸ rfl⟩
  have hperm : loaded.Perm loaded' :=
    (List.perm_ext_iff_of_nodup (h.ordered.imp hne) (h'.ordered.imp hne)).mpr fun d =>
      (h.mem_iff d).trans (h'.mem_iff d).symm
  exact hperm.eq_of_pairwise (fun _ _ _ _ hab hba => absurd hba hab.asymm) h.ordered h'.ordered

/-- What is arranged stays as it is. -/
theorem Arranged.again {ds loaded : List Definition} (h : Arranged ds loaded) :
    Arranged loaded loaded where
  ordered := h.ordered
  mem_iff := by
    intro d
    constructor
    · intro hd
      obtain ⟨before, after, hloaded⟩ := List.append_of_mem hd
      have hordered := h.ordered
      rw [hloaded, List.pairwise_append, List.pairwise_cons] at hordered
      obtain ⟨-, ⟨hlater, -⟩, -⟩ := hordered
      exact ⟨before, after, hloaded, fun e he => (hlater e he).other⟩
    · intro hd
      obtain ⟨before, after, hloaded, -⟩ := hd
      rw [hloaded]
      exact List.mem_append_right before List.mem_cons_self

/-- What a store of definitions lists. -/
theorem arranged_definitions (ds : List Definition) :
    Arranged ds (Store.ofDefinitions ds).definitions := by
  have hk := Store.keyed_ofDefinitions ds
  have hkind {kind : Kind} {d : Definition}
      (hd : d ∈ ((Store.ofDefinitions ds).ofKind kind).values) : d.kind = kind := by
    obtain ⟨name, hname⟩ := SortedMap.mem_values_iff.mp hd
    exact (hk hname).1
  have hsorted (kind : Kind) :
      ((Store.ofDefinitions ds).ofKind kind).values.Pairwise Precedes := by
    have hnames := ((Store.ofDefinitions ds).ofKind kind).keys_sorted
    rw [SortedMap.keys_eq_map fun h => (hk h).2, List.pairwise_map] at hnames
    exact hnames.imp_of_mem fun hd he hlt => .inr ⟨(hkind hd).trans (hkind he).symm, hlt⟩
  constructor
  · rw [Store.definitions, List.pairwise_append]
    exact ⟨hsorted .node, hsorted .relationship, fun d hd e he =>
      .inl ⟨@hkind .node d hd, @hkind .relationship e he⟩⟩
  · intro d
    -- the last one in the list is the first one from its end
    rw [Store.mem_definitions_iff hk, Store.definition?_ofDefinitions,
      List.find?_eq_some_iff_append]
    simp only [List.reverse_eq_iff, List.reverse_append, List.reverse_cons, List.append_assoc,
      List.singleton_append]
    constructor
    · intro hfirst
      obtain ⟨-, after, before, hds, hafter⟩ := hfirst
      refine ⟨before.reverse, after.reverse, hds, fun e he => ?_⟩
      simpa [imp_iff_not_or] using hafter e (List.mem_reverse.mp he)
    · intro hlast
      obtain ⟨before, after, hds, hafter⟩ := hlast
      refine ⟨by simp, after.reverse, before.reverse, by simpa using hds, fun e he => ?_⟩
      simpa [imp_iff_not_or] using hafter e (List.mem_reverse.mp he)

end Definition

/-! ### Files -/

namespace Store

/-- The definitions that are loaded from a text. -/
def loadText (text : String) : Except StoreError (List Definition) := do
  let store ← ofText text
  let (definitions, _) ← store.load
  return definitions

/-- The ways to write a list of definitions as a schema file. -/
def Files (ds : List Definition) : Json → Prop := Writes.list Definition.Written ds

/-- The file of full records. -/
def fullFile (ds : List Definition) : Json := .list (ds.map Definition.toJson)

/-- What becomes of definitions that are written to a file and loaded from it. -/
structure RoundTrips (ds loaded : List Definition) : Prop where
  /-- The last definition of each kind and name is loaded, in order. -/
  arranged : Definition.Arranged ds loaded
  /-- The full records are one way to write the definitions, ... -/
  full : Files ds (fullFile ds)
  /-- ... and whatever way is chosen, the text of the file is loaded so. -/
  loads : ∀ {v}, Files ds v → ∀ {text}, Json.Denotes text v → loadText text = .ok loaded
  /-- Such a text is the printed one. -/
  printed : ∀ {v}, Files ds v → Json.Denotes v.compact v
  /-- What was loaded is loaded unchanged from a file of it, ... -/
  again : ∀ {v}, Files loaded v → ∀ {text}, Json.Denotes text v → loadText text = .ok loaded
  /-- ... and from a store that holds it. -/
  kept : (ofDefinitions loaded).definitions = loaded

/-- A file of definitions is loaded as a store of them lists them. -/
theorem loadText_eq {ds : List Definition} {v : Json} (hv : Files ds v) {text : String}
    (h : Json.Denotes text v) : loadText text = .ok (ofDefinitions ds).definitions := by
  have hread := Decoder.reads_listOf Definition.reads ds v hv
  have htext : ofText text = .ok (ofDefinitions ds) := by
    rw [ofText, decodeText, h]
    dsimp only [bind, Except.bind]
    rw [definitionsDecoder, hread]
    rfl
  rw [loadText, htext]
  dsimp only [bind, Except.bind]
  rw [load_of_available (available_ofDefinitions ds)]
  rfl

/-- **Schema files round-trip.** Whatever definitions are written, and in whatever way, the last one
of each kind and name is loaded as it was, and what was loaded stays as it is. -/
theorem schema_files_round_trip (ds : List Definition) : ∃ loaded, RoundTrips ds loaded := by
  have harranged := Definition.arranged_definitions ds
  have hkept := (Definition.arranged_definitions (ofDefinitions ds).definitions).unique
    harranged.again
  exact ⟨(ofDefinitions ds).definitions,
    { arranged := harranged
      full := Writes.list_map Definition.written_toJson ds
      loads := fun hv _ h => loadText_eq hv h
      printed := fun hv =>
        Json.denotes_compact (Writes.plain_list Definition.plain_of_written hv)
      again := fun hv _ h => (loadText_eq hv h).trans (congrArg Except.ok hkept)
      kept := hkept }⟩

/-- A property that is indexed. -/
def sizeProperty : PropertyDeclaration where
  name := "size"
  declaredType := "Long"
  indexed := true

/-- A relationship type, and a node type that is defined twice. -/
def filesOfUsers : List Definition :=
  [.relationship "Owns" ⟨"User", "File", "OWNS"⟩, .node "File",
    ((Definition.node "File").extending "AbstractNode").withProperty sizeProperty]

/-- A file of them, without the members that hold their default. -/
def filesOfUsersFile : Json :=
  .list [
    .object [("kind", .string "relationship"), ("name", .string "Owns"),
      ("endpoints", Endpoints.toJson ⟨"User", "File", "OWNS"⟩)],
    .object [("name", .string "File"), ("kind", .string "node")],
    .object [("properties", .list [.object [("indexed", .bool true), ("name", .string "size"),
        ("declared_type", .string "Long")]]),
      ("extends", .string "AbstractNode"), ("kind", .string "node"), ("name", .string "File")]]

/-- The second definition of the node type is loaded, before the relationship type. -/
theorem filesOfUsers_round_trip :
    Files filesOfUsers filesOfUsersFile ∧ loadText filesOfUsersFile.compact = .ok
      [((Definition.node "File").extending "AbstractNode").withProperty sizeProperty,
        .relationship "Owns" ⟨"User", "File", "OWNS"⟩] := by
  have hsize : PropertyDeclaration.Written sizeProperty
      (.object [("indexed", .bool true), ("name", .string "size"),
        ("declared_type", .string "Long")]) :=
    ⟨_, rfl, by simp, by simp [PropertyDeclaration.members, sizeProperty],
      by simp [PropertyDeclaration.members, sizeProperty]⟩
  have hproperties := Writes.list_singleton hsize
  have hends := Endpoints.written_toJson ⟨"User", "File", "OWNS"⟩
  have hfiles : Files filesOfUsers filesOfUsersFile := by
    refine ⟨_, rfl, .cons ⟨_, rfl, by simp, ?_, ?_⟩ (.cons ⟨_, rfl, by simp, ?_, ?_⟩
      (.cons ⟨_, rfl, by simp, ?_, ?_⟩ .nil))⟩ <;>
    simp [Definition.members, Definition.relationship, Definition.node, Definition.extending,
      Definition.withProperty, Kind.name, Writes.option, hends, hproperties]
  obtain ⟨loaded, htrip⟩ := schema_files_round_trip filesOfUsers
  obtain rfl := htrip.arranged.unique (Definition.arranged_definitions filesOfUsers)
  have hloaded : (ofDefinitions filesOfUsers).definitions =
      [((Definition.node "File").extending "AbstractNode").withProperty sizeProperty,
        .relationship "Owns" ⟨"User", "File", "OWNS"⟩] := by
    decide +kernel
  exact ⟨hfiles, hloaded ▸ htrip.loads hfiles (htrip.printed hfiles)⟩

end Store

end LiveSchema
