import LiveSchema.Engine
import LiveSchema.Proofs.Settings
import LiveSchema.Proofs.Text.Order

/-!
# LiveSchema.Proofs.Settings.Backends

The two places for settings answer alike. Settings are handled by reading, writing, clearing,
scanning, flushing and opening again (`Settings.Request`), in any order.

* `Settings.backends_answer_alike` — from the start on, settings in memory and in a persistent store
  give the same answers to the same requests, the ones that a plain map from keys to values gives
  (`Settings.Answered`).

What a persistent store keeps is what is kept in memory, each text by its bytes
(`MemorySettings.toPersistent`). This is a map in key order because texts are ordered as their bytes
are (`Text.compare_toBytes`), and one request keeps it so (`serve_inMemory`, `serve_persistent`). A
scan of bytes finds the keys that a scan of texts finds, since a text begins with another exactly
when its bytes do.
-/

namespace LiveSchema

/-! ### Texts by their bytes -/

namespace MemorySettings

/-- The bytes of a key and of its value. -/
def entryBytes (e : String × String) : Bytes × Bytes := (Text.toBytes e.1, Text.toBytes e.2)

/-- The same settings as a persistent store keeps them. -/
def toPersistent (m : MemorySettings) : PersistentSettings where
  entries := m.entries.map entryBytes
  sorted := List.pairwise_map.mpr <| m.sorted.imp fun h => by
    rw [entryBytes, entryBytes, Text.compare_toBytes, h]

theorem lookup_map_entryBytes (key : String) (l : List (String × String)) :
    SortedMap.lookup (Text.toBytes key) (l.map entryBytes) =
      (SortedMap.lookup key l).map Text.toBytes := by
  induction l with
  | nil => rfl
  | cons e rest ih =>
      simp only [List.map_cons, entryBytes, SortedMap.lookup, Text.compare_toBytes]
      split
      · rfl
      · exact ih

theorem get?_toPersistent (m : MemorySettings) (key : String) :
    m.toPersistent.get? (Text.toBytes key) = (m.get? key).map Text.toBytes :=
  lookup_map_entryBytes key m.entries

theorem insertEntry_map_entryBytes (key value : String) (l : List (String × String)) :
    SortedMap.insertEntry (Text.toBytes key) (Text.toBytes value) (l.map entryBytes) =
      (SortedMap.insertEntry key value l).map entryBytes := by
  induction l with
  | nil => rfl
  | cons e rest ih =>
      simp only [List.map_cons, entryBytes, SortedMap.insertEntry, Text.compare_toBytes]
      split
      · rfl
      · rfl
      · simp only [List.map_cons]
        exact congrArg _ ih

theorem toPersistent_insert (m : MemorySettings) (key value : String) :
    toPersistent (m.insert key value) =
      m.toPersistent.insert (Text.toBytes key) (Text.toBytes value) :=
  SortedMap.eq_of_entries (insertEntry_map_entryBytes key value m.entries).symm

theorem toPersistent_erase (m : MemorySettings) (key : String) :
    toPersistent (m.erase key) = m.toPersistent.erase (Text.toBytes key) := by
  refine SortedMap.eq_of_entries ?_
  simp only [toPersistent, SortedMap.erase, SortedMap.filter, List.filter_map]
  simp only [Function.comp_def, entryBytes, Text.compare_toBytes]

theorem readPairs_map_entryBytes (start : String) (pairs : List (String × String)) :
    PersistentSettings.readPairs start (pairs.map entryBytes) = .ok pairs := by
  induction pairs with
  | nil => rfl
  | cons e rest ih =>
      simp only [List.map_cons, entryBytes, PersistentSettings.readPairs,
        PersistentSettings.textOf_toBytes, ih]
      rfl

/-- A scan of bytes lists the pairs that the scan of texts does. -/
theorem scan_toPersistent (m : MemorySettings) (start : String) :
    m.toPersistent.scan start = .ok (m.scan start) := by
  have hfilter : m.toPersistent.entries.filter
      (fun e => (Text.toBytes start).isPrefixOf e.1) = (m.scan start).map entryBytes := by
    rw [scan_eq_filter, toPersistent, List.filter_map]
    simp only [Function.comp_def, entryBytes, Text.isPrefixOf_toBytes]
    rfl
  rw [PersistentSettings.scan, hfilter, readPairs_map_entryBytes]

end MemorySettings

namespace Settings

/-! ### Requests -/

/-- What can be asked of settings. -/
inductive Request where
  | get (key : String)
  | set (key : String) (value : Option String)
  | scan (start : String)
  | flush
  /-- Close the settings, and open them again where they are kept. -/
  | reopen (path : String)

/-- What is answered. -/
inductive Reply where
  | done
  | value (v : Option String)
  | pairs (ps : List (String × String))

/-- The settings closed and opened again. A directory is opened on what it keeps; settings in memory
have no place to be opened from, so they are left open. -/
def reopen (s : Settings) (path : String) : Except SettingsError Settings :=
  match s.contents with
  | .memory _ => .ok s
  | .persistent stored => Settings.open .directory (some path) stored

/-- Do what is asked, and answer. -/
def serve (s : Settings) : Request → Except SettingsError (Reply × Settings)
  | .get key => do return (.value (← s.get key), s)
  | .set key value => do return (.done, ← s.set key value)
  | .scan start => do return (.pairs (← s.scan start), s)
  | .flush => do
    s.flush
    return (.done, s)
  | .reopen path => do return (.done, ← s.reopen path)

/-- The answers to requests, one after the other. A request that fails changes nothing. -/
def answers (s : Settings) : List Request → List (Except SettingsError Reply)
  | [] => []
  | request :: rest =>
    match s.serve request with
    | .ok (reply, s) => .ok reply :: s.answers rest
    | .error error => .error error :: s.answers rest

/-! ### What a plain map answers -/

/-- A map from keys to values after a request. -/
def Request.update (m : String → Option String) : Request → String → Option String
  | .set key value => Function.update m key value
  | _ => m

/-- What a map from keys to values has to answer to a request. -/
inductive Answered (m : String → Option String) : Request → Reply → Prop where
  | get (key : String) : Answered m (.get key) (.value (m key))
  | set (key : String) (value : Option String) : Answered m (.set key value) .done
  /-- In key order, the pairs whose keys begin with the text. -/
  | scan {start : String} {pairs : List (String × String)}
      (sorted : (pairs.map Prod.fst).Pairwise (· < ·))
      (mem_iff : ∀ key value,
        (key, value) ∈ pairs ↔ m key = some value ∧ start.toList <+: key.toList) :
      Answered m (.scan start) (.pairs pairs)
  | flush : Answered m .flush .done
  | reopen (path : String) : Answered m (.reopen path) .done

/-- What a map from keys to values has to answer to requests, each of which may change it. -/
inductive AnsweredAll :
    (String → Option String) → List Request → List (Except SettingsError Reply) → Prop where
  | nil {m : String → Option String} : AnsweredAll m [] []
  | cons {m : String → Option String} {request : Request} {rest : List Request} {reply : Reply}
      {replies : List (Except SettingsError Reply)}
      (head : Answered m request reply) (tail : AnsweredAll (request.update m) rest replies) :
      AnsweredAll m (request :: rest) (.ok reply :: replies)

theorem Answered.unique {m : String → Option String} {request : Request} {a b : Reply}
    (ha : Answered m request a) (hb : Answered m request b) : a = b := by
  cases ha with
  | scan hsorted hmem =>
      cases hb with
      | scan hsorted' hmem' =>
          refine congrArg Reply.pairs (SortedMap.eq_of_names_sorted hsorted hsorted' fun e => ?_)
          rw [hmem, hmem']
  | _ => cases hb; rfl

/-- A map has one answer to each of some requests. -/
theorem AnsweredAll.unique {m : String → Option String} {requests : List Request}
    {as bs : List (Except SettingsError Reply)} (ha : AnsweredAll m requests as)
    (hb : AnsweredAll m requests bs) : as = bs := by
  induction ha generalizing bs with
  | nil => cases hb; rfl
  | cons head _ ih =>
      cases hb with
      | cons head' tail' => rw [head.unique head', ih tail']

/-! ### What both backends answer -/

/-- What settings in memory answer. -/
def Request.reply (m : MemorySettings) : Request → Reply
  | .get key => .value (m.get? key)
  | .scan start => .pairs (m.scan start)
  | _ => .done

/-- Settings in memory after a request. -/
def Request.next (m : MemorySettings) : Request → MemorySettings
  | .set key (some value) => m.insert key value
  | .set key none => m.erase key
  | _ => m

variable (m : MemorySettings) (request : Request)

theorem serve_inMemory :
    (inMemory m).serve request = .ok (request.reply m, inMemory (request.next m)) := by
  cases request with
  | get key => rfl
  | set key value => cases value <;> rfl
  | scan start => rfl
  | flush => rfl
  | reopen path => rfl

theorem checkAllowed_persistent (stored : PersistentSettings) (operation : SettingsOperation) :
    (persistent stored).checkAllowed operation = .ok () := rfl

theorem get_persistent (key : String) :
    (persistent m.toPersistent).get key = .ok (m.get? key) := by
  rw [get, checkAllowed_persistent]
  simp only [persistent, MemorySettings.get?_toPersistent]
  cases m.get? key with
  | none => rfl
  | some value =>
      simp only [Option.map_some, PersistentSettings.textOf_toBytes]
      rfl

theorem scan_persistent (start : String) :
    (persistent m.toPersistent).scan start = .ok (m.scan start) := by
  rw [scan, checkAllowed_persistent]
  exact MemorySettings.scan_toPersistent m start

/-- A persistent store answers like settings in memory, and keeps what they keep. -/
theorem serve_persistent :
    (persistent m.toPersistent).serve request =
      .ok (request.reply m, persistent (request.next m).toPersistent) := by
  cases request with
  | get key =>
      rw [serve, get_persistent]
      rfl
  | set key value =>
      cases value with
      | some value =>
          rw [Request.next, MemorySettings.toPersistent_insert]
          rfl
      | none =>
          rw [Request.next, MemorySettings.toPersistent_erase]
          rfl
  | scan start =>
      rw [serve, scan_persistent]
      rfl
  | flush => rfl
  | reopen path => rfl

/-- Settings in memory answer as a map does. -/
theorem answered_reply : Answered m.get? request (request.reply m) := by
  cases request with
  | get key => exact .get key
  | set key value => exact .set key value
  | scan start =>
      refine .scan ?_ fun key value => ?_
      · rw [MemorySettings.scan_eq_filter]
        exact (SortedMap.keys_sorted m).sublist (List.filter_sublist.map Prod.fst)
      · rw [MemorySettings.scan_eq_filter, List.mem_filter, SortedMap.mem_entries_iff,
          MemorySettings.beginsWith_iff]
  | flush => exact .flush
  | reopen path => exact .reopen path

/-- A request changes settings in memory as it changes a map. -/
theorem get?_next : SortedMap.get? (request.next m) = request.update m.get? := by
  funext key
  cases request with
  | set key' value =>
      cases value with
      | some value =>
          simp only [Request.next, Request.update, SortedMap.get?_insert, Function.update_apply,
            eq_comm]
      | none =>
          simp only [Request.next, Request.update, SortedMap.get?_erase, Function.update_apply,
            eq_comm]
  | _ => rfl

/-- Both backends answer requests alike, and as a map does. -/
theorem answers_eq (requests : List Request) :
    (inMemory m).answers requests = (persistent m.toPersistent).answers requests ∧
      AnsweredAll m.get? requests ((inMemory m).answers requests) := by
  induction requests generalizing m with
  | nil => exact ⟨rfl, .nil⟩
  | cons request rest ih =>
      obtain ⟨heq, hanswered⟩ := ih (request.next m)
      rw [get?_next] at hanswered
      simp only [answers, serve_inMemory, serve_persistent]
      exact ⟨congrArg _ heq, .cons (answered_reply m request) hanswered⟩

/-- **The backends answer alike**, and exactly as a plain map from keys to values does, whatever
texts the keys, the values and the beginnings are. -/
theorem backends_answer_alike (requests : List Request) :
    inMemory.answers requests = persistent.answers requests ∧
      ∀ replies, AnsweredAll (fun _ => none) requests replies ↔
        replies = persistent.answers requests := by
  obtain ⟨heq, hanswered⟩ := answers_eq .empty requests
  have hempty : MemorySettings.toPersistent .empty = .empty := rfl
  rw [hempty] at heq
  rw [heq] at hanswered
  refine ⟨heq, fun replies => ⟨fun h => h.unique hanswered, fun h => ?_⟩⟩
  rw [h]
  exact hanswered

end Settings

end LiveSchema
