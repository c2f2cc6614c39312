import LiveSchema.Text.Bytes

/-!
# LiveSchema.Proofs.Text.Bytes

Texts and their bytes. Reading undoes writing (`ofBytes?_toBytes`) and writing undoes reading
(`toBytes_of_ofBytes?`), so bytes that are text stand for exactly one text. The form of a character
never begins the form of another, so a text begins with another exactly when its bytes do
(`isPrefixOf_toBytes`).
-/

namespace LiveSchema.Text

theorem utf8Encode_toList (s : String) : s.toList.utf8Encode = (toBytes s).toByteArray := rfl

/-- Reading undoes writing. -/
@[simp] theorem ofBytes?_toBytes (s : String) : ofBytes? (toBytes s) = some s := by
  have hbytes : (⟨(toBytes s).toArray⟩ : ByteArray) = s.toList.utf8Encode := by
    rw [utf8Encode_toList]
    exact ByteArray.ext (by simp)
  rw [ofBytes?, hbytes, List.utf8Decode?_utf8Encode, Option.map_some, String.ofList_toList]

/-- Writing undoes reading. -/
theorem toBytes_of_ofBytes? {bytes : Bytes} {s : String} (h : ofBytes? bytes = some s) :
    toBytes s = bytes := by
  obtain ⟨cs, hcs, rfl⟩ := Option.map_eq_some_iff.mp h
  have hvalid : (ByteArray.utf8Decode? ⟨bytes.toArray⟩).isSome := by rw [hcs]; rfl
  have hencode := ByteArray.utf8Encode_get_utf8Decode? (h := hvalid)
  have hget : (ByteArray.utf8Decode? ⟨bytes.toArray⟩).get hvalid = cs :=
    Option.get_of_eq_some hvalid hcs
  rw [hget] at hencode
  have hdata := congrArg (fun b => b.data.toList) hencode
  simpa [toBytes, List.utf8Encode] using hdata

theorem ofBytes?_eq_some_iff {bytes : Bytes} {s : String} :
    ofBytes? bytes = some s ↔ bytes = toBytes s := by
  constructor
  · exact fun h => (toBytes_of_ofBytes? h).symm
  · rintro rfl
    exact ofBytes?_toBytes s

theorem toBytes_injective {a b : String} (h : toBytes a = toBytes b) : a = b := by
  have := ofBytes?_toBytes a
  rw [h, ofBytes?_toBytes] at this
  exact (Option.some.inj this).symm

/-- A text begins with another exactly when its bytes begin with those of the other. -/
theorem isPrefixOf_toBytes (a b : String) :
    (toBytes a).isPrefixOf (toBytes b) = a.toList.isPrefixOf b.toList := by
  rw [Bool.eq_iff_iff, List.isPrefixOf_iff_prefix, List.isPrefixOf_iff_prefix]
  constructor
  · rintro ⟨rest, hrest⟩
    refine List.isPrefix_of_utf8Encode_append_eq_utf8Encode rest.toByteArray ?_
    rw [utf8Encode_toList, utf8Encode_toList, ← hrest]
    exact (List.toByteArray_append ..).symm
  · rintro ⟨rest, hrest⟩
    refine ⟨rest.flatMap String.utf8EncodeChar, ?_⟩
    rw [toBytes, toBytes, ← hrest, List.flatMap_append]

end LiveSchema.Text
