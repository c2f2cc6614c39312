import LiveSchema.Files.Path
import Mathlib.Data.String.Basic

/-!
# LiveSchema.Proofs.Files.Path

Written paths, character by character. What is asked of a path is asked of the names between its
slashes (`Path.names`), also where they are looked for by their positions in the text.
-/

namespace LiveSchema.Path

open String

/-- What stands between the slashes of a path. -/
def names (s : String) : List String := (s.toList.splitOnP (· == '/')).map String.ofList

/-- `l` was read before the name that is being read, `m` is what was read of the name, and `r` is
what is left. -/
theorem splitOnAux_slash (l m r : List Char) (acc : List String) :
    (String.ofList (l ++ m ++ r)).splitOnAux "/" ⟨utf8Len l⟩ ⟨utf8Len l + utf8Len m⟩ 0 acc =
      acc.reverse ++ (List.splitOnPPrepend (· == '/') r m.reverse).map String.ofList := by
  induction r generalizing l m acc with
  | nil =>
      have hend : Pos.Raw.atEnd (String.ofList (l ++ m ++ [])) ⟨utf8Len l + utf8Len m⟩ = true := by
        rw [← utf8Len_append]
        exact (atEnd_of_valid (l ++ m) []).mpr rfl
      rw [String.splitOnAux, if_pos hend]
      dsimp only
      rw [extract_of_valid]
      simp
  | cons c r ih =>
      have hmore : ¬ Pos.Raw.atEnd (String.ofList (l ++ m ++ c :: r))
          ⟨utf8Len l + utf8Len m⟩ = true := by
        rw [← utf8Len_append, atEnd_of_valid (l ++ m) (c :: r)]
        exact List.cons_ne_nil c r
      have hget : Pos.Raw.get (String.ofList (l ++ m ++ c :: r)) ⟨utf8Len l + utf8Len m⟩ = c := by
        rw [← utf8Len_append, get_of_valid]
        rfl
      have hnext : Pos.Raw.next (String.ofList (l ++ m ++ c :: r)) ⟨utf8Len l + utf8Len m⟩ =
          ⟨utf8Len l + utf8Len (m ++ [c])⟩ := by
        rw [← utf8Len_append, next_of_valid]
        simp [Nat.add_assoc]
      have hslash : Pos.Raw.get "/" 0 = '/' := by decide +kernel
      rw [String.splitOnAux, if_neg hmore, hget, hslash, List.splitOnPPrepend_cons_eq_if]
      by_cases hc : c = '/'
      · -- the name ends here, and the next one begins after the slash
        subst hc
        have hwhole : Pos.Raw.atEnd "/" (Pos.Raw.next "/" 0) = true := by decide +kernel
        have hone : Pos.Raw.next "/" 0 = ⟨1⟩ := by decide +kernel
        have hback : (⟨utf8Len l + utf8Len (m ++ ['/'])⟩ : Pos.Raw).unoffsetBy
            (Pos.Raw.next "/" 0) = ⟨utf8Len l + utf8Len m⟩ := by
          rw [hone, utf8Len_append]
          rfl
        rw [if_pos BEq.rfl, if_pos BEq.rfl]
        dsimp only
        rw [if_pos hwhole, hnext, hback, extract_of_valid]
        simpa [Nat.add_assoc] using ih (l ++ m ++ ['/']) [] (String.ofList m :: acc)
      · have hne : ¬ (c == '/') = true := mt eq_of_beq hc
        have hstay : (⟨utf8Len l + utf8Len m⟩ : Pos.Raw).unoffsetBy 0 =
            ⟨utf8Len l + utf8Len m⟩ := rfl
        rw [if_neg hne, if_neg hne, hstay, hnext]
        simpa using ih l (m ++ [c]) acc

/-- A path is taken apart at its slashes. -/
theorem splitOn_slash (s : String) : s.splitOn "/" = names s := by
  rw [String.splitOn, if_neg (by decide), names]
  simpa using splitOnAux_slash [] [] s.toList []

end LiveSchema.Path
