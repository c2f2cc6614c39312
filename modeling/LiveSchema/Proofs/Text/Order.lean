import LiveSchema.Text.Bytes
import Mathlib.Data.String.Basic

/-!
# LiveSchema.Proofs.Text.Order

The order of texts is that of their bytes (`compare_toBytes`). Texts are ordered by their
characters, and bytes as numbers, in both cases from the first on.

The form of a character is one leading byte and up to three that follow it, which hold six bits
each (`CodePoint.form`). Of two characters the smaller one has fewer bytes that follow or as
many. If it has fewer, its leading byte is smaller, because leading bytes say how many bytes follow.
If it has as many, the bytes compare like the digits of two numbers (`CodePoint.followers_lt`).
-/

namespace LiveSchema.Text

/-! ### Comparing bytes -/

theorem compare_append_left (p x y : Bytes) : compare (p ++ x) (p ++ y) = compare x y := by
  induction p with
  | nil => rfl
  | cons b p ih => rw [List.cons_append, List.cons_append, List.compare_cons_cons, ih]; simp

/-- Bytes are smaller if the first one is, or if it is equal and the rest is smaller. -/
theorem compare_cons_eq_lt {a b : Nat} (ha : a < 256) (hb : b < 256) (hle : a ≤ b) {x y : Bytes}
    (heq : a = b → compare x y = .lt) :
    compare (UInt8.ofNat a :: x) (UInt8.ofNat b :: y) = .lt := by
  rw [List.compare_cons_cons]
  cases Nat.lt_or_eq_of_le hle with
  | inl hlt =>
      have hbytes : UInt8.ofNat a < UInt8.ofNat b := by
        rwa [UInt8.lt_iff_toNat_lt, UInt8.toNat_ofNat', UInt8.toNat_ofNat', Nat.mod_eq_of_lt ha,
          Nat.mod_eq_of_lt hb]
      rw [show compare (UInt8.ofNat a) (UInt8.ofNat b) = .lt from
        compareOfLessAndEq_eq_lt.mpr hbytes]
      rfl
  | inr hab =>
      subst hab
      simp [heq rfl]

namespace CodePoint

/-- How many bytes follow the leading byte of a code point. -/
def following (v : Nat) : Nat :=
  if v ≤ 0x7f then 0 else if v ≤ 0x7ff then 1 else if v ≤ 0xffff then 2 else 3

/-- The smallest leading byte that a number of bytes follows. -/
def leader : Nat → Nat
  | 0 => 0
  | 1 => 0xc0
  | 2 => 0xe0
  | 3 => 0xf0
  | _ => 0xf8

/-- The last bytes of the form of a code point, six bits each. -/
def followers (v : Nat) : Nat → Bytes
  | 0 => []
  | k + 1 => UInt8.ofNat (v / 64 ^ k % 64 + 0x80) :: followers v k

/-- The leading byte of a code point, as a number. -/
def leading (v : Nat) : Nat := leader (following v) + v / 64 ^ following v

/-- The form of a code point. -/
def form (v : Nat) : Bytes := UInt8.ofNat (leading v) :: followers v (following v)

theorem leading_lt {v : Nat} (hv : v < 0x110000) : leading v < leader (following v + 1) := by
  unfold leading following
  split_ifs <;> simp only [leader] <;> omega

/-- Fewer bytes follow a smaller code point, or as many. -/
theorem following_mono {v w : Nat} (h : v ≤ w) : following v ≤ following w := by
  unfold following
  split_ifs <;> omega

theorem leader_mono : Monotone leader :=
  monotone_nat_of_le_succ fun
    | 0 | 1 | 2 | 3 => by decide
    | _ + 4 => Nat.le_refl _

theorem leader_le : ∀ k, leader k ≤ 0xf8
  | 0 | 1 | 2 | 3 => by decide
  | _ + 4 => Nat.le_refl _

/-- Of two numbers that differ only in their last digits to base 64, the smaller one has the smaller
digits. -/
theorem followers_lt {v w k : Nat} (h : v < w) (hsame : v / 64 ^ k = w / 64 ^ k)
    (x y : Bytes) : compare (followers v k ++ x) (followers w k ++ y) = .lt := by
  induction k with
  | zero => simp [h.ne] at hsame
  | succ k ih =>
      have hle : v / 64 ^ k ≤ w / 64 ^ k := Nat.div_le_div_right h.le
      have hhigher : v / 64 ^ k / 64 = w / 64 ^ k / 64 := by
        rw [Nat.div_div_eq_div_mul, Nat.div_div_eq_div_mul, ← pow_succ, hsame]
      exact compare_cons_eq_lt (by omega) (by omega) (by omega) fun hdigit => ih (by omega)

/-- A smaller code point has the smaller form, whatever comes after it. -/
theorem form_lt {v w : Nat} (h : v < w) (hw : w < 0x110000) (x y : Bytes) :
    compare (form v ++ x) (form w ++ y) = .lt := by
  have hv := leading_lt (h.trans hw)
  have hvbound := leader_le (following v + 1)
  have hwlead := leading_lt hw
  have hwbound := leader_le (following w + 1)
  cases Nat.lt_or_eq_of_le (following_mono h.le) with
  | inl hfewer =>
      have hle : leader (following v + 1) ≤ leader (following w) := leader_mono hfewer
      have hlt : leading v < leading w := (hv.trans_le hle).trans_le (Nat.le_add_right _ _)
      exact compare_cons_eq_lt (by omega) (by omega) hlt.le fun heq => absurd heq hlt.ne
  | inr hsame =>
      have hle : v / 64 ^ following v ≤ w / 64 ^ following v := Nat.div_le_div_right h.le
      unfold leading at hv hwlead
      unfold form leading
      rw [← hsame] at hwlead ⊢
      exact compare_cons_eq_lt (by omega) (by omega) (by omega) fun heq =>
        followers_lt h (by omega) x y

end CodePoint

/-! ### Comparing texts -/

theorem codePoint_lt (c : Char) : c.val.toNat < 0x110000 := by
  have := c.valid
  unfold UInt32.isValidChar Nat.isValidChar at this
  omega

open CodePoint in
/-- A character is encoded as the form of its code point. -/
theorem utf8EncodeChar_eq (c : Char) : String.utf8EncodeChar c = form c.val.toNat := by
  have hv := codePoint_lt c
  unfold String.utf8EncodeChar form leading following
  dsimp only
  split_ifs with h₁ h₂ h₃
  · simp [leader, followers]
  · have hlead : c.val.toNat / 64 % 32 + 192 = 192 + c.val.toNat / 64 := by omega
    simp only [leader, followers, hlead, pow_zero, pow_one, Nat.div_one]
  · have hlead : c.val.toNat / 4096 % 16 + 224 = 224 + c.val.toNat / 4096 := by omega
    simp only [leader, followers, hlead, Nat.reducePow, pow_zero, pow_one, Nat.div_one]
  · have hlead : c.val.toNat / 262144 % 8 + 240 = 240 + c.val.toNat / 262144 := by omega
    simp only [leader, followers, hlead, Nat.reducePow, pow_zero, pow_one, Nat.div_one]

/-- A smaller list of characters has smaller bytes. -/
theorem compare_flatMap_utf8EncodeChar {cs ds : List Char} (h : cs < ds) :
    compare (cs.flatMap String.utf8EncodeChar) (ds.flatMap String.utf8EncodeChar) = .lt := by
  induction ds generalizing cs with
  | nil => exact absurd h (List.not_lt_nil cs)
  | cons d ds ih =>
      cases cs with
      | nil =>
          rw [List.flatMap_cons, utf8EncodeChar_eq]
          rfl
      | cons c cs =>
          rw [List.flatMap_cons, List.flatMap_cons]
          rw [List.cons_lt_cons_iff] at h
          cases h with
          | inl hlt =>
              rw [utf8EncodeChar_eq, utf8EncodeChar_eq]
              exact CodePoint.form_lt (UInt32.lt_iff_toNat_lt.mp hlt) (codePoint_lt d) _ _
          | inr heq =>
              obtain ⟨rfl, hlt⟩ := heq
              rw [compare_append_left, ih hlt]

/-- **The order of texts is that of their bytes.** -/
theorem compare_toBytes (a b : String) : compare (toBytes a) (toBytes b) = compare a b := by
  have hlt : ∀ {a b : String}, a < b →
      compare (toBytes a) (toBytes b) = .lt ∧ compare a b = .lt := by
    intro a b h
    exact ⟨compare_flatMap_utf8EncodeChar (String.lt_iff_toList_lt.mp h),
      compareOfLessAndEq_eq_lt.mpr h⟩
  rcases lt_trichotomy a b with h | rfl | h
  · rw [(hlt h).1, (hlt h).2]
  · simp
  · rw [Std.OrientedCmp.gt_of_lt (hlt h).1, Std.OrientedCmp.gt_of_lt (hlt h).2]

/-- Unlike the order of sixteen-bit units, in which an emoji comes before a ligature. -/
example : compare (toBytes "ﬁ") (toBytes "😀") = .lt := by decide

end LiveSchema.Text
