import PrivateQuery.Proofs.Aggregate.Counting
import PrivateQuery.Proofs.Binary64.Order

/-!
# Identity and fingerprints

Two values are the same exactly if they have the same fingerprint (`fingerprint_eq_iff`), and two doubles
exactly if their bits are the same, both are zeros or neither is a number (`same_ofBits_iff`). So a check
by hashes accepts just the lists in which no two positions hold the same value, and a lookup in an
accepted list finds the only category there is for a cell (`identity_sound`).
-/
namespace PrivateQuery

namespace Binary64

/-! ## Bits -/

/-- The bits of a zero of either sign. -/
def IsZeroBits (bits : UInt64) : Prop := bits.toNat % 0x8000000000000000 = 0

/-- The bits of no number, whatever the sign and the fraction. -/
def IsNaNBits (bits : UInt64) : Prop :=
  0x7FF0000000000000 < bits.toNat % 0x8000000000000000

instance decidableIsZeroBits (bits : UInt64) : Decidable (IsZeroBits bits) :=
  inferInstanceAs (Decidable (_ = _))

instance decidableIsNaNBits (bits : UInt64) : Decidable (IsNaNBits bits) :=
  inferInstanceAs (Decidable (_ < _))

variable {bits : UInt64}

theorem IsNaNBits.not_zero (nan : IsNaNBits bits) : ¬ IsZeroBits bits := by
  unfold IsNaNBits at nan
  unfold IsZeroBits
  omega

theorem isNumber_ofBits_iff : IsNumber (Float.ofBits bits) ↔ ¬ IsNaNBits bits := by
  rw [IsNumber, read_ofBits, Reading.ofBits, Reading.ofFields, IsNaNBits]
  split_ifs <;> simp <;> omega

/-- Bits that denote a number are told by what they denote. -/
theorem Reading.eq_of_ofBits {m n : ℕ} (hm : m < 2 ^ 64) (hn : n < 2 ^ 64)
    (number : Reading.ofBits n ≠ .nan) (same : Reading.ofBits m = Reading.ofBits n) : m = n := by
  unfold Reading.ofBits Reading.ofFields at same number
  split_ifs at same number <;> simp at same number <;> omega

/-- A double keeps the bits it is made of, unless they are those of no number. -/
theorem toBits_ofBits (number : ¬ IsNaNBits bits) : (Float.ofBits bits).toBits = bits := by
  have reading := read_ofBits bits
  rw [read_eq_ofBits] at reading
  refine UInt64.toNat_inj.1 (Reading.eq_of_ofBits (UInt64.toNat_lt _) (UInt64.toNat_lt _) ?_ reading)
  rw [← read_ofBits]
  exact isNumber_ofBits_iff.2 number

theorem signum_ne_zero (negative : Bool) : signum negative ≠ 0 := by
  cases negative <;> simp

theorem Reading.place_finite_eq_zero_iff {negative : Bool} {significand : ℕ} {exponent : ℤ} :
    (Reading.finite negative significand exponent).place = 0 ↔ significand = 0 := by
  simp only [Reading.place, mul_eq_zero, signum_ne_zero, (two_zpow_pos _).ne', or_false, false_or,
    Nat.cast_eq_zero]

theorem ofBits_beq_zero_iff : (Float.ofBits bits == 0) = true ↔ IsZeroBits bits := by
  by_cases nan : IsNaNBits bits
  · exact iff_of_false (fun zero => isNumber_ofBits_iff.1 (beq_iff.1 zero).1 nan) nan.not_zero
  · rw [beq_zero_iff (isNumber_ofBits_iff.2 nan), place, read_ofBits, Reading.ofBits,
      Reading.ofFields, IsZeroBits]
    unfold IsNaNBits at nan
    split_ifs with full round empty
    · simp only [Reading.place, mul_eq_zero, signum_ne_zero, limit_pos.ne', false_or, false_iff]
      omega
    · omega
    · rw [Reading.place_finite_eq_zero_iff]
      omega
    · rw [Reading.place_finite_eq_zero_iff]
      omega

end Binary64

namespace Value

open Binary64

/-! ## Doubles -/

/-- The bits that stand for a double, told from the bits that it is made of. -/
theorem canonicalBits_ofBits (bits : UInt64) : canonicalBits (Float.ofBits bits) =
    if IsZeroBits bits then 0 else if IsNaNBits bits then 0x7FF8000000000000 else bits := by
  rw [canonicalBits]
  by_cases zero : IsZeroBits bits
  · rw [if_pos (ofBits_beq_zero_iff.2 zero), if_pos zero]
  · rw [if_neg fun h => zero (ofBits_beq_zero_iff.1 h), if_neg zero]
    by_cases nan : IsNaNBits bits
    · have isNaN : (Float.ofBits bits).isNaN = true := by
        rw [← Bool.not_eq_false, isNaN_eq_false_iff, isNumber_ofBits_iff]
        exact not_not_intro nan
      rw [if_pos isNaN, if_pos nan]
      decide +kernel
    · have number : ¬ (Float.ofBits bits).isNaN = true := by
        rw [Bool.not_eq_true, isNaN_eq_false_iff, isNumber_ofBits_iff]
        exact nan
      rw [if_neg number, if_neg nan, toBits_ofBits nan]

/-- **`same_ofBits_iff`**: two doubles are the same if they have the same bits, if both are zeros or if
neither is a number, and not otherwise. -/
theorem same_ofBits_iff (v w : UInt64) :
    (real (Float.ofBits v)).same (real (Float.ofBits w)) = true ↔
      v = w ∨ (IsZeroBits v ∧ IsZeroBits w) ∨ (IsNaNBits v ∧ IsNaNBits w) := by
  rw [same, beq_iff_eq, canonicalBits_ofBits, canonicalBits_ofBits]
  constructor
  · intro alike
    simp only [← UInt64.toNat_inj, apply_ite UInt64.toNat, UInt64.reduceToNat] at alike ⊢
    split_ifs at alike <;> unfold IsZeroBits IsNaNBits at * <;> omega
  · rintro (rfl | ⟨zero, zero'⟩ | ⟨nan, nan'⟩)
    · rfl
    · rw [if_pos zero, if_pos zero']
    · rw [if_neg nan.not_zero, if_neg nan'.not_zero, if_pos nan, if_pos nan']

/-! ## Fingerprints -/

/-- A byte of a word is a digit of it. -/
theorem toNat_byte (word : UInt64) {i : ℕ} (small : i < 8) :
    (word >>> (8 * i).toUInt64).toUInt8.toNat = word.toNat / 256 ^ i % 256 := by
  have base : 2 ^ (8 * i) = 256 ^ i := Nat.pow_mul 2 8 i
  simp [Nat.shiftRight_eq_div_pow, Nat.mod_eq_of_lt (show 8 * i < 64 by omega), base]

/-- A word is told by its bytes. -/
theorem eq_of_bytesOf {v w : UInt64} (same : bytesOf v = bytesOf w) : v = w := by
  rw [bytesOf, bytesOf, List.map_inj_left] at same
  -- The bytes are the digits to base 256, so words that share the low ones agree up to their power.
  have low (n : ℕ) (most : n ≤ 8) : v.toNat % 256 ^ n = w.toNat % 256 ^ n := by
    induction n with
    | zero => simp [Nat.mod_one]
    | succ n ih =>
      have digit : v.toNat / 256 ^ n % 256 = w.toNat / 256 ^ n % 256 := by
        rw [← toNat_byte v most, ← toNat_byte w most, same n (List.mem_range.2 most)]
      rw [Nat.mod_pow_succ, Nat.mod_pow_succ, ih (by omega), digit]
  have whole := low 8 le_rfl
  have bound (word : UInt64) : word.toNat < 256 ^ 8 := word.toNat_lt
  rw [Nat.mod_eq_of_lt (bound v), Nat.mod_eq_of_lt (bound w)] at whole
  exact UInt64.toNat_inj.1 whole

theorem toList_loop (bytes : ByteArray) (i : ℕ) (before : List UInt8) :
    ByteArray.toList.loop bytes i before = before.reverse ++ bytes.data.toList.drop i := by
  fun_induction ByteArray.toList.loop bytes i before with
  | case1 i before within ih =>
    have inside : i < bytes.data.toList.length := by simpa using within
    have here : bytes.get! i = bytes.data.toList[i] := by
      rw [Array.getElem_toList]
      exact getElem!_pos bytes.data i within
    rw [ih, List.drop_eq_getElem_cons inside, here]
    simp
  | case2 i before past =>
    have none : bytes.data.toList.length ≤ i := by simpa using past
    rw [List.drop_eq_nil_of_le none, List.append_nil]

/-- A text is told by its bytes. -/
theorem eq_of_toUTF8 {s t : String} (same : s.toUTF8.toList = t.toUTF8.toList) : s = t := by
  rw [ByteArray.toList, ByteArray.toList, toList_loop, toList_loop] at same
  refine String.toByteArray_inj.1 (ByteArray.ext (Array.toList_inj.1 ?_))
  simpa using same

/-- **`fingerprint_eq_iff`**: two values are the same exactly if they have the same fingerprint. -/
theorem fingerprint_eq_iff {a b : Value} : a.fingerprint = b.fingerprint ↔ a.same b = true := by
  refine ⟨fun alike => ?_, fingerprint_eq_of_same⟩
  cases a with
  | null => cases b <;> simp [fingerprint, same] at alike ⊢
  | boolean p =>
    cases b with
    | boolean q => cases p <;> cases q <;> simp [fingerprint, same] at alike ⊢
    | _ => simp [fingerprint] at alike
  | integer i =>
    cases b with
    | integer j =>
      rw [fingerprint, fingerprint, List.cons.injEq] at alike
      refine beq_iff_eq.2 ?_
      rw [← Int64.toInt64_toUInt64 i, eq_of_bytesOf alike.2, Int64.toInt64_toUInt64]
    | _ => simp [fingerprint] at alike
  | real x =>
    cases b with
    | real y =>
      rw [fingerprint, fingerprint, List.cons.injEq] at alike
      exact beq_iff_eq.2 (eq_of_bytesOf alike.2)
    | _ => simp [fingerprint] at alike
  | text s =>
    cases b with
    | text t =>
      rw [fingerprint, fingerprint, List.append_left_inj, List.cons.injEq] at alike
      exact beq_iff_eq.2 (eq_of_toUTF8 alike.2)
    | _ => simp [fingerprint] at alike

/-! ## Positions -/

section
variable {values : List Value}

/-- Of distinct values no two positions hold the same value. -/
theorem distinct_iff : Distinct values ↔ ∀ (i j : ℕ) (hi : i < values.length)
    (hj : j < values.length), i ≠ j → values[i].same values[j] = false := by
  unfold Distinct
  rw [List.pairwise_iff_getElem]
  constructor
  · intro distinct i j hi hj ne
    rcases Nat.lt_or_gt_of_ne ne with less | more
    · exact distinct i j hi hj less
    · rw [Bool.eq_false_iff]
      intro alike
      exact Bool.false_ne_true ((distinct j i hj hi more).symm.trans (same_symm alike))
  · exact fun apart i j hi hj less => apart i j hi hj (Nat.ne_of_lt less)

theorem Distinct.position_unique (distinct : Distinct values) {cell : Value} {i j : ℕ}
    (hi : i < values.length) (hj : j < values.length) (first : values[i].same cell = true)
    (second : values[j].same cell = true) : i = j := by
  by_contra ne
  have apart := distinct_iff.1 distinct i j hi hj ne
  exact Bool.false_ne_true (apart.symm.trans (same_trans first (same_symm second)))

end

/-- **`identity_sound`**: being the same is an equivalence, on doubles of all bits too; the same values,
and no others, have the same fingerprint; so by any digest of fingerprints a list is accepted exactly if
no two of its positions hold the same value; and of an accepted list of categories at most one is the
same as a cell, which counts for this one alone. -/
theorem identity_sound :
    Equivalence (fun a b : Value => a.same b = true) ∧
    (∀ v w : UInt64, (real (Float.ofBits v)).same (real (Float.ofBits w)) = true ↔
      v = w ∨ (IsZeroBits v ∧ IsZeroBits w) ∨ (IsNaNBits v ∧ IsNaNBits w)) ∧
    (∀ a b : Value, a.same b = true ↔ a.fingerprint = b.fingerprint) ∧
    (∀ (digest : List UInt8 → UInt64) (bins : List Value),
      allDistinctBy digest bins = allDistinct bins ∧
      (allDistinct bins = true ↔ ∀ (i j : ℕ) (hi : i < bins.length) (hj : j < bins.length),
        i ≠ j → bins[i].same bins[j] = false)) ∧
    ∀ (categories : List Value) (cell : Value), allDistinct categories = true →
      (∀ (i j : ℕ) (hi : i < categories.length) (hj : j < categories.length),
        categories[i].same cell = true → categories[j].same cell = true → i = j) ∧
      ∀ counts : List ℕ, counts.length = categories.length →
        Transformation.countValue categories counts cell =
          List.zipWith (fun k n => n + if k.same cell = true then 1 else 0) categories counts := by
  refine ⟨⟨same_refl, same_symm, same_trans⟩, same_ofBits_iff, fun a b => fingerprint_eq_iff.symm,
    fun digest bins => ⟨?_, allDistinct_iff.trans distinct_iff⟩,
    fun categories cell accepted => ⟨fun i j hi hj first second => ?_, fun counts each => ?_⟩⟩
  · rw [Bool.eq_iff_iff, allDistinctBy_iff, allDistinct_iff]
  · exact (allDistinct_iff.1 accepted).position_unique hi hj first second
  · exact Transformation.countValue_zipWith (allDistinct_iff.1 accepted) each cell

/-- Categories that look alike, and a cell that is no number under other bits than theirs. -/
theorem identity_sound_categories :
    allDistinct [integer 1, real 1.0, text "1", real nan] = true ∧
    (real (Float.ofBits 0x7FF8000000000000)).same (real (Float.ofBits 0xFFF0000000000001)) = true ∧
    (∀ (j : ℕ) (hj : j < 4),
      [integer 1, real 1.0, text "1", real nan][j].same (real (Float.ofBits 0xFFF0000000000001)) = true →
        j = 3) ∧
    Transformation.countValue [integer 1, real 1.0, text "1", real nan] [5, 6, 7, 8]
      (real (Float.ofBits 0xFFF0000000000001)) = [5, 6, 7, 9] := by
  obtain ⟨-, doubles, -, -, lookups⟩ := identity_sound
  have apart : Distinct [integer 1, real 1.0, text "1", real nan] := by decide +kernel
  have accepted : allDistinct [integer 1, real 1.0, text "1", real nan] = true :=
    allDistinct_iff.2 apart
  obtain ⟨unique, counted⟩ := lookups _ (real (Float.ofBits 0xFFF0000000000001)) accepted
  refine ⟨accepted, (doubles _ _).2 (.inr (.inr ?_)), fun j hj found => ?_, ?_⟩
  · decide +kernel
  · exact unique j 3 hj (by decide) found (by decide +kernel)
  · rw [counted [5, 6, 7, 8] rfl]
    decide +kernel

end Value

end PrivateQuery
