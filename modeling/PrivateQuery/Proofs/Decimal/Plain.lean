import PrivateQuery.Proofs.Binary64.Integers
import PrivateQuery.Proofs.Decimal.Shortest

/-!
# Doubles in full

A finite double that is not negative is written as a numeral with neither sign nor power of ten
(`Numeral.Bare`). The numeral is read back as the same double, bit for bit, and it has a point exactly
if the double is no integer (`plain_eq_text`). Read as an integer it is one exactly if the double is an
integer below `2 ^ 63` (`readInt?_plain`).
-/
namespace PrivateQuery.Decimal

open Binary64

/-- A numeral that begins with a digit and ends with its digits. -/
structure Numeral.Bare (n : Numeral) : Prop where
  sign : n.sign? = none
  scale : n.scale? = none
  whole : n.whole ≠ []

theorem Numeral.power_of_isPlain (n : Numeral) (plain : n.isPlain = true) : n.power = 0 := by
  simp only [isPlain, Bool.and_eq_true, Option.isNone_iff_eq_none] at plain
  simp [power, plain]

theorem Numeral.Bare.negative {n : Numeral} (bare : n.Bare) : n.negative = false := by
  rw [Numeral.negative, bare.sign, Option.getD_none]

/-! ## Digits in full -/

theorem ofDigits_toDigits (before after n : ℕ) :
    ofDigits (List.replicate before '0' ++ Nat.toDigits 10 n ++ List.replicate after '0') =
      n * 10 ^ after := by
  change Nat.ofDigitChars 10 _ 0 = _
  rw [Nat.ofDigitChars_append, Nat.ofDigitChars_append, Nat.ofDigitChars_replicate_zero,
    Nat.ofDigitChars_replicate_zero, mul_zero, Nat.ofDigitChars_ten_toDigits, mul_comm]

theorem isDigit_zeros {before after n : ℕ} {c : Char}
    (mem : c ∈ List.replicate before '0' ++ Nat.toDigits 10 n ++ List.replicate after '0') :
    c.isDigit = true := by
  simp only [List.mem_append, List.mem_replicate] at mem
  rcases mem with (⟨-, rfl⟩ | mem) | ⟨-, rfl⟩
  · rfl
  · exact Nat.isDigit_of_mem_toDigits (by norm_num) (by norm_num) mem
  · rfl

/-- The numeral of some digits, of which the last ones may stand after a point. -/
def Numeral.bare (whole : List Char) (fraction? : Option (List Char))
    (isDigit : ∀ c ∈ whole ++ fraction?.getD [], c.isDigit = true) (nonempty : whole ≠ []) : Numeral :=
  ⟨none, whole, fraction?, none, isDigit, by simp [nonempty]⟩

/-- A numeral that stands for a decimal and has a point exactly if there are digits behind one. -/
structure Numeral.Shows (n : Numeral) (d : Decimal) : Prop where
  bare : n.Bare
  size : (n.digits : ℝ) * 10 ^ n.power = d.size
  point : n.isPlain = true ↔ 0 ≤ d.exponent

/-- Digits and zeros after them. -/
theorem whole_eq_text {d : Decimal} {k : ℕ} (exponent : d.exponent = k) :
    ∃ n : Numeral, n.text = toString d.digits ++ zeros k ∧ n.Shows d := by
  have some := Nat.toDigits_ne_nil (n := d.digits) (b := 10)
  have value := ofDigits_toDigits 0 k d.digits
  have isDigit (c : Char) (mem : c ∈ List.replicate 0 '0' ++ Nat.toDigits 10 d.digits ++
      List.replicate k '0') : c.isDigit = true := isDigit_zeros mem
  rw [List.replicate_zero, List.nil_append] at value isDigit
  refine ⟨.bare (Nat.toDigits 10 d.digits ++ List.replicate k '0') none (by simpa using isDigit)
    (by simp [some]), ?_, ⟨rfl, rfl, by simp [Numeral.bare, some]⟩, ?_, ?_⟩
  · rw [Nat.toString_eq_ofList_toDigits, zeros, ← String.ofList_append]
    simp [Numeral.bare, Numeral.text, Numeral.chars, Numeral.unsigned, signChars]
  · simp [Numeral.digits, Numeral.power, Numeral.bare, size, exponent, value]
  · simp [Numeral.isPlain, Numeral.bare, exponent]

/-- Digits around a point. -/
theorem point_eq_text {d : Decimal} {whole cs : List Char}
    (isDigit : ∀ c ∈ whole ++ cs, c.isDigit = true) (nonempty : whole ≠ [])
    (value : ofDigits (whole ++ cs) = d.digits) (exponent : d.exponent = -cs.length)
    (below : d.exponent < 0) :
    ∃ n : Numeral, n.text = String.ofList whole ++ "." ++ String.ofList cs ∧ n.Shows d := by
  refine ⟨.bare whole (some cs) isDigit nonempty, ?_, ⟨rfl, rfl, nonempty⟩, ?_, ?_⟩
  · simp [Numeral.bare, Numeral.text, Numeral.chars, Numeral.unsigned, signChars, String.append_assoc]
  · simp only [Numeral.digits, Numeral.power, Numeral.bare, size, exponent, Option.getD_some, value,
      Option.map_none, Option.getD_none, zero_sub]
  · simp [Numeral.isPlain, Numeral.bare, below]

/-- **`positional_eq_text`**: digits in full are a numeral. -/
theorem positional_eq_text (d : Decimal) :
    ∃ n : Numeral, n.text = positional "" d ∧ n.Shows d := by
  have shown : toString d.digits = String.ofList (Nat.toDigits 10 d.digits) :=
    Nat.toString_eq_ofList_toDigits
  unfold positional
  split
  next nonneg =>
    obtain ⟨k, exponent⟩ := Int.eq_ofNat_of_zero_le nonneg
    rw [exponent, Int.toNat_natCast, String.append_empty]
    exact whole_eq_text exponent
  next negative =>
    obtain ⟨p, exponent⟩ : ∃ p : ℕ, d.exponent = -p := ⟨(-d.exponent).toNat, by omega⟩
    have places : (-d.exponent).toNat = p := by omega
    have value (before : ℕ) := ofDigits_toDigits before 0 d.digits
    have isDigit (before : ℕ) (c : Char) (mem : c ∈ List.replicate before '0' ++
        Nat.toDigits 10 d.digits ++ List.replicate 0 '0') : c.isDigit = true := isDigit_zeros mem
    have nonempty := Nat.toDigits_ne_nil (n := d.digits) (b := 10)
    simp only [List.replicate_zero, List.append_nil, pow_zero, mul_one] at value isDigit
    dsimp only
    rw [shown, String.length_ofList, places]
    generalize Nat.toDigits 10 d.digits = cs at *
    split
    next inner =>
      have own := List.take_append_drop (cs.length - p) cs
      rw [pointAfter, String.toList_ofList]
      refine point_eq_text ?_ ?_ ?_ ?_ (by omega)
      · rw [own]
        exact isDigit 0
      · simp [nonempty]
        omega
      · rw [own]
        exact value 0
      · rw [exponent, List.length_drop]
        omega
    next outer =>
      have front : "0." ++ zeros (p - cs.length) ++ String.ofList cs =
          String.ofList ['0'] ++ "." ++ String.ofList (List.replicate (p - cs.length) '0' ++ cs) := by
        rw [zeros, String.append_assoc, ← String.ofList_append]
        exact congrArg (· ++ _) (by decide)
      rw [front]
      refine point_eq_text ?_ (by simp) (value (p - cs.length + 1)) ?_ (by omega)
      · exact isDigit (p - cs.length + 1)
      · rw [exponent, List.length_append, List.length_replicate]
        omega

/-! ## Doubles in full -/

section Plain

variable {x : Float} {m : ℕ} {e : ℤ} (reading : read x = .finite false m e)

include reading

/-- **`plain_eq_text`**: a double that is not negative is written as a numeral, which is read back as the
same double and has a point exactly if the double is no integer. -/
theorem plain_eq_text : ∃ n : Numeral, n.text = plain x ∧ n.Bare ∧ readFloat? n.text = some x ∧
    (n.isPlain = true ↔ isWhole x = true) := by
  rcases Nat.eq_zero_or_pos m with rfl | positive
  · have bits : x = 0 := by
      have canonical := canonical_read x
      rw [reading] at canonical
      obtain rfl : e = -1074 := canonical.2.2.resolve_right (by norm_num)
      have zero : x.toBits = 0 := by
        rw [← UInt64.toNat_inj, toBits_of_read reading]
        simp
      rw [← Float.ofBits_toBits x, zero]
      decide +kernel
    subst bits
    refine ⟨.bare ['0'] none (by simp) (by simp), by decide +kernel, ⟨rfl, rfl, by simp [Numeral.bare]⟩,
      by decide +kernel, iff_of_true rfl (by decide +kernel)⟩
  · have shown : plain x = positional "" (shortest .up m e) := by
      simp [plain, Layout.write, reading, sign, positive.ne']
    obtain ⟨n, text, bare, size, point⟩ := positional_eq_text (shortest .up m e)
    have holds := shortest_holds reading positive .up
    rw [← size] at holds
    have same := toFloat_of_holds reading positive holds
    refine ⟨n, text.trans shown.symm, bare, ?_, fun integral => ?_, fun whole => point.2 ?_⟩
    · rw [n.readFloat?_text, bare.negative, same]
    · -- A natural that becomes the double is the double, or they both are above all fractions.
      have rounds := rounds_toFloat_unsigned n.digits n.power
      rw [same, n.power_of_isPlain integral, zpow_zero, mul_one] at rounds
      have finite : IsFinite x := ⟨_, _, _, reading⟩
      rcases le_or_gt n.digits (2 ^ 53) with few | many
      · refine isWhole_of_place finite (i := n.digits) ?_
        rw [rounds.eq (grid_natCast few)]
        rfl
      · have large := rounds.ge (grid_natCast le_rfl) (by exact_mod_cast many.le)
        by_contra part
        obtain ⟨k, small, less, -⟩ := floor_ceil_of_part finite (rounds.nonneg (Nat.cast_nonneg _)) part
        have small' : (k : ℝ) + 1 ≤ 2 ^ 53 := by exact_mod_cast (by omega : k + 1 ≤ 2 ^ 53)
        push_cast at large
        linarith
    · have at_ := place_of_isWhole whole
      rw [place, reading, Reading.place, signum_false, one_mul] at at_
      have nonneg : 0 ≤ truncate x := by
        have size : (0 : ℝ) ≤ m * 2 ^ e := by positivity
        rw [at_] at size
        exact_mod_cast size
      obtain ⟨k, integer⟩ := Int.eq_ofNat_of_zero_le nonneg
      rw [integer, Int.cast_natCast] at at_
      exact exponent_of_whole reading positive .up at_

/-- **`readInt?_plain`**: what is written is read as an integer exactly if the double is an integer below
`2 ^ 63`. -/
theorem readInt?_plain :
    (readInt? (plain x)).isSome = true ↔ isWhole x = true ∧ place x < 2 ^ 63 := by
  have finite : IsFinite x := ⟨_, _, _, reading⟩
  rcases eq_or_ne (place x) (2 ^ 63) with limit | apart
  · -- All digits of this one are written, and they are too many for a word.
    have bits : x = 9223372036854775808.0 := by
      have there : read 9223372036854775808.0 = .finite false (2 ^ 52) 11 := by decide +kernel
      refine eq_of_place_eq there (by norm_num) finite ?_
      rw [limit, place, there, Reading.place, signum_false]
      norm_num
    rw [limit]
    subst bits
    refine iff_of_false (by decide +kernel) ?_
    norm_num
  obtain ⟨n, text, bare, float, point⟩ := plain_eq_text reading
  rw [← text, n.readInt?_text, ← point]
  cases plain : n.isPlain with
  | false => simp
  | true =>
    obtain ⟨y, read, rounds⟩ := n.rounds_readFloat?
    obtain rfl : x = y := Option.some_inj.1 (float.symm.trans read)
    have integer : n.integer = n.digits := by simp [Numeral.integer, bare.negative]
    rw [n.value_of_isPlain plain, integer] at rounds
    push_cast at rounds
    have grid : Grid (2 ^ 63) := by
      exact_mod_cast grid_zpow (k := 63) (by norm_num) (by norm_num)
    rw [if_pos rfl, integer, Option.isSome_iff_exists]
    constructor
    · rintro ⟨i, found⟩
      have fits := Word.inRange_toInt i
      rw [Word.ofInt?_eq_some_iff.1 found] at fits
      have few : (n.digits : ℝ) ≤ 2 ^ 63 := by
        exact_mod_cast (by have := fits.2; omega : n.digits ≤ 2 ^ 63)
      exact ⟨rfl, lt_of_le_of_ne (rounds.le grid few) apart⟩
    · rintro ⟨-, less⟩
      have few : n.digits < 2 ^ 63 := by
        by_contra! many
        have large := rounds.ge grid (by exact_mod_cast many)
        linarith
      exact ⟨_, if_pos ⟨by omega, by omega⟩⟩

end Plain

/-! ## Naturals -/

/-- A natural is written as a numeral and is read back as the integer it is. -/
theorem toString_eq_text (k : ℕ) : ∃ n : Numeral, n.text = toString k ∧ n.Bare ∧
    readInt? n.text = Word.ofInt? k := by
  obtain ⟨n, text, bare, size, point⟩ := positional_eq_text ⟨k, 0⟩
  have plain : n.isPlain = true := point.2 le_rfl
  have shown : positional "" ⟨k, 0⟩ = toString k := by simp [positional, zeros]
  have integer : n.integer = k := by
    rw [n.power_of_isPlain plain, Decimal.size, zpow_zero, mul_one, mul_one] at size
    rw [Numeral.integer, bare.negative, if_neg Bool.false_ne_true]
    exact_mod_cast size
  exact ⟨n, text.trans shown, bare, by rw [n.readInt?_text, if_pos plain, integer]⟩

end PrivateQuery.Decimal
