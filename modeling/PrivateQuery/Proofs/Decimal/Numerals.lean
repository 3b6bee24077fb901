import PrivateQuery.Decimal.Reading
import PrivateQuery.Proofs.Binary64.Nearest

/-!
# Numerals

A numeral is a sign, digits with a point among them and a power of ten, each but the digits optional; it
denotes a rational number (`Numeral.value`). Read as a double it becomes a nearest one
(`rounds_readFloat?`), also where the reader answers without computing the power of ten; read as an
integer it is that number if it has nothing but digits and a sign (`readInt?_text`).
-/
namespace PrivateQuery.Decimal

open Binary64 (Rounds IsNumber Grid place signum limit signed nearest)

/-! ## Tiny and huge numbers -/

theorem rounds_zero {q : ℝ} {x : Float} (number : IsNumber x) (zero : place x = 0)
    (tiny : |q| ≤ 2 ^ (-1075 : ℤ)) : Rounds q x := by
  refine ⟨number, fun g grid => ?_⟩
  obtain ⟨k, rfl⟩ := grid.multiple
  rw [zero, zero_sub, abs_neg]
  rcases eq_or_ne k 0 with rfl | some
  · simp
  · have one : (1 : ℝ) ≤ |(k : ℝ)| := by exact_mod_cast Int.one_le_abs some
    have least : 2 * (2 : ℝ) ^ (-1075 : ℤ) ≤ |(k : ℝ) * 2 ^ (-1074 : ℤ)| := by
      rw [abs_mul, abs_of_pos (Binary64.two_zpow_pos _), ← zpow_one_add₀ (by norm_num)]
      exact le_mul_of_one_le_left (Binary64.two_zpow_pos _).le one
    linarith [abs_sub_abs_le_abs_sub ((k : ℝ) * 2 ^ (-1074 : ℤ)) q]

theorem rounds_infinity {q : ℝ} (huge : limit ≤ q) : Rounds q Binary64.infinity := by
  have reading : Binary64.read Binary64.infinity = .infinite false := by decide +kernel
  have top : place Binary64.infinity = limit := by
    rw [place, reading, Binary64.Reading.place, Binary64.signum_false, one_mul]
  refine ⟨by simp [IsNumber, reading], fun g grid => ?_⟩
  rw [top, abs_of_nonpos (by linarith), abs_of_nonpos (by linarith [grid.le_limit])]
  linarith [grid.le_limit]

theorem pow_size_le {n : ℕ} (pos : n ≠ 0) : 10 ^ ((toString n).length - 1) ≤ n := by
  have size : (toString n).length = (Nat.toDigits 10 n).length := by
    rw [Nat.toString_eq_ofList_toDigits, String.length_ofList]
  rw [size]
  by_contra! less
  rcases Nat.eq_zero_or_pos ((Nat.toDigits 10 n).length - 1) with one | more
  · rw [one] at less
    omega
  · have short := (Nat.length_toDigits_le_iff (by norm_num) more).2 less
    omega

theorem lt_pow_size (n : ℕ) : n < 10 ^ (toString n).length := by
  rw [Nat.toString_eq_ofList_toDigits, String.length_ofList]
  exact (Nat.length_toDigits_le_iff (by norm_num) Nat.length_toDigits_pos).1 le_rfl

/-! ## Digits and a power of ten -/

theorem toFloat_true (digits : ℕ) (exponent : ℤ) :
    toFloat true digits exponent = -toFloat false digits exponent := by
  unfold toFloat
  dsimp only
  split_ifs <;> simp [signed, nearest]

theorem rounds_toFloat_unsigned (digits : ℕ) (exponent : ℤ) :
    Rounds (digits * 10 ^ exponent) (toFloat false digits exponent) := by
  have ten : (0 : ℝ) < 10 ^ exponent := by positivity
  have below : (digits : ℝ) * 10 ^ exponent < 10 ^ (exponent + (toString digits).length) := by
    rw [zpow_add₀ (by norm_num), mul_comm, zpow_natCast]
    exact mul_lt_mul_of_pos_left (by exact_mod_cast lt_pow_size digits) ten
  unfold toFloat
  dsimp only
  split_ifs with small large integral
  · refine rounds_zero Binary64.isFinite_zero.isNumber Binary64.place_zero ?_
    rw [abs_of_nonneg (by positivity)]
    simp only [Bool.or_eq_true, beq_iff_eq, decide_eq_true_eq] at small
    rcases small with rfl | small
    · simp
    · have tiny : (10 : ℝ) ^ (-401 : ℤ) ≤ 2 ^ (-1075 : ℤ) := by
        rw [zpow_neg, zpow_neg]
        refine inv_anti₀ (by positivity) ?_
        exact_mod_cast (by decide +kernel : 2 ^ 1075 ≤ 10 ^ 401)
      exact below.le.trans ((zpow_le_zpow_right₀ (by norm_num) (by omega)).trans tiny)
  · have some : digits ≠ 0 := by
      rintro rfl
      simp at small
    have least : (10 : ℝ) ^ (exponent + (toString digits).length - 1) ≤ digits * 10 ^ exponent := by
      have positive : 1 ≤ (toString digits).length := by
        rw [Nat.toString_eq_ofList_toDigits, String.length_ofList]
        exact Nat.length_toDigits_pos
      rw [show exponent + ((toString digits).length : ℤ) - 1 =
        ((toString digits).length - 1 : ℕ) + exponent by omega, zpow_add₀ (by norm_num), zpow_natCast]
      exact mul_le_mul_of_nonneg_right (by exact_mod_cast pow_size_le some) ten.le
    have huge : limit ≤ (10 : ℝ) ^ (400 : ℤ) := by
      unfold Binary64.limit
      exact_mod_cast (by decide +kernel : 2 ^ 1024 ≤ 10 ^ 400)
    exact rounds_infinity
      (huge.trans ((zpow_le_zpow_right₀ (by norm_num) (by omega)).trans least))
  · have rounds := Binary64.rounds_nearest one_pos false (digits * 10 ^ exponent.toNat)
    obtain ⟨k, rfl⟩ := Int.eq_ofNat_of_zero_le integral
    simpa [Nat.pow_eq] using rounds
  · have pos : 0 < 10 ^ (-exponent).toNat := by positivity
    have rounds := Binary64.rounds_nearest pos false digits
    obtain ⟨k, rfl⟩ : ∃ k : ℕ, exponent = -k := ⟨(-exponent).toNat, by omega⟩
    simpa [Nat.pow_eq, div_eq_mul_inv] using rounds

/-- **`rounds_toFloat`**: digits and a power of ten become a nearest double. -/
theorem rounds_toFloat (negative : Bool) (digits : ℕ) (exponent : ℤ) :
    Rounds (signum negative * (digits * 10 ^ exponent)) (toFloat negative digits exponent) := by
  cases negative with
  | false => simpa using rounds_toFloat_unsigned digits exponent
  | true =>
    rw [toFloat_true, Binary64.signum_true, neg_one_mul]
    exact (rounds_toFloat_unsigned digits exponent).neg

/-! ## Numerals -/

def signChars : Option Bool → List Char
  | none => []
  | some negative => if negative then ['-'] else ['+']

/-- The power of ten that ends a numeral. -/
structure Scale where
  capital : Bool
  /-- Whether the sign is a minus. -/
  sign? : Option Bool
  digits : List Char
  isDigit : ∀ c ∈ digits, c.isDigit = true
  nonempty : digits ≠ []

/-- A decimal number as it is written. -/
structure Numeral where
  sign? : Option Bool
  whole : List Char
  /-- The digits after the point. -/
  fraction? : Option (List Char)
  scale? : Option Scale
  isDigit : ∀ c ∈ whole ++ fraction?.getD [], c.isDigit = true
  nonempty : whole ++ fraction?.getD [] ≠ []

namespace Scale

def chars (s : Scale) : List Char :=
  (if s.capital then 'E' else 'e') :: (signChars s.sign? ++ s.digits)

def power (s : Scale) : ℤ :=
  if s.sign?.getD false then -(ofDigits s.digits : ℤ) else ofDigits s.digits

end Scale

namespace Numeral

variable (n : Numeral)

/-- The characters after the sign. -/
def unsigned : List Char :=
  n.whole ++ ((n.fraction?.map ('.' :: ·)).getD [] ++ (n.scale?.map Scale.chars).getD [])

def chars : List Char := signChars n.sign? ++ n.unsigned

def text : String := String.ofList n.chars

def negative : Bool := n.sign?.getD false

/-- The number that the digits make without the point. -/
def digits : ℕ := ofDigits (n.whole ++ n.fraction?.getD [])

/-- The power of ten that the number of the digits is multiplied with. -/
def power : ℤ := (n.scale?.map Scale.power).getD 0 - (n.fraction?.getD []).length

def value : ℚ := (if n.negative then -1 else 1) * (n.digits * 10 ^ n.power)

/-- Whether there is nothing but digits and a sign. -/
def isPlain : Bool := n.fraction?.isNone && n.scale?.isNone

end Numeral

/-! ## Reading the parts -/

/-- What follows a run of digits. -/
def NoDigit (rest : List Char) : Prop := ∀ c ∈ rest.head?, c.isDigit = false

theorem span_digits {digits rest : List Char} (all : ∀ c ∈ digits, c.isDigit = true)
    (stop : NoDigit rest) :
    (digits ++ rest).takeWhile Char.isDigit = digits ∧
      (digits ++ rest).dropWhile Char.isDigit = rest := by
  have none : rest.takeWhile Char.isDigit = [] ∧ rest.dropWhile Char.isDigit = rest := by
    cases rest with
    | nil => exact ⟨rfl, rfl⟩
    | cons c rest => simp [stop c rfl]
  rw [List.takeWhile_append_of_pos all, List.dropWhile_append_of_pos all, none.1, none.2,
    List.append_nil]
  exact ⟨rfl, rfl⟩

theorem isDigit_ne_sign {c : Char} (digit : c.isDigit = true) : c ≠ '-' ∧ c ≠ '+' := by
  constructor <;> rintro rfl <;> exact absurd digit (by decide)

theorem readSign_signChars {sign? : Option Bool} {rest : List Char}
    (plain : ∀ c ∈ rest.head?, c ≠ '-' ∧ c ≠ '+') :
    readSign (signChars sign? ++ rest) = (sign?.getD false, rest) := by
  cases sign? with
  | some negative => cases negative <;> rfl
  | none =>
    cases rest with
    | nil => rfl
    | cons c rest =>
      obtain ⟨minus, plus⟩ := plain c rfl
      change readSign (c :: rest) = (false, c :: rest)
      unfold readSign
      split
      · rename_i same
        exact absurd (List.cons.inj same).1 minus
      · rename_i same
        exact absurd (List.cons.inj same).1 plus
      · rfl

theorem readExponent?_chars (s : Scale) : readExponent? s.chars = some s.power := by
  have plain : ∀ c ∈ s.digits.head?, c ≠ '-' ∧ c ≠ '+' :=
    fun c mem => isDigit_ne_sign (s.isDigit c (List.mem_of_mem_head? mem))
  have all : s.digits.all Char.isDigit = true := List.all_eq_true.2 s.isDigit
  have some : s.digits.isEmpty = false := by simpa using s.nonempty
  have marked : ((if s.capital then 'E' else 'e') == 'e' ||
      (if s.capital then 'E' else 'e') == 'E') = true := by
    cases s.capital <;> rfl
  rw [Scale.chars, readExponent?, if_pos marked, readSign_signChars plain]
  simp only [all, some, Bool.not_true, Bool.or_self, Bool.false_eq_true, if_false, Scale.power]
  split <;> rfl

theorem head_scale (s? : Option Scale) {c : Char}
    (first : c ∈ ((s?.map Scale.chars).getD []).head?) : c.isDigit = false ∧ c ≠ '.' := by
  cases s? with
  | none => cases first
  | some s =>
    simp only [Option.map_some, Option.getD_some, Scale.chars, List.head?_cons, Option.mem_def,
      Option.some.injEq] at first
    subst first
    cases s.capital <;> decide

theorem readExponent?_scale (s? : Option Scale) :
    readExponent? ((s?.map Scale.chars).getD []) = some ((s?.map Scale.power).getD 0) := by
  cases s? with
  | none => rfl
  | some s => exact readExponent?_chars s

namespace Numeral

variable (n : Numeral)

theorem head_unsigned : ∃ c rest, n.unsigned = c :: rest ∧ (c.isDigit = true ∨ c = '.') := by
  cases whole : n.whole with
  | cons c cs =>
    exact ⟨c, _, by rw [unsigned, whole]; rfl, .inl (n.isDigit c (by simp [whole]))⟩
  | nil =>
    cases fraction : n.fraction? with
    | none => exact absurd (by simp [whole, fraction]) n.nonempty
    | some cs => exact ⟨'.', _, by rw [unsigned, whole, fraction]; rfl, .inr rfl⟩

theorem readSign_chars : readSign n.chars = (n.negative, n.unsigned) := by
  refine readSign_signChars fun c mem => ?_
  obtain ⟨first, rest, same, kind⟩ := n.head_unsigned
  rw [same, List.head?_cons, Option.mem_def, Option.some.injEq] at mem
  subst mem
  rcases kind with digit | rfl
  · exact isDigit_ne_sign digit
  · decide

/-- The digits before the point are told from what follows them. -/
theorem span_unsigned :
    n.unsigned.takeWhile Char.isDigit = n.whole ∧ n.unsigned.dropWhile Char.isDigit =
      (n.fraction?.map ('.' :: ·)).getD [] ++ (n.scale?.map Scale.chars).getD [] := by
  refine span_digits (fun c mem => n.isDigit c (by simp [mem])) fun c mem => ?_
  cases fraction : n.fraction? with
  | none =>
    rw [fraction] at mem
    exact (head_scale n.scale? mem).1
  | some cs =>
    rw [fraction] at mem
    cases mem
    rfl

theorem readUnsigned?_unsigned (negative : Bool) :
    readUnsigned? negative n.unsigned = some (toFloat negative n.digits n.power) := by
  have fractionDigits : ∀ c ∈ n.fraction?.getD [], c.isDigit = true :=
    fun c mem => n.isDigit c (by simp [mem])
  have first := fun c => head_scale n.scale? (c := c)
  have exponent := readExponent?_scale n.scale?
  have parts := n.span_unsigned
  have nonempty := n.nonempty
  unfold readUnsigned? Numeral.digits power
  simp only [parts]
  generalize (n.scale?.map Scale.chars).getD [] = ending at first exponent
  cases fraction : n.fraction? with
  | none =>
    have whole : n.whole.isEmpty = false := by simpa [fraction] using nonempty
    simp only [Option.map_none, Option.getD_none, List.nil_append]
    split
    · exact absurd rfl (first '.' rfl).2
    · simp [whole, exponent]
  | some cs =>
    rw [fraction] at fractionDigits nonempty
    have stop : NoDigit ending := fun c mem => (first c mem).1
    have parts' := span_digits fractionDigits stop
    have digits : (n.whole.isEmpty && cs.isEmpty) = false := by
      rw [Bool.eq_false_iff]
      intro none
      simp only [Bool.and_eq_true, List.isEmpty_iff] at none
      exact nonempty (by simp [none])
    simp only [Option.getD_some] at parts'
    simp [parts', exponent, digits]

theorem lower_of_isDigit {c : Char} (digit : c.isDigit = true) : lower c = c := by
  refine if_neg fun upper => ?_
  simp only [Char.isDigit, Bool.and_eq_true, decide_eq_true_eq, Char.le_def] at digit upper
  exact absurd (UInt32.le_trans upper.1 digit.2) (by decide)

theorem isEmpty_text : n.text.isEmpty = false := by
  obtain ⟨c, rest, same, -⟩ := n.head_unsigned
  rw [String.isEmpty_eq_false_iff, text, chars, same]
  simp

/-- A numeral is none of the words for an infinity and for no number. -/
theorem unsigned_ne {c : Char} (cs : List Char) (letter : c.isDigit = false ∧ c ≠ '.') :
    (String.ofList (n.unsigned.map lower) == String.ofList (c :: cs)) = false := by
  obtain ⟨first, rest, same, kind⟩ := n.head_unsigned
  rw [beq_eq_false_iff_ne, Ne, String.ofList_inj, same, List.map_cons]
  intro equal
  obtain ⟨head, -⟩ := List.cons.inj equal
  rcases kind with digit | rfl
  · rw [lower_of_isDigit digit] at head
    subst head
    exact Bool.false_ne_true (letter.1.symm.trans digit)
  · exact letter.2 head.symm

theorem readFloat?_text : readFloat? n.text = some (toFloat n.negative n.digits n.power) := by
  have inf := n.unsigned_ne ['n', 'f'] (c := 'i') (by decide)
  have infinity := n.unsigned_ne ['n', 'f', 'i', 'n', 'i', 't', 'y'] (c := 'i') (by decide)
  have nan := n.unsigned_ne ['a', 'n'] (c := 'n') (by decide)
  rw [readFloat?, text, String.toList_ofList, readSign_chars]
  change (if (_ == String.ofList ['i', 'n', 'f'] ||
    _ == String.ofList ['i', 'n', 'f', 'i', 'n', 'i', 't', 'y']) = true then _ else
      if (_ == String.ofList ['n', 'a', 'n']) = true then _ else _) = _
  rw [inf, infinity, nan]
  exact n.readUnsigned?_unsigned _

/-- **`rounds_readFloat?`**: a numeral is read as a double nearest to it. -/
theorem rounds_readFloat? : ∃ x, readFloat? n.text = some x ∧ Rounds n.value x := by
  refine ⟨_, n.readFloat?_text, ?_⟩
  have value : (n.value : ℝ) = signum n.negative * (n.digits * 10 ^ n.power) := by
    cases negative : n.negative <;> simp [value, negative]
  rw [value]
  exact rounds_toFloat _ _ _

theorem all_unsigned : n.unsigned.all Char.isDigit = n.isPlain := by
  have whole : n.whole.all Char.isDigit = true :=
    List.all_eq_true.2 fun c mem => n.isDigit c (by simp [mem])
  rw [unsigned, List.all_append, List.all_append, whole, Bool.true_and, isPlain]
  cases n.fraction? with
  | some cs => rfl
  | none =>
    cases scale : n.scale? with
    | none => rfl
    | some s => cases capital : s.capital <;> simp [Scale.chars, capital]

theorem digits_of_isPlain (plain : n.isPlain = true) : n.digits = ofDigits n.unsigned := by
  simp only [isPlain, Bool.and_eq_true, Option.isNone_iff_eq_none] at plain
  simp [digits, unsigned, plain]

def integer : ℤ := if n.negative then -n.digits else n.digits

theorem natAbs_integer : n.integer.natAbs = n.digits := by
  unfold integer
  split_ifs <;> simp

theorem value_eq : n.value = n.integer * 10 ^ n.power := by
  cases negative : n.negative <;> simp [value, integer, negative]

theorem value_of_isPlain (plain : n.isPlain = true) : n.value = n.integer := by
  simp only [isPlain, Bool.and_eq_true, Option.isNone_iff_eq_none] at plain
  simp [value_eq, power, plain]

/-- **`readInt?_text`**: digits and a sign are read as the integer they denote, if it fits. -/
theorem readInt?_text : readInt? n.text = if n.isPlain then Word.ofInt? n.integer else none := by
  have some : n.unsigned.isEmpty = false := by
    obtain ⟨c, rest, same, -⟩ := n.head_unsigned
    rw [same]
    rfl
  rw [readInt?, text, String.toList_ofList, readSign_chars]
  simp only [some, all_unsigned, Bool.false_or]
  cases plain : n.isPlain with
  | false => simp
  | true => simp [integer, n.digits_of_isPlain plain]

end Numeral

end PrivateQuery.Decimal
