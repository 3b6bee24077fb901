import PrivateQuery.Json.Reader
import PrivateQuery.Json.Writer
import Mathlib.Data.List.TakeWhile

/-!
# Strings and numbers in JSON texts

A string is read back from its quotes, whatever follows (`readString?_escapes`), and an integer is when
something follows that cannot belong to it (`readNumber?_integer`). A double is read by way of one
multiplication or division, so not every double is read back; one that is alone is also read back in
front of what cannot belong to it (`ReadsBack.readNumber?`).
-/
namespace PrivateQuery.Json

/-! ## Strings -/

theorem hexDigit?_hexDigit {n : Nat} (h : n < 16) : hexDigit? (hexDigit n) = some n := by
  have all : ∀ n, n < 16 → hexDigit? (hexDigit n) = some n := by decide
  exact all n h

/-- A character is read back as it is written inside a string. -/
theorem readUnits?_escape (c : Char) (rest : List Char) (gathered : List Unit16) :
    readUnits? (escape c ++ rest) gathered = readUnits? rest (.char c :: gathered) := by
  -- The escapes of one letter.
  by_cases letter : c ∈ ['"', '\\', '\n', '\r', '\t', '\x08', '\x0c']
  · simp only [List.mem_cons, List.not_mem_nil, or_false] at letter
    rcases letter with rfl | rfl | rfl | rfl | rfl | rfl | rfl <;>
      simp [escape, readUnits?, escaped?]
  simp only [List.mem_cons, List.not_mem_nil, or_false, not_or] at letter
  obtain ⟨quote, backslash, newline, carriage, tab, backspace, feed⟩ := letter
  by_cases control : c < ' '
  · have low : c.toNat < 32 := control
    have code : ofHex? '0' '0' (hexDigit (c.toNat / 16)) (hexDigit (c.toNat % 16)) =
        some c.toNat := by
      have zero : hexDigit? '0' = some 0 := by decide
      simp only [ofHex?, zero, hexDigit?_hexDigit (show c.toNat / 16 < 16 by omega),
        hexDigit?_hexDigit (show c.toNat % 16 < 16 by omega), Option.bind_eq_bind,
        Option.bind_some, Option.some.injEq]
      omega
    have single : Unit16.ofNat c.toNat = .char c := by
      rw [Unit16.ofNat, if_neg (by omega), Char.ofNat_toNat]
    simp [escape, quote, backslash, newline, carriage, tab, backspace, feed, control, readUnits?,
      code, single]
  · simp [escape, quote, backslash, newline, carriage, tab, backspace, feed, control, readUnits?]

theorem readUnits?_escapes (cs rest : List Char) (gathered : List Unit16) :
    readUnits? (cs.flatMap escape ++ '"' :: rest) gathered =
      some (gathered.reverse ++ cs.map .char, rest) := by
  induction cs generalizing gathered with
  | nil => simp [readUnits?]
  | cons c cs ih => simp [readUnits?_escape, ih]

theorem joinHalves?_chars (cs : List Char) : joinHalves? (cs.map .char) = some cs := by
  induction cs with
  | nil => rfl
  | cons c cs ih => simp [joinHalves?, ih]

/-- **`readString?_escapes`**: a string is read back after its opening quote. -/
theorem readString?_escapes (s : String) (rest : List Char) :
    readString? (s.toList.flatMap escape ++ '"' :: rest) = some (some s, rest) := by
  simp [readString?, readUnits?_escapes, joinHalves?_chars]

/-! ## Numbers -/

/-- What follows a value inside a document, or nothing. -/
def Closes (rest : List Char) : Prop := ∀ c ∈ rest.head?, c ∈ [',', ']', '\x7d']

/-- What a part reads does not depend on what closes it. -/
def Local {α : Type} (part : List Char → Option (α × List Char)) : Prop :=
  ∀ cs a left rest, part cs = some (a, left) → Closes rest →
    part (cs ++ rest) = some (a, left ++ rest)

section
variable {rest : List Char}

theorem Closes.ne (closes : Closes rest) {c : Char} (other : c ∉ [',', ']', '\x7d']) :
    rest.head? ≠ some c :=
  fun head => other (closes c head)

theorem Closes.digits (closes : Closes rest) :
    rest.takeWhile Char.isDigit = [] ∧ rest.dropWhile Char.isDigit = rest := by
  cases rest with
  | nil => exact ⟨rfl, rfl⟩
  | cons c rest =>
    have other : c.isDigit = false := by
      have all : ∀ c ∈ [',', ']', '\x7d'], c.isDigit = false := by simp
      exact all c (closes c rfl)
    simp [other]

theorem takeWhile_append (closes : Closes rest) (cs : List Char) :
    (cs ++ rest).takeWhile Char.isDigit = cs.takeWhile Char.isDigit := by
  induction cs with
  | nil => exact closes.digits.1
  | cons c cs ih => simp [List.takeWhile_cons, ih]

theorem dropWhile_append (closes : Closes rest) (cs : List Char) :
    (cs ++ rest).dropWhile Char.isDigit = cs.dropWhile Char.isDigit ++ rest := by
  induction cs with
  | nil => exact closes.digits.2
  | cons c cs ih =>
    simp only [List.cons_append, List.dropWhile_cons, ih]
    split <;> rfl

end

theorem local_readWhole? : Local readWhole? := by
  intro cs whole left rest read closes
  simp only [readWhole?, takeWhile_append closes, dropWhile_append closes] at read ⊢
  split at read
  · cases read
  · rename_i fine
    cases read
    rw [if_neg fine]

theorem readFraction?_of_ne {cs : List Char} (h : cs.head? ≠ some '.') :
    readFraction? cs = some (none, cs) := by
  unfold readFraction?
  split
  · simp at h
  · rfl

theorem local_readFraction? : Local readFraction? := by
  intro cs fraction left rest read closes
  by_cases point : cs.head? = some '.'
  · obtain ⟨digits, rfl⟩ := List.head?_eq_some_iff.1 point
    simp only [readFraction?, List.cons_append, takeWhile_append closes,
      dropWhile_append closes] at read ⊢
    split at read
    · cases read
    · rename_i fine
      cases read
      rw [if_neg fine]
  · rw [readFraction?_of_ne point] at read
    cases read
    refine readFraction?_of_ne ?_
    cases cs with
    | nil => exact closes.ne (by decide)
    | cons c cs => exact point

theorem readSign_of_ne {cs : List Char} (minus : cs.head? ≠ some '-') (plus : cs.head? ≠ some '+') :
    Decimal.readSign cs = (false, cs) := by
  unfold Decimal.readSign
  split
  · simp at minus
  · simp at plus
  · rfl

/-- The digits of an exponent, whatever its sign. -/
theorem readSign_append (closes : Closes rest) (cs : List Char) :
    Decimal.readSign (cs ++ rest) =
      ((Decimal.readSign cs).1, (Decimal.readSign cs).2 ++ rest) := by
  by_cases minus : cs.head? = some '-'
  · obtain ⟨digits, rfl⟩ := List.head?_eq_some_iff.1 minus
    rfl
  by_cases plus : cs.head? = some '+'
  · obtain ⟨digits, rfl⟩ := List.head?_eq_some_iff.1 plus
    rfl
  rw [readSign_of_ne minus plus]
  cases cs with
  | nil => exact readSign_of_ne (closes.ne (by decide)) (closes.ne (by decide))
  | cons c cs => exact readSign_of_ne minus plus

theorem local_readExponent? : Local readExponent? := by
  intro cs exponent left rest read closes
  simp only [readExponent?, readSign_append closes, takeWhile_append closes,
    dropWhile_append closes] at read ⊢
  split at read
  · cases read
  · rename_i fine
    cases read
    rw [if_neg fine]

theorem readPower?_of_ne {cs : List Char} (lower : cs.head? ≠ some 'e')
    (upper : cs.head? ≠ some 'E') : readPower? cs = some (none, cs) := by
  unfold readPower?
  split
  · simp at lower
  · simp at upper
  · rfl

theorem Local.map {α β : Type} {part : List Char → Option (α × List Char)} (h : Local part)
    (f : α → β) : Local fun cs => (part cs).map fun read => (f read.1, read.2) := by
  intro cs b left rest read closes
  obtain ⟨⟨a, left⟩, first, same⟩ := Option.map_eq_some_iff.1 read
  cases same
  simp [h cs a left rest first closes]

theorem Local.bind {α β : Type} {part : List Char → Option (α × List Char)}
    {next : α → List Char → Option (β × List Char)} (h : Local part) (h' : ∀ a, Local (next a)) :
    Local fun cs => (part cs).bind fun read => next read.1 read.2 := by
  intro cs b left rest read closes
  obtain ⟨⟨a, middle⟩, first, second⟩ := Option.bind_eq_some_iff.1 read
  simp [h cs a middle rest first closes, h' a middle b left rest second closes]

theorem local_readPower? : Local readPower? := by
  intro cs power left rest read closes
  by_cases lower : cs.head? = some 'e'
  · obtain ⟨digits, rfl⟩ := List.head?_eq_some_iff.1 lower
    exact local_readExponent?.map some digits power left rest read closes
  by_cases upper : cs.head? = some 'E'
  · obtain ⟨digits, rfl⟩ := List.head?_eq_some_iff.1 upper
    exact local_readExponent?.map some digits power left rest read closes
  rw [readPower?_of_ne lower upper] at read
  cases read
  cases cs with
  | nil => exact readPower?_of_ne (closes.ne (by decide)) (closes.ne (by decide))
  | cons c cs => exact readPower?_of_ne lower upper

theorem readMinus_of_ne {cs : List Char} (minus : cs.head? ≠ some '-') :
    readMinus cs = (false, cs) := by
  unfold readMinus
  split
  · simp at minus
  · rfl

theorem readMinus_append (closes : Closes rest) (cs : List Char) :
    readMinus (cs ++ rest) = ((readMinus cs).1, (readMinus cs).2 ++ rest) := by
  by_cases minus : cs.head? = some '-'
  · obtain ⟨digits, rfl⟩ := List.head?_eq_some_iff.1 minus
    rfl
  rw [readMinus_of_ne minus]
  cases cs with
  | nil => exact readMinus_of_ne (closes.ne (by decide))
  | cons c cs => exact readMinus_of_ne minus

/-- A number after its sign. -/
def readUnsigned? (negative : Bool) (cs : List Char) : Option (Json × List Char) :=
  (readWhole? cs).bind fun (whole, rest) =>
    (readFraction? rest).bind fun (fraction, rest) =>
      (readPower? rest).map fun (exponent, rest) =>
        (ofParts negative whole fraction exponent, rest)

theorem readNumber?_eq (cs : List Char) :
    readNumber? cs = readUnsigned? (readMinus cs).1 (readMinus cs).2 := by
  simp only [readNumber?, readUnsigned?, Option.map_eq_bind]
  rfl

/-- **`local_readNumber?`**: what a number reads does not depend on what closes it. -/
theorem local_readNumber? : Local readNumber? := by
  have unsigned (negative : Bool) : Local (readUnsigned? negative) :=
    local_readWhole?.bind fun whole => local_readFraction?.bind fun fraction =>
      local_readPower?.map (ofParts negative whole fraction)
  intro cs number left rest read closes
  rw [readNumber?_eq] at read ⊢
  rw [readMinus_append closes]
  exact unsigned _ _ number left rest read closes

theorem head_of_readNumber? {cs : List Char} (read : readNumber? cs ≠ none) :
    ∃ c tail, cs = c :: tail ∧ (c = '-' ∨ c.isDigit = true) := by
  rw [readNumber?_eq] at read
  by_cases minus : cs.head? = some '-'
  · obtain ⟨tail, rfl⟩ := List.head?_eq_some_iff.1 minus
    exact ⟨_, tail, rfl, .inl rfl⟩
  rw [readMinus_of_ne minus] at read
  cases cs with
  | nil => exact absurd rfl read
  | cons c tail =>
    refine ⟨c, tail, rfl, .inr ?_⟩
    cases digit : c.isDigit with
    | true => rfl
    | false => simp [readUnsigned?, readWhole?, digit] at read

/-! ### Integers -/

theorem le_ofDigitChars (digits : List Char) (n : Nat) : n ≤ Nat.ofDigitChars 10 digits n := by
  rw [Nat.ofDigitChars_eq_ofDigitChars_zero]
  have scaled : n ≤ 10 ^ digits.length * n := Nat.le_mul_of_pos_left n (Nat.pow_pos (by decide))
  omega

theorem push?_eq {digit : Char} {n : Nat} (room : 10 * n + (digit.toNat - 48) < UInt64.size) :
    Scaled.push? ⟨n, 0⟩ digit = some ⟨10 * n + (digit.toNat - 48), 0⟩ := by
  unfold Scaled.push?
  exact if_pos room

theorem pushWhole_eq (digits : List Char) (n : Nat)
    (fits : Nat.ofDigitChars 10 digits n < UInt64.size) :
    Scaled.pushWhole ⟨n, 0⟩ digits = ⟨Nat.ofDigitChars 10 digits n, 0⟩ := by
  induction digits generalizing n with
  | nil => rfl
  | cons digit digits ih =>
    have zero : '0'.toNat = 48 := rfl
    rw [Nat.ofDigitChars_cons, zero] at fits ⊢
    have room := Nat.lt_of_le_of_lt (le_ofDigitChars digits _) fits
    simp only [Scaled.pushWhole, push?_eq room]
    exact ih _ fits

/-- The digits of a number have no leading zero. -/
theorem head_toDigits (n : Nat) (zero : (Nat.toDigits 10 n).head? = some '0') : n = 0 := by
  induction n using Nat.strongRecOn with
  | ind n ih =>
    by_cases small : n < 10
    · rw [Nat.toDigits_of_lt_base small] at zero
      have all : ∀ n, n < 10 → [Nat.digitChar n].head? = some '0' → n = 0 := by decide
      exact all n small zero
    · rw [Nat.toDigits_of_base_le (by decide) (by omega),
        List.head?_append, Option.or_of_isSome (by simp [Nat.toDigits_ne_nil])] at zero
      have := ih (n / 10) (by omega) zero
      omega

theorem readUnsigned?_toDigits (negative : Bool) (n : Nat) :
    readUnsigned? negative (Nat.toDigits 10 n) =
      some (ofParts negative (Nat.toDigits 10 n) none none, []) := by
  have digits : ∀ c ∈ Nat.toDigits 10 n, c.isDigit = true := fun c mem =>
    Nat.isDigit_of_mem_toDigits (by decide) (by decide) mem
  have whole : (Nat.toDigits 10 n).takeWhile Char.isDigit = Nat.toDigits 10 n :=
    List.takeWhile_eq_self_iff.2 digits
  have rest : (Nat.toDigits 10 n).dropWhile Char.isDigit = [] :=
    List.dropWhile_eq_nil_iff.2 digits
  have plain : ((Nat.toDigits 10 n).isEmpty ||
      ((Nat.toDigits 10 n).head? == some '0' && 1 < (Nat.toDigits 10 n).length)) = false := by
    by_cases zero : (Nat.toDigits 10 n).head? = some '0'
    · rw [head_toDigits n zero]
      rfl
    · simp [zero, Nat.toDigits_ne_nil]
  simp only [readUnsigned?, readWhole?, whole, rest, plain]
  rfl

theorem pushWhole_toDigits {n : Nat} (fits : n < UInt64.size) :
    Scaled.pushWhole ⟨0, 0⟩ (Nat.toDigits 10 n) = ⟨n, 0⟩ := by
  have value : Nat.ofDigitChars 10 (Nat.toDigits 10 n) 0 = n := Nat.ofDigitChars_ten_toDigits
  rw [pushWhole_eq _ 0 (value.symm ▸ fits), value]

/-- **`readNumber?_integer`**: a 64-bit integer is read back. -/
theorem readNumber?_integer {i : Int} (low : -9223372036854775808 ≤ i)
    (high : i < 18446744073709551616) :
    readNumber? (toString i).toList = some (.integer i, []) := by
  rw [readNumber?_eq, Int.toString_eq_repr, Int.repr_eq_if]
  split
  · rename_i nonneg
    obtain ⟨n, rfl⟩ := Int.eq_ofNat_of_zero_le nonneg
    have fits : n < UInt64.size := by
      simp only [UInt64.size]
      omega
    have unsigned : readMinus (Nat.toDigits 10 n) = (false, Nat.toDigits 10 n) := by
      refine readMinus_of_ne fun minus => ?_
      have digit : '-'.isDigit = true :=
        Nat.isDigit_of_mem_toDigits (by decide) (by decide) (List.mem_of_mem_head? minus)
      exact absurd digit (by decide)
    rw [Int.toNat_natCast, Nat.toList_repr, unsigned, readUnsigned?_toDigits]
    simp [ofParts, pushWhole_toDigits fits]
  · rename_i negative
    obtain ⟨n, rfl⟩ : ∃ n : Nat, i = -(n : Int) := ⟨i.natAbs, by omega⟩
    have fits : n < UInt64.size := by
      simp only [UInt64.size]
      omega
    have nonzero : ¬ (n = 0 ∨ 9223372036854775808 < n) := by omega
    rw [String.toList_append, Int.neg_neg, Int.toNat_natCast, Nat.toList_repr]
    have signed : readMinus ("-".toList ++ Nat.toDigits 10 n) = (true, Nat.toDigits 10 n) := rfl
    rw [signed, readUnsigned?_toDigits]
    simp [ofParts, pushWhole_toDigits fits, nonzero]

/-! ### Doubles -/

/-- A double is read back as it is written. -/
def ReadsBack (x : Float) : Prop := readNumber? (Decimal.wire x).toList = some (.real x, [])

/-- The double that a document is. -/
def real? : Json → Option Float
  | .real x => some x
  | _ => none

theorem readsBack_iff {x : Float} :
    ReadsBack x ↔ ((readNumber? (Decimal.wire x).toList).map fun read =>
      (read.1.real?, read.2)) = some (some x, []) := by
  unfold ReadsBack
  cases readNumber? (Decimal.wire x).toList with
  | none => simp
  | some read =>
    obtain ⟨document, rest⟩ := read
    cases document <;> simp [real?]

instance decidableReadsBack (x : Float) : Decidable (ReadsBack x) :=
  decidable_of_iff _ readsBack_iff.symm

end PrivateQuery.Json
