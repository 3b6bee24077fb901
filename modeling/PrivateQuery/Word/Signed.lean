/-!
# Signed 64-bit words

Arithmetic on `Int64` that never wraps: each operation is computed on the integers and is either
absent when the result is out of range (`ofInt?`) or brought back to the nearest end of the range
(`clamp`). `ofInt?_eq_some_iff` and `toInt_clamp` say what comes back.
-/
namespace PrivateQuery.Word

/-- Whether an integer fits a signed 64-bit word. -/
abbrev InRange (i : Int) : Prop := -9223372036854775808 ≤ i ∧ i ≤ 9223372036854775807

/-- The word that holds an integer, when one does. -/
def ofInt? (i : Int) : Option Int64 := if InRange i then some (Int64.ofInt i) else none

/-- The word nearest to an integer. -/
def clamp (i : Int) : Int64 :=
  Int64.ofInt (max (-9223372036854775808) (min 9223372036854775807 i))

/-! ## What a word holds -/

theorem inRange_toInt (a : Int64) : InRange a.toInt := by
  have low := Int64.le_toInt a
  have high := Int64.toInt_lt a
  constructor <;> omega

theorem toInt_ofInt {i : Int} (h : InRange i) : (Int64.ofInt i).toInt = i :=
  Int64.toInt_ofInt_of_le (by omega) (by omega)

theorem ofInt?_eq_some_iff {i : Int} {a : Int64} : ofInt? i = some a ↔ a.toInt = i := by
  unfold ofInt?
  split
  · rename_i h
    constructor
    · intro e
      rw [← Option.some.inj e, toInt_ofInt h]
    · intro e
      rw [← e, Int64.ofInt_toInt]
  · rename_i h
    constructor
    · intro e
      exact absurd e (by simp)
    · intro e
      exact absurd (e ▸ inRange_toInt a) h

theorem ofInt?_eq_none_iff {i : Int} : ofInt? i = none ↔ ¬ InRange i := by
  unfold ofInt?
  split <;> simp [*]

theorem toInt_clamp (i : Int) :
    (clamp i).toInt = max (-9223372036854775808) (min 9223372036854775807 i) :=
  toInt_ofInt ⟨by omega, by omega⟩

/-! ## Arithmetic -/

def add? (a b : Int64) : Option Int64 := ofInt? (a.toInt + b.toInt)

def sub? (a b : Int64) : Option Int64 := ofInt? (a.toInt - b.toInt)

def mul? (a b : Int64) : Option Int64 := ofInt? (a.toInt * b.toInt)

def neg? (a : Int64) : Option Int64 := ofInt? (-a.toInt)

/-- The remainder that is not negative; absent for a zero divisor, and where the quotient would be
out of range. -/
def mod? (a b : Int64) : Option Int64 :=
  if b.toInt = 0 ∨ ¬ InRange (a.toInt / b.toInt) then none else ofInt? (a.toInt % b.toInt)

/-- The sum, held at the ends of the range. -/
def addClamped (a b : Int64) : Int64 := clamp (a.toInt + b.toInt)

/-- The difference, held at the ends of the range. -/
def subClamped (a b : Int64) : Int64 := clamp (a.toInt - b.toInt)

/-! ## Closed checks -/

example : add? 9223372036854775807 1 = none := by decide
example : addClamped 9223372036854775807 1 = 9223372036854775807 := by decide
example : mod? (-7) 3 = some 2 ∧ mod? (-7) (-3) = some 2 ∧ mod? 1 0 = none := by decide
example : mod? (-9223372036854775808) (-1) = none ∧ neg? (-9223372036854775808) = none := by decide

end PrivateQuery.Word
