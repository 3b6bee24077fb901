import PrivateQuery.Proofs.Predicate.Reading
import PrivateQuery.Proofs.Predicate.Unsigned

/-!
# What displayed predicates mean

The display of a predicate is read as a predicate of its own, `Predicate.reread` (`toPredicate_phrase`).
An operator that binds more strongly than a negation is drawn under one that begins its left operand,
and under a test for null that ends its right one; whole doubles lose their point and become integers,
and infinity becomes a column. Where none of this happens the predicate is `Legible`, and only then its
display means the predicate itself (`reread_eq_iff`, `display_reread`).
-/
namespace PrivateQuery

/-- What the display of a literal is read as. Digits without a point are an integer where a word holds
it. -/
def Value.reread : Value → Predicate
  | real x =>
    if x.isFinite then
      .literal (((Decimal.readInt? (Decimal.plain x)).map integer).getD (.real x))
    else .column "inf"
  | v => .literal v

namespace Predicate

/-- Whether a negation stands in front of a display. -/
def isNegation : Predicate → Bool
  | unary .not _ => true
  | _ => false

theorem isNegation_eq_true_iff {e : Predicate} : e.isNegation = true ↔ ∃ x, e = .unary .not x := by
  constructor
  · intro negation
    unfold isNegation at negation
    split at negation
    · exact ⟨_, rfl⟩
    · cases negation
  · rintro ⟨x, rfl⟩
    rfl

/-- The operand of an operator of one operand. -/
def operand : Predicate → Predicate
  | unary _ x => x
  | p => p

/-- Put an operator between what two displays are read as. A test for null that ends the right one
becomes a test of both, unless the operator joins. -/
def takenUp (op : BinaryOperator) (right : Predicate) (x y : Predicate) : Predicate :=
  match op.joins, right.test? with
  | false, some test => .unary test (.binary op x y.operand)
  | _, _ => .binary op x y

/-- Likewise a negation that begins the left one becomes a negation of both. -/
def drawnIn (op : BinaryOperator) (left right : Predicate) (x y : Predicate) : Predicate :=
  match op.joins, left.isNegation with
  | false, true => .unary .not (takenUp op right x.operand y)
  | _, _ => takenUp op right x y

/-- The predicate that the display of a predicate is read as, if parentheses are not nested too deep. -/
def reread : Predicate → Predicate
  | column name => .column name
  | literal v => v.reread
  | unary op x => .unary op x.reread
  | binary op left right => drawnIn op left right left.reread right.reread

/-! ## The predicate of a phrase -/

theorem toPredicate_marked (op : UnaryOperator) (x : Phrase) :
    (Phrase.marked op x).toPredicate = x.toPredicate.map (.unary op) := by
  cases op <;> simp only [Phrase.marked, Phrase.toPredicate, Phrase.isNegated] <;>
    cases x.toPredicate <;> rfl

theorem toPredicate_literal {v : Value} (unsigned : v.Unsigned) :
    v.phrase.toPredicate = .ok v.reread := by
  cases v with
  | integer i =>
    obtain ⟨k, natural⟩ := Int.eq_ofNat_of_zero_le unsigned
    obtain ⟨n, text, -, value⟩ := Decimal.toString_eq_text k
    have read : Decimal.readInt? (ToString.toString i.toInt) = some i := by
      rw [natural]
      refine (congrArg Decimal.readInt? text.symm).trans (value.trans ?_)
      exact Word.ofInt?_eq_some_iff.2 natural
    simp only [Value.phrase, Phrase.toPredicate, Phrase.ofNumber, read]
    rfl
  | real x =>
    rw [Value.phrase, Value.reread]
    by_cases bounded : x.isFinite = true
    · obtain ⟨m, e, reading⟩ := unsigned.read_of_isFinite bounded
      obtain ⟨n, text, -, float, -⟩ := Decimal.plain_eq_text reading
      rw [text] at float
      rw [if_pos bounded, if_pos bounded, Phrase.toPredicate, Phrase.ofNumber, float]
      cases Decimal.readInt? (Decimal.plain x) <;> rfl
    · rw [if_neg bounded, if_neg bounded]
      rfl
  | _ => rfl

theorem toPredicate_operand {op : UnaryOperator} {x : Predicate}
    (whole : (unary op x).phrase.toPredicate = .ok (unary op x).reread) :
    (Phrase.nested x.phrase).toPredicate = .ok x.reread := by
  rw [phrase, toPredicate_marked] at whole
  cases inner : (Phrase.nested x.phrase).toPredicate with
  | error e =>
    rw [inner] at whole
    cases whole
  | ok y =>
    rw [inner] at whole
    cases whole
    rfl

theorem toPredicate_taken {op : BinaryOperator} {right : Predicate} {x : Phrase} {x' : Predicate}
    (hx : x.toPredicate = .ok x') (hr : right.phrase.toPredicate = .ok right.reread) :
    (Phrase.taken op x right.phrase).toPredicate = .ok (takenUp op right x' right.reread) := by
  have both (y : Phrase) {y' : Predicate} (hy : y.toPredicate = .ok y') :
      (Phrase.binary (.known op) x y).toPredicate = .ok (.binary op x' y') := by
    simp only [Phrase.toPredicate, hx, hy]
    rfl
  by_cases closed : right.test? = none ∨ op.joins = true
  · have same : takenUp op right x' right.reread = .binary op x' right.reread := by
      rcases closed with none | joins
      · rw [takenUp, none]
        cases op.joins <;> rfl
      · rw [takenUp, joins]
    rw [taken_of_closed closed, both _ hr, same]
  · obtain ⟨ends, unjoined⟩ := not_or.1 closed
    rw [Bool.not_eq_true] at unjoined
    obtain ⟨test, some⟩ := Option.ne_none_iff_exists'.1 ends
    obtain ⟨follows, y, rfl⟩ := exists_of_test? some
    have inner := toPredicate_operand hr
    have same : Phrase.taken op x (unary test y).phrase =
        Phrase.marked test (.binary (.known op) x (.nested y.phrase)) := by
      simp [phrase, Phrase.marked_of_follows follows, Phrase.taken, unjoined]
    have same' : takenUp op (unary test y) x' (unary test y).reread =
        .unary test (.binary op x' y.reread) := by
      simp only [takenUp, unjoined, some]
      rfl
    rw [same, same', toPredicate_marked, both _ inner]
    rfl

/-- **`toPredicate_phrase`**: what a display is read as. -/
theorem toPredicate_phrase {e : Predicate} (unsigned : e.Unsigned) :
    e.phrase.toPredicate = .ok e.reread := by
  induction e with
  | column name => rfl
  | literal v => exact toPredicate_literal unsigned
  | unary op x ih => rw [phrase, toPredicate_marked, Phrase.toPredicate, ih unsigned]; rfl
  | binary op left right ihl ihr =>
    rw [phrase, Phrase.toPredicate, reread]
    by_cases plain : op.joins = false → ∀ x, left ≠ .unary .not x
    · have same : drawnIn op left right left.reread right.reread =
          takenUp op right left.reread right.reread := by
        cases joins : op.joins with
        | true => rw [drawnIn, joins]
        | false =>
          have other := Bool.eq_false_iff.2 (mt isNegation_eq_true_iff.1 (not_exists.2 (plain joins)))
          rw [drawnIn, joins, other]
      rw [joined_of_plain plain, same]
      exact toPredicate_taken (ihl unsigned.1) (ihr unsigned.2)
    · obtain ⟨unjoined, x, rfl⟩ : op.joins = false ∧ ∃ x, left = .unary .not x := by
        simpa using plain
      have taken : (Phrase.taken op (.nested x.phrase) right.phrase).toPredicate =
          .ok (takenUp op right x.reread right.reread) :=
        toPredicate_taken (toPredicate_operand (ihl unsigned.1)) (ihr unsigned.2)
      rw [joined_of_negation unjoined, toPredicate_marked, taken, drawnIn, unjoined]
      rfl

/-! ## Legible displays -/

end Predicate

/-- Whether a literal is displayed as what it is. A double is not if it is infinite, or a whole number
that fits into a word. -/
def Value.Legible : Value → Prop
  | real x => x.isFinite = true ∧ ¬ (Binary64.isWhole x = true ∧ x < 9223372036854775808.0)
  | _ => True

instance Value.decidableLegible : (v : Value) → Decidable v.Legible
  | real _ => inferInstanceAs (Decidable (_ ∧ ¬ (_ ∧ _)))
  | null | boolean _ | integer _ | text _ => inferInstanceAs (Decidable True)

namespace Predicate

/-- Whether every operator in a display takes what it was applied to: one that does not join has no
negation in front of its left operand and no test for null behind its right one. -/
def Legible : Predicate → Prop
  | column _ => True
  | literal v => v.Legible
  | unary _ x => x.Legible
  | binary op left right => left.Legible ∧ right.Legible ∧
      (op.joins = true ∨ left.isNegation = false ∧ right.test? = none)

instance decidableLegible : (e : Predicate) → Decidable e.Legible
  | column _ => inferInstanceAs (Decidable True)
  | literal v => inferInstanceAs (Decidable v.Legible)
  | unary _ x => decidableLegible x
  | binary _ left right =>
    have := decidableLegible left
    have := decidableLegible right
    inferInstanceAs (Decidable (_ ∧ _ ∧ (_ ∨ _ ∧ _)))

theorem reread_literal_iff {v : Value} (unsigned : v.Unsigned) :
    v.reread = .literal v ↔ v.Legible := by
  cases v with
  | real x =>
    rw [Value.reread, Value.Legible]
    by_cases bounded : x.isFinite = true
    · obtain ⟨m, e, reading⟩ := unsigned.read_of_isFinite bounded
      have limit : x < 9223372036854775808.0 ↔ Binary64.place x < 2 ^ 63 := by
        have there : Binary64.read 9223372036854775808.0 = .finite false (2 ^ 52) 11 := by
          decide +kernel
        have at_ : Binary64.place 9223372036854775808.0 = 2 ^ 63 := by
          rw [Binary64.place, there, Binary64.Reading.place, Binary64.signum_false]
          norm_num
        rw [Binary64.lt_iff, at_]
        simp [Binary64.IsNumber, reading, there]
      have integer := Decimal.readInt?_plain reading
      rw [← limit] at integer
      rw [if_pos bounded, ← integer]
      cases Decimal.readInt? (Decimal.plain x) <;> simp [bounded]
    · rw [if_neg bounded]
      simp [bounded]
  | _ => exact iff_of_true rfl trivial

/-- **`reread_eq_iff`**: a display is read as what it displays exactly if it is legible. -/
theorem reread_eq_iff {e : Predicate} (unsigned : e.Unsigned) : e.reread = e ↔ e.Legible := by
  induction e with
  | column name => exact iff_of_true rfl trivial
  | literal v => exact reread_literal_iff unsigned
  | unary op x ih =>
    rw [reread, unary.injEq, Legible, ih unsigned]
    simp
  | binary op left right ihl ihr =>
    have components : binary op left.reread right.reread = binary op left right ↔
        left.Legible ∧ right.Legible := by
      rw [binary.injEq, ihl unsigned.1, ihr unsigned.2]
      simp
    rw [reread, Legible, ← and_assoc, ← components]
    unfold drawnIn takenUp
    cases op.joins <;> cases left.isNegation <;> cases right.test? <;> simp

/-- **`display_reread`**: what the display of the predicate of a text is read as, if no name and no text
in it contains its own quote. It is that predicate exactly if the display is legible and not nested too
deep, and then it has the same value on every row that has the columns. -/
theorem display_reread {text : String} {e : Predicate} (held : parse text = .ok e)
    (unquoted : e.Unquoted) :
    parse e.toString = (if e.depth < Phrase.maxLevels then .ok e.reread else .error .malformed) ∧
    (parse e.toString = .ok e ↔ e.depth < Phrase.maxLevels ∧ e.Legible) ∧
    (e.depth < Phrase.maxLevels → e.Legible → ∃ e', parse e.toString = .ok e' ∧ ∀ header row,
      (∀ name ∈ e.columns, name ∈ header ∧ header.idxOf name < row.length) →
        ∃ v, e.value header row = .ok v ∧ e'.value header row = .ok v) := by
  have unsigned := unsigned_of_parse held
  have shown := parse_toString unsigned unquoted
  rw [toPredicate_phrase unsigned] at shown
  have same : parse e.toString = .ok e ↔ e.depth < Phrase.maxLevels ∧ e.Legible := by
    rw [shown, ← reread_eq_iff unsigned]
    split
    next within => simp [within]
    next deep => simp [deep]
  refine ⟨shown, same, fun within legible => ⟨e, same.2 ⟨within, legible⟩, ?_⟩⟩
  intro header row resolve
  obtain ⟨v, value⟩ := value_eq_ok_iff.2 resolve
  exact ⟨v, value, value⟩

/-- A negation and a test for null, both the left operands of operators that join. -/
def adultsOrBakers : Predicate :=
  .binary .and (.unary .not (.binary .lt (.column "age") (.literal (.integer 18))))
    (.binary .or (.unary .isNull (.column "job"))
      (.binary .eq (.column "job") (.literal (.text "Baker"))))

/-- Whatever spelling it was read from, it is displayed in full and read back as it is. -/
theorem display_reread_adultsOrBakers :
    parse "not age < 18 and (job is null or job = 'Baker')" = .ok adultsOrBakers ∧
    adultsOrBakers.toString = "(not ((`age` < 18)) and ((`job`) is null or (`job` == 'Baker')))" ∧
    parse adultsOrBakers.toString = .ok adultsOrBakers := by
  have held : parse "not age < 18 and (job is null or job = 'Baker')" = .ok adultsOrBakers := by
    decide +kernel
  have unquoted : adultsOrBakers.Unquoted := by simp [adultsOrBakers, Unquoted]
  exact ⟨held, by decide +kernel, (display_reread held unquoted).2.1.2 ⟨by decide, by decide⟩⟩

/-- The predicate of a text has another value on a row than what its display is read as. -/
def Misread (text : String) (header : List String) (row : List Value) : Prop :=
  ∃ e e' v v', parse text = .ok e ∧ parse e.toString = .ok e' ∧
    e.value header row = .ok v ∧ e'.value header row = .ok v' ∧ v ≠ v'

/-- A negation and a test for null take the operator with them, a sum of doubles comes back as one of
integers and overflows, the infinity comes back as a column, and a text ends at the quote inside. -/
theorem misread_displays :
    Misread "(not a) == b" ["a", "b"] [.boolean true, .integer 1] ∧
    Misread "a == (b is null)" ["a", "b"] [.boolean false, .boolean true] ∧
    Misread "x + 1.0 > 0" ["x"] [.integer 9223372036854775807] ∧
    (∃ e, parse "x < 1e400" = .ok e ∧ e.value ["x"] [.integer 1] = .ok (.boolean true) ∧
      ∃ e', parse e.toString = .ok e' ∧ e'.value ["x"] [.integer 1] = .error (.unknownColumn "inf")) ∧
    ∃ e, parse "job = 'it''s'" = .ok e ∧ parse e.toString = .error .malformed := by
  refine ⟨?_, ?_, ?_, ?_, ?_⟩
  · exact ⟨.binary .eq (.unary .not (.column "a")) (.column "b"),
      .unary .not (.binary .eq (.column "a") (.column "b")), .boolean false, .boolean true,
      by decide +kernel, by decide +kernel, by decide +kernel, by decide +kernel, by decide⟩
  · exact ⟨.binary .eq (.column "a") (.unary .isNull (.column "b")),
      .unary .isNull (.binary .eq (.column "a") (.column "b")), .boolean true, .boolean false,
      by decide +kernel, by decide +kernel, by decide +kernel, by decide +kernel, by decide⟩
  · exact ⟨.binary .gt (.binary .plus (.column "x") (.literal (.real 1.0))) (.literal (.integer 0)),
      .binary .gt (.binary .plus (.column "x") (.literal (.integer 1))) (.literal (.integer 0)),
      .boolean true, .null,
      by decide +kernel, by decide +kernel, by decide +kernel, by decide +kernel, by decide⟩
  · exact ⟨.binary .lt (.column "x") (.literal (.real Binary64.infinity)),
      by decide +kernel, by decide +kernel,
      .binary .lt (.column "x") (.column "inf"), by decide +kernel, by decide +kernel⟩
  · exact ⟨.binary .eq (.column "job") (.literal (.text "it's")), by decide +kernel, by decide +kernel⟩

end Predicate

end PrivateQuery
