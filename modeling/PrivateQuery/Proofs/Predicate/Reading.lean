import PrivateQuery.Proofs.Predicate.Operands

/-!
# Reading displayed predicates

A display puts the operands of a sign, a negation and a test for null in parentheses, but not these
operators themselves. So an operator that binds more strongly takes less than it was applied to
(`Phrase.joined`): a negation in front of its left operand becomes a negation of the whole, and a test
for null behind its right operand a test of the whole. With that, every display is read as a phrase of
its own form (`Predicate.shown`), unless too many parentheses are around one another
(`Predicate.parse_toString`).
-/
namespace PrivateQuery

/-! ## Operators -/

def BinaryOperator.power : BinaryOperator → ℕ
  | or => 5
  | and => 10
  | gt | lt | gtEq | ltEq | eq | notEq => 20
  | plus | minus => 30
  | multiply | divide | modulo => 40

theorem UnaryOperator.follows_iff {op : UnaryOperator} :
    op.follows = true ↔ op = .isNull ∨ op = .isNotNull := by
  cases op <;> decide

namespace Phrase

open Token (Follow)

variable {p : Parts} {ts rest : List Token} {r : Option Phrase}

theorem power_binary (op : BinaryOperator) (ts : List Token) : power (op.token :: ts) = op.power := by
  cases op <;> rfl

theorem readMark?_binary (op : BinaryOperator) (ts : List Token) :
    readMark? (op.token :: ts) = some (.known op, ts) := by
  cases op <;> rfl

/-- How strongly a test for null binds. -/
def testPower : ℕ := 17

/-- Whether a test for null asks for the opposite. -/
def isNegated : UnaryOperator → Bool
  | .isNotNull => true
  | _ => false

theorem readOperator?_test {test : UnaryOperator} (follows : test.follows = true) (own : ℕ)
    (x : Phrase) :
    readOperator? p own x (test.tokens ++ rest) = some (.isNull (isNegated test) x, rest) := by
  rcases UnaryOperator.follows_iff.1 follows with rfl | rfl <;> rfl

theorem readOperator?_binary (op : BinaryOperator) (opens : Opens ts) (own : ℕ) (x : Phrase) :
    readOperator? p own x (op.token :: ts) =
      (p.operand? own ts).map fun (y, rest) => (.binary (.known op) x y, rest) := by
  obtain ⟨t, more, rfl, start⟩ := opens
  have plain : Reader.startsWith ["ANY", "ALL"] (t :: more) = false := start.startsWith more (by simp)
  unfold readOperator?
  rw [readMark?_binary]
  dsimp only
  rw [plain]
  rfl

theorem follow_test {test : UnaryOperator} (follows : test.follows = true) (free : .symbol "[" ∉ rest) :
    Follow (test.tokens ++ rest) ∧ power (test.tokens ++ rest) = testPower := by
  rcases UnaryOperator.follows_iff.1 follows with rfl | rfl
  · exact ⟨.is (by simp [free]), rfl⟩
  · exact ⟨.is (by simp [free]), rfl⟩

/-- Operators that bind less than is due are left. -/
theorem readOperatorsWithin?_of_le {least : ℕ} (low : power ts ≤ least) (n : ℕ) (x : Phrase) :
    readOperatorsWithin? p power least n x ts = some (x, ts) := by
  cases n with
  | zero => rfl
  | succ n => rw [readOperatorsWithin?, if_pos low]

/-- Operators that bind more are taken one by one. -/
theorem readOperatorsWithin?_of_lt {least : ℕ} (high : least < power ts) (n : ℕ) (x : Phrase) :
    readOperatorsWithin? p power least (n + 1) x ts =
      (readOperator? p (power ts) x ts).bind fun (y, rest) =>
        readOperatorsWithin? p power least n y rest := by
  rw [readOperatorsWithin?, if_neg (not_le.2 high)]
  cases readOperator? p (power ts) x ts <;> rfl

end Phrase

/-! ## Displays as phrases -/

/-- Whether an operator joins predicates. The others bind more strongly than a negation. -/
def BinaryOperator.joins : BinaryOperator → Bool
  | and | or => true
  | _ => false

theorem BinaryOperator.joins_iff {op : BinaryOperator} :
    op.joins = true ↔ op.power < Phrase.testPower := by
  cases op <;> decide

namespace Phrase

/-- An operator of one operand in front of a phrase or behind it. -/
def marked : UnaryOperator → Phrase → Phrase
  | .opposite, x => .unary .minus x
  | .not, x => .unary .not x
  | test, x => .isNull (isNegated test) x

/-- What an operator makes of two phrases: a test for null behind the second one is a test of both,
except for the operators that join. -/
def taken (op : BinaryOperator) (x y : Phrase) : Phrase :=
  match op.joins, y with
  | false, .isNull negated y => .isNull negated (.binary (.known op) x y)
  | _, y => .binary (.known op) x y

/-- And a negation in front of the first one is a negation of both. -/
def joined (op : BinaryOperator) (x y : Phrase) : Phrase :=
  match op.joins, x with
  | false, .unary .not x => .unary .not (taken op x y)
  | _, x => taken op x y

end Phrase

namespace Predicate

/-- The phrase that a display is read as. -/
def phrase : Predicate → Phrase
  | column name => .name name
  | literal v => v.phrase
  | unary op operand => Phrase.marked op (.nested operand.phrase)
  | binary op left right => .nested (Phrase.joined op left.phrase right.phrase)

/-- How many parentheses of a display are around one another. -/
def depth : Predicate → ℕ
  | column _ => 0
  | literal _ => 0
  | unary _ operand => operand.depth + 1
  | binary _ left right => max left.depth right.depth + 1

/-- The test for null that ends a display, if one does. -/
def test? : Predicate → Option UnaryOperator
  | unary op _ => if op.follows then some op else none
  | _ => none

end Predicate

namespace Phrase

open Token (Follow)

/-- Tokens that are read as a phrase where no operator follows, if so many parentheses may be nested. -/
def Shows (ts : List Token) (depth : ℕ) (x : Phrase) : Prop :=
  ∀ steps levels rest, ts.length ≤ steps → Follow rest → power rest = 0 →
    readOperand? (parts steps levels) power 0 (ts ++ rest) =
      (if depth ≤ levels then some x else none).map (·, rest)

variable {ts rest : List Token} {steps levels depth : ℕ} {x : Phrase}

theorem Shows.grouped (shows : Shows ts depth x) (levels : ℕ) (opens : Opens ts)
    (free : .symbol "[" ∉ ts) (enough : ts.length < steps) (follow : Follow rest) :
    readPrimary? (parts steps levels) (Predicate.grouped ts ++ rest) =
      (if depth < levels then some (.nested x) else none).map (·, rest) := by
  obtain ⟨k, rfl⟩ : ∃ k, steps = k + 1 := ⟨steps - 1, by omega⟩
  have inner : (parts (k + 1) levels).phrase? (ts ++ .symbol ")" :: rest) =
      (if depth < levels then some x else none).map (·, .symbol ")" :: rest) := by
    cases levels with
    | zero => rfl
    | succ levels =>
      have whole := shows k levels (.symbol ")" :: rest) (by omega) (.closing follow.free) rfl
      simp only [Nat.lt_succ_iff]
      exact whole
  rw [readPrimary?_grouped opens free follow inner]
  split <;> rfl

theorem readOperand?_of_primary {p : Parts} {r : Option Phrase} (least : ℕ)
    (primary : readPrimary? p ts = r.map (·, rest)) : readOperand? p power least ts =
      r.bind fun x => readOperatorsWithin? p power least rest.length x rest := by
  rw [readOperand?, primary]
  cases r <;> rfl

theorem readOperand?_of_le {p : Parts} {r : Option Phrase} {least : ℕ}
    (primary : readPrimary? p ts = r.map (·, rest)) (low : power rest ≤ least) :
    readOperand? p power least ts = r.map (·, rest) := by
  rw [readOperand?_of_primary least primary]
  cases r with
  | none => rfl
  | some x => exact readOperatorsWithin?_of_le low _ _

theorem power_le (follow : Follow rest) : power rest ≤ signPower := by
  rcases follow.forms with rfl | ⟨more, rfl⟩ | ⟨more, rfl⟩ | ⟨op, more, rfl⟩
  · exact Nat.zero_le _
  · exact Nat.zero_le _
  · exact (by decide : testPower ≤ signPower)
  · rw [power_binary]
    cases op <;> decide

theorem Shows.prefixed (shows : Shows ts depth x) (opens : Opens ts) (free : .symbol "[" ∉ ts)
    {op : UnaryOperator} (before : op.follows = false) (enough : ts.length + 1 < steps)
    (follow : Follow rest) (low : op = .not → power rest ≤ notPower) :
    readPrimary? (parts steps levels) (op.tokens ++ Predicate.grouped ts ++ rest) =
      (if depth < levels then some (marked op (.nested x)) else none).map (·, rest) := by
  obtain ⟨k, rfl⟩ : ∃ k, steps = k + 1 := ⟨steps - 1, by omega⟩
  have grouped := shows.grouped levels opens free (by omega : ts.length < k) follow
  have free' : Token.symbol "[" ∉ Predicate.grouped ts ++ rest := by
    simp [Predicate.grouped, free, follow.free]
  cases op with
  | isNull => cases before
  | isNotNull => cases before
  | opposite =>
    have primary := readPrimary?_opposite (p := parts (k + 1) levels) free' follow
      (readOperand?_of_le grouped (power_le follow))
    refine primary.trans ?_
    split <;> rfl
  | not =>
    have primary := readPrimary?_not (p := parts (k + 1) levels) free' rfl follow
      (readOperand?_of_le grouped (low rfl))
    refine primary.trans ?_
    split <;> rfl

theorem marked_of_follows {test : UnaryOperator} (follows : test.follows = true) (x : Phrase) :
    marked test x = .isNull (isNegated test) x := by
  rcases UnaryOperator.follows_iff.1 follows with rfl | rfl <;> rfl

/-- A test for null is taken where less is due. -/
theorem readOperatorsWithin?_test {p : Parts} {test : UnaryOperator} (follows : test.follows = true)
    (free : .symbol "[" ∉ rest) {least : ℕ} (low : least < testPower) (n : ℕ) :
    readOperatorsWithin? p power least (n + 1) x (test.tokens ++ rest) =
      readOperatorsWithin? p power least n (marked test x) rest := by
  obtain ⟨-, same⟩ := follow_test follows free
  rw [readOperatorsWithin?_of_lt (same ▸ low), readOperator?_test follows, marked_of_follows follows]
  rfl

theorem length_test {test : UnaryOperator} (follows : test.follows = true) (rest : List Token) :
    ∃ n, (test.tokens ++ rest).length = n + 1 ∧ rest.length ≤ n := by
  rcases UnaryOperator.follows_iff.1 follows with rfl | rfl
  · exact ⟨rest.length + 1, rfl, by omega⟩
  · exact ⟨rest.length + 2, rfl, by omega⟩

theorem Shows.tested (shows : Shows ts depth x) (opens : Opens ts) (free : .symbol "[" ∉ ts)
    {test : UnaryOperator} (follows : test.follows = true) {least : ℕ} (enough : ts.length < steps)
    (free' : .symbol "[" ∉ rest) (low : least < testPower) (stop : power rest ≤ least) :
    readOperand? (parts steps levels) power least (Predicate.grouped ts ++ (test.tokens ++ rest)) =
      (if depth < levels then some (marked test (.nested x)) else none).map (·, rest) := by
  obtain ⟨n, length, -⟩ := length_test follows rest
  have grouped := shows.grouped levels opens free enough (follow_test follows free').1
  rw [readOperand?_of_primary least grouped, length]
  split
  · exact (readOperatorsWithin?_test follows free' low n).trans (readOperatorsWithin?_of_le stop _ _)
  · rfl

end Phrase

namespace Predicate

theorem opens (e : Predicate) : Phrase.Opens e.tokens := e.opens_tokens

open Token (Follow)

open Phrase (Shows)

/-- How a display is read as an operand. -/
structure Shown (e : Predicate) : Prop where
  /-- As a whole. -/
  whole : Shows e.tokens e.depth e.phrase
  /-- In front of an operator, unless a test for null ends it. -/
  primary : e.test? = none → ∀ steps levels rest, e.tokens.length ≤ steps → Follow rest →
    (∀ x, e = .unary .not x → Phrase.power rest ≤ Phrase.notPower) →
      Phrase.readPrimary? (Phrase.parts steps levels) (e.tokens ++ rest) =
        (if e.depth ≤ levels then some e.phrase else none).map (·, rest)
  /-- Without its own operator. -/
  operand : ∀ op x, e = .unary op x → Shows x.tokens x.depth x.phrase

theorem exists_of_test? {e : Predicate} {test : UnaryOperator} (ends : e.test? = some test) :
    test.follows = true ∧ ∃ x, e = .unary test x := by
  cases e with
  | unary op x =>
    by_cases follows : op.follows = true
    · rw [test?, if_pos follows, Option.some.injEq] at ends
      subst ends
      exact ⟨follows, x, rfl⟩
    · rw [test?, if_neg follows] at ends
      cases ends
  | _ => cases ends

theorem tokens_of_follows {test : UnaryOperator} (follows : test.follows = true) (x : Predicate) :
    (unary test x).tokens = grouped x.tokens ++ test.tokens := by
  rw [tokens, if_pos follows]

/-- The right operand of an operator that binds less than a test for null, or of any if there is none. -/
theorem Shown.right {e : Predicate} (shown : e.Shown) {steps levels least : ℕ} {rest : List Token}
    (enough : e.tokens.length ≤ steps) (follow : Follow rest) (stop : Phrase.power rest = 0)
    (low : e.test? = none ∨ least < Phrase.testPower) :
    Phrase.readOperand? (Phrase.parts steps levels) Phrase.power least (e.tokens ++ rest) =
      (if e.depth ≤ levels then some e.phrase else none).map (·, rest) := by
  cases test : e.test? with
  | none =>
    refine Phrase.readOperand?_of_le (shown.primary test _ _ _ enough follow fun _ _ => ?_) ?_ <;> omega
  | some op =>
    obtain ⟨follows, x, rfl⟩ := exists_of_test? test
    rw [tokens_of_follows follows] at enough ⊢
    rw [List.append_assoc]
    refine (shown.operand op x rfl).tested x.opens x.free_tokens follows ?_ follow.free ?_ (by omega)
    · simp [grouped] at enough
      omega
    · exact low.resolve_left (by simp [test])

theorem taken_of_closed {op : BinaryOperator} {right : Predicate}
    (closed : right.test? = none ∨ op.joins = true) (x : Phrase) :
    Phrase.taken op x right.phrase = .binary (.known op) x right.phrase := by
  cases joins : op.joins with
  | true => simp only [Phrase.taken, joins]
  | false =>
    have none := closed.resolve_right (by simp [joins])
    simp only [Phrase.taken, joins]
    cases right with
    | column name => rfl
    | literal v =>
      cases v with
      | real y => by_cases finite : y.isFinite = true <;> simp [phrase, Value.phrase, finite]
      | _ => rfl
    | unary test y => cases test <;> first | rfl | cases none
    | binary op left right => rfl

/-- An operator and its right operand, behind what is its left operand. -/
theorem Shown.operator {right : Predicate} (shown : right.Shown) (op : BinaryOperator)
    {steps levels least n : ℕ} {x : Phrase} {rest : List Token} (enough : right.tokens.length < steps)
    (follow : Follow rest) (stop : Phrase.power rest = 0) (low : least < Phrase.testPower)
    (less : least < op.power) (room : right.tokens.length < n) :
    Phrase.readOperatorsWithin? (Phrase.parts steps levels) Phrase.power least n x
      (op.token :: (right.tokens ++ rest)) =
        (if right.depth ≤ levels then some (Phrase.taken op x right.phrase) else none).map
          (·, rest) := by
  obtain ⟨k, rfl⟩ : ∃ k, steps = k + 1 := ⟨steps - 1, by omega⟩
  obtain ⟨m, rfl⟩ : ∃ m, n = m + 1 := ⟨n - 1, by omega⟩
  have opens : Phrase.Opens (right.tokens ++ rest) := by
    obtain ⟨t, more, same, start⟩ := right.opens
    exact ⟨t, more ++ rest, by rw [same]; rfl, start⟩
  rw [Phrase.readOperatorsWithin?_of_lt (Phrase.power_binary op _ ▸ less), Phrase.power_binary,
    Phrase.readOperator?_binary op opens]
  change ((Phrase.readOperand? (Phrase.parts k levels) Phrase.power op.power _).map _).bind _ = _
  by_cases closed : right.test? = none ∨ op.power < Phrase.testPower
  · have taken := taken_of_closed (closed.imp_right BinaryOperator.joins_iff.2) x
    rw [shown.right (by omega) follow stop closed, taken]
    split
    · exact Phrase.readOperatorsWithin?_of_le (by omega) _ _
    · rfl
  · -- The operand ends before its test for null, which is left for the operator around it.
    obtain ⟨ends, binds⟩ := not_or.1 closed
    obtain ⟨test, some⟩ := Option.ne_none_iff_exists'.1 ends
    obtain ⟨follows, y, rfl⟩ := exists_of_test? some
    rw [tokens_of_follows follows] at enough room ⊢
    have shorter : y.tokens.length < k := by simp [grouped] at enough; omega
    obtain ⟨l, rfl⟩ : ∃ l, m = l + 1 := ⟨m - 1, by simp [grouped] at room; omega⟩
    have power := (Phrase.follow_test follows follow.free).2
    have grouped := (shown.operand test y rfl).grouped levels y.opens y.free_tokens shorter
      (Phrase.follow_test follows follow.free).1
    rw [List.append_assoc, Phrase.readOperand?_of_le grouped (by omega)]
    have depth : (unary test y).depth ≤ levels ↔ y.depth < levels := Iff.rfl
    have unjoined : op.joins = false := Bool.eq_false_iff.2 (mt BinaryOperator.joins_iff.1 binds)
    simp only [depth]
    split
    · exact (Phrase.readOperatorsWithin?_test follows follow.free low l).trans
        ((Phrase.readOperatorsWithin?_of_le (by omega) _ _).trans
          (by simp [phrase, Phrase.marked_of_follows follows, Phrase.taken, unjoined]))
    · rfl

/-- What is read in two parts needs the levels of both. -/
theorem bind_within {a b levels : ℕ} {x y : Phrase} {rest : List Token}
    {f : Phrase → Option (Phrase × List Token)}
    (same : f x = (if b ≤ levels then some y else none).map (·, rest)) :
    (if a ≤ levels then some x else none).bind f =
      (if max a b ≤ levels then some y else none).map (·, rest) := by
  by_cases first : a ≤ levels
  · rw [if_pos first, Option.bind_some, same]
    simp [first]
  · rw [if_neg first, if_neg (by omega)]
    rfl

theorem joined_of_plain {op : BinaryOperator} {left : Predicate}
    (plain : op.joins = false → ∀ x, left ≠ .unary .not x) (y : Phrase) :
    Phrase.joined op left.phrase y = Phrase.taken op left.phrase y := by
  cases joins : op.joins with
  | true => simp only [Phrase.joined, joins]
  | false =>
    have other := plain joins
    simp only [Phrase.joined, joins]
    cases left with
    | column name => rfl
    | literal v =>
      cases v with
      | real z => by_cases finite : z.isFinite = true <;> simp [phrase, Value.phrase, finite]
      | _ => rfl
    | unary test z => cases test <;> first | rfl | exact absurd rfl (other z)
    | binary op left right => rfl

theorem joined_of_negation {op : BinaryOperator} (unjoined : op.joins = false) (x : Predicate)
    (y : Phrase) : Phrase.joined op (unary .not x).phrase y =
      Phrase.marked .not (Phrase.taken op (.nested x.phrase) y) := by
  simp only [Phrase.joined, unjoined]
  rfl

/-- What follows the left operand of an operator. -/
theorem follow_operator (op : BinaryOperator) (right : Predicate) {rest : List Token}
    (follow : Follow rest) : Follow (op.token :: (right.tokens ++ rest)) :=
  .binary op (by simp [right.free_tokens, follow.free])

theorem Shown.joined_primary {left right : Predicate} (hl : left.Shown) (hr : right.Shown)
    {op : BinaryOperator} (plain : op.joins = false → ∀ x, left ≠ .unary .not x)
    (ends : left.test? = none) : Shows (left.tokens ++ op.token :: right.tokens)
      (max left.depth right.depth) (Phrase.taken op left.phrase right.phrase) := by
  intro steps levels rest enough follow stop
  simp only [List.length_append, List.length_cons] at enough
  rw [List.append_assoc, List.cons_append]
  have weak (x : Predicate) (same : left = .unary .not x) :
      Phrase.power (op.token :: (right.tokens ++ rest)) ≤ Phrase.notPower := by
    have joins : op.joins = true := by
      cases joins : op.joins with
      | true => rfl
      | false => exact absurd same (plain joins x)
    rw [Phrase.power_binary]
    cases op <;> first | decide | cases joins
  have primary := hl.primary ends steps levels _ (by omega) (follow_operator op right follow) weak
  rw [Phrase.readOperand?_of_primary 0 primary]
  refine bind_within (hr.operator op (by omega) follow stop (by decide) ?_ (by simp))
  cases op <;> decide

theorem Shown.joined_test {test : UnaryOperator} {x right : Predicate} (hl : (unary test x).Shown)
    (hr : right.Shown) (follows : test.follows = true) (op : BinaryOperator) :
    Shows ((unary test x).tokens ++ op.token :: right.tokens)
      (max (unary test x).depth right.depth)
      (Phrase.taken op (unary test x).phrase right.phrase) := by
  intro steps levels rest enough follow stop
  have free := (follow_operator op right follow).free
  rw [tokens_of_follows follows] at enough ⊢
  simp only [List.length_append, List.length_cons] at enough
  have shorter : x.tokens.length < steps := by
    simp [Predicate.grouped] at enough
    omega
  obtain ⟨n, length, room⟩ := Phrase.length_test follows (op.token :: (right.tokens ++ rest))
  have primary := (hl.operand test x rfl).grouped levels x.opens x.free_tokens shorter
    (Phrase.follow_test follows free).1
  rw [List.append_assoc, List.cons_append, List.append_assoc, Phrase.readOperand?_of_primary 0 primary]
  refine bind_within (a := x.depth + 1) ?_
  rw [length, Phrase.readOperatorsWithin?_test follows free (by decide)]
  simp only [List.length_cons, List.length_append] at room
  refine hr.operator op (by omega) follow stop (by decide) ?_ (by omega)
  cases op <;> decide

/-- An operator behind a negation, which takes the operator and its right operand. -/
theorem Shown.joined_negation {x right : Predicate} (hl : (unary .not x).Shown) (hr : right.Shown)
    {op : BinaryOperator} (unjoined : op.joins = false) :
    Shows ((unary .not x).tokens ++ op.token :: right.tokens)
      (max (unary .not x).depth right.depth)
      (Phrase.marked .not (Phrase.taken op (.nested x.phrase) right.phrase)) := by
  intro steps levels rest enough follow stop
  have after := follow_operator op right follow
  have own : (unary .not x).tokens = .word "not" none :: grouped x.tokens := rfl
  rw [own] at enough ⊢
  have shorter : x.tokens.length + right.tokens.length + 3 ≤ steps := by
    simp [Predicate.grouped] at enough
    omega
  obtain ⟨k, rfl⟩ : ∃ k, steps = k + 1 := ⟨steps - 1, by omega⟩
  have grouped := (hl.operand .not x rfl).grouped levels x.opens x.free_tokens
    (by omega : x.tokens.length < k) after
  have operand : (Phrase.parts (k + 1) levels).operand? Phrase.notPower
      (Predicate.grouped x.tokens ++ op.token :: (right.tokens ++ rest)) =
        (if max (x.depth + 1) right.depth ≤ levels then
          some (Phrase.taken op (.nested x.phrase) right.phrase) else none).map (·, rest) := by
    refine (Phrase.readOperand?_of_primary Phrase.notPower grouped).trans
      (bind_within (a := x.depth + 1) ?_)
    refine hr.operator op (by omega) follow stop (by decide) ?_ (by simp)
    cases op <;> first | decide | cases unjoined
  have free : Token.symbol "[" ∉
      Predicate.grouped x.tokens ++ op.token :: (right.tokens ++ rest) := by
    simp [Predicate.grouped, x.free_tokens, after.free]
  have primary := Phrase.readPrimary?_not free rfl follow operand
  rw [List.append_assoc, List.cons_append, List.cons_append,
    Phrase.readOperand?_of_le primary (by omega)]
  change Option.map _ _ = Option.map _ (if max (x.depth + 1) right.depth ≤ levels then _ else _)
  split <;> rfl

/-- Two displays with an operator between them. -/
theorem Shown.joined {left right : Predicate} (hl : left.Shown) (hr : right.Shown)
    (op : BinaryOperator) :
    Shows (left.tokens ++ op.token :: right.tokens) (max left.depth right.depth)
      (Phrase.joined op left.phrase right.phrase) := by
  by_cases plain : op.joins = false → ∀ x, left ≠ .unary .not x
  · rw [joined_of_plain plain]
    cases ends : left.test? with
    | none => exact hl.joined_primary hr plain ends
    | some test =>
      obtain ⟨follows, x, rfl⟩ := exists_of_test? ends
      exact hl.joined_test hr follows op
  · obtain ⟨unjoined, x, rfl⟩ : op.joins = false ∧ ∃ x, left = .unary .not x := by
      simpa using plain
    rw [joined_of_negation unjoined]
    exact hl.joined_negation hr unjoined

/-- What is an operand in front of operators is one where none follows. -/
theorem Shown.of_primary {e : Predicate} (primary : ∀ steps levels rest, e.tokens.length ≤ steps →
    Follow rest → (∀ x, e = .unary .not x → Phrase.power rest ≤ Phrase.notPower) →
      Phrase.readPrimary? (Phrase.parts steps levels) (e.tokens ++ rest) =
        (if e.depth ≤ levels then some e.phrase else none).map (·, rest))
    (operand : ∀ op x, e = .unary op x → Shows x.tokens x.depth x.phrase) : e.Shown :=
  ⟨fun steps levels rest enough follow stop => Phrase.readOperand?_of_le
    (primary steps levels rest enough follow fun _ _ => by omega) (by omega), fun _ => primary, operand⟩

/-- **`shown`**: every display is read as its phrase, where an operand is due and as a whole. -/
theorem shown (e : Predicate) : e.Shown := by
  induction e with
  | column name =>
    refine .of_primary (fun steps levels rest _ follow _ => ?_) (by rintro op x ⟨⟩)
    exact (Phrase.readPrimary?_column name follow).trans (by simp [depth, phrase])
  | literal v =>
    refine .of_primary (fun steps levels rest _ follow _ => ?_) (by rintro op x ⟨⟩)
    exact (Phrase.readPrimary?_literal v follow).trans (by simp [depth, phrase])
  | unary op x ih =>
    have operand : ∀ op' y, unary op x = .unary op' y → Shows y.tokens y.depth y.phrase := by
      rintro op' y ⟨⟩
      exact ih.whole
    by_cases follows : op.follows = true
    · refine ⟨fun steps levels rest enough follow stop => ?_, fun none => ?_, operand⟩
      · rw [tokens_of_follows follows] at enough ⊢
        rw [List.append_assoc]
        refine ih.whole.tested x.opens x.free_tokens follows ?_ follow.free (by decide) (by omega)
        simp [grouped] at enough
        omega
      · rw [test?, if_pos follows] at none
        cases none
    · refine .of_primary (fun steps levels rest enough follow low => ?_) operand
      have own : (unary op x).tokens = op.tokens ++ grouped x.tokens := by rw [tokens, if_neg follows]
      have some : 0 < op.tokens.length := by cases op <;> decide
      rw [own] at enough ⊢
      simp only [grouped, List.length_append, List.length_cons] at enough
      refine ih.whole.prefixed x.opens x.free_tokens (Bool.eq_false_iff.2 follows) (by omega) follow ?_
      rintro rfl
      exact low x rfl
  | binary op left right ihl ihr =>
    refine .of_primary (fun steps levels rest enough follow _ => ?_) (by rintro op x ⟨⟩)
    obtain ⟨t, more, same, start⟩ := left.opens
    have own : Token.symbol "[" ≠ op.token := by cases op <;> decide
    simp only [tokens, grouped, List.length_append, List.length_cons] at enough
    have opens : Phrase.Opens (left.tokens ++ op.token :: right.tokens) :=
      ⟨t, more ++ op.token :: right.tokens, by rw [same]; rfl, start⟩
    refine (ihl.joined ihr op).grouped levels opens
      (by simp [left.free_tokens, right.free_tokens, own]) ?_ follow
    simp only [List.length_append, List.length_cons]
    omega

/-- **`parse_toString`**: a display is read as its phrase, or not at all if too many parentheses are
around one another. -/
theorem parse_toString {e : Predicate} (unsigned : e.Unsigned) (unquoted : e.Unquoted) :
    parse e.toString =
      if e.depth < Phrase.maxLevels then e.phrase.toPredicate else .error .malformed := by
  have whole := e.shown.whole e.tokens.length 49 [] le_rfl .nil rfl
  rw [List.append_nil] at whole
  have read : Phrase.read? e.tokens = _ := whole
  unfold parse
  rw [Token.scan_toString unsigned unquoted, Option.bind_some, read]
  have levels : e.depth < Phrase.maxLevels ↔ e.depth ≤ 49 := Nat.lt_succ_iff
  by_cases within : e.depth ≤ 49
  · rw [if_pos within, if_pos (levels.2 within)]
    rfl
  · rw [if_neg within, if_neg (mt levels.1 within)]
    rfl

end Predicate

end PrivateQuery
