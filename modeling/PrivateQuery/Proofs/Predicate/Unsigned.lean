import PrivateQuery.Predicate.Grammar
import PrivateQuery.Proofs.Predicate.Membership
import PrivateQuery.Proofs.Predicate.Signs

/-!
# Predicates without signs

A minus in front of a number is an operator, so the literals of the predicate that a text holds have no
sign (`unsigned_of_parse`). Whatever is read from tokens without signs and means something has no signs
either, and leaves such tokens (`Phrase.Keeps`). What means nothing needs no account of what it leaves,
so the constructs that predicates do without are not looked into.
-/
namespace PrivateQuery

/-! ## Phrases -/

namespace Predicate

theorem unsigned_orEquals {x p : Predicate} {ys : List Predicate} (hx : x.Unsigned) (hp : p.Unsigned)
    (hys : ∀ y ∈ ys, y.Unsigned) : (ys.foldl (orEquals x) p).Unsigned := by
  induction ys generalizing p with
  | nil => exact hp
  | cons y ys ih =>
    exact ih ⟨hp, hx, hys y List.mem_cons_self⟩ fun y' mem => hys y' (List.mem_cons_of_mem y mem)

end Predicate

namespace Phrase

open Reader
open Token (AllUnsigned)

theorem unsigned_negateIf {negated : Bool} {p : Predicate} (h : p.Unsigned) :
    (negateIf negated p).Unsigned := by
  cases negated <;> exact h

theorem unsigned_ofNumber {text : String} {p : Predicate} (signless : Decimal.Signless text)
    (meant : ofNumber text = .ok p) : p.Unsigned := by
  unfold ofNumber at meant
  split at meant
  next i integer =>
    cases meant
    exact signless.readInt? integer
  next =>
    split at meant
    next x float =>
      cases meant
      exact signless.readFloat? float
    next => cases meant

/-- Whatever a phrase means has no sign in its numbers, and neither have the tokens behind it. -/
def Signless (x : Phrase) (rest : List Token) : Prop :=
  ∀ p, x.toPredicate = .ok p → p.Unsigned ∧ AllUnsigned rest

section Signless

variable {x l r : Phrase} {ts us rest : List Token}

theorem Signless.of_subset (h : x.Signless ts) (part : rest ⊆ ts) : x.Signless rest :=
  fun p meant => ⟨(h p meant).1, (h p meant).2.of_subset part⟩

theorem signless_of_error {e : PredicateError} (fails : x.toPredicate = .error e) : x.Signless rest := by
  intro p meant
  cases fails.symm.trans meant

theorem Signless.unary (mark : UnaryMark) (h : x.Signless rest) : (unary mark x).Signless rest := by
  intro p meant
  rw [toPredicate, bind_eq_ok] at meant
  obtain ⟨y, inner, meant⟩ := meant
  cases mark <;> cases meant <;> exact ⟨(h _ inner).1, (h _ inner).2⟩

theorem Signless.binary (mark : BinaryMark) (hl : l.Signless ts)
    (hr : AllUnsigned ts → ∀ op, mark = .known op → r.Signless rest) :
    (binary mark l r).Signless rest := by
  intro p meant
  simp only [toPredicate, bind_eq_ok] at meant
  obtain ⟨y, first, z, second, meant⟩ := meant
  cases mark with
  | other spelling => cases meant
  | known op =>
    cases meant
    obtain ⟨left, between⟩ := hl y first
    obtain ⟨right, after⟩ := hr between op rfl z second
    exact ⟨⟨left, right⟩, after⟩

theorem Signless.isNull (negated : Bool) (h : x.Signless rest) : (isNull negated x).Signless rest := by
  intro p meant
  simp only [toPredicate, bind_eq_ok, pure_eq_ok] at meant
  obtain ⟨y, inner, rfl⟩ := meant
  exact h y inner

theorem Signless.isTruth (truth : Bool) (h : x.Signless rest) : (isTruth truth x).Signless rest := by
  intro p meant
  simp only [toPredicate, bind_eq_ok, pure_eq_ok] at meant
  obtain ⟨y, inner, rfl⟩ := meant
  exact ⟨⟨(h y inner).1, trivial⟩, (h y inner).2⟩

theorem Signless.between (negated : Bool) {low high : Phrase} (hx : x.Signless ts)
    (hl : AllUnsigned ts → low.Signless us) (hh : AllUnsigned us → high.Signless rest) :
    (between negated x low high).Signless rest := by
  intro p meant
  simp only [toPredicate_between, bind_eq_ok, pure_eq_ok] at meant
  obtain ⟨y, first, l, second, h, third, rfl⟩ := meant
  obtain ⟨operand, behind⟩ := hx y first
  obtain ⟨lower, between⟩ := hl behind l second
  obtain ⟨upper, after⟩ := hh between h third
  exact ⟨unsigned_negateIf ⟨⟨operand, lower⟩, operand, upper⟩, after⟩

/-- Phrases with commas between them. -/
def SignlessAll (items : List Phrase) (rest : List Token) : Prop :=
  ∀ ys, items.mapM toPredicate = .ok ys → (∀ y ∈ ys, y.Unsigned) ∧ AllUnsigned rest

theorem Signless.among (negated : Bool) {items : List Phrase} (hx : x.Signless ts)
    (hi : AllUnsigned ts → SignlessAll items rest) : (among negated x items).Signless rest := by
  intro p meant
  cases items with
  | nil =>
    simp only [toPredicate, amongAny, bind_eq_ok, pure_eq_ok] at meant
    obtain ⟨y, first, q, ⟨⟩, rfl⟩ := meant
    exact ⟨unsigned_negateIf trivial, (hi (hx y first).2 [] rfl).2⟩
  | cons item items =>
    simp only [toPredicate_among, bind_eq_ok, pure_eq_ok] at meant
    obtain ⟨y, first, z, second, zs, others, rfl⟩ := meant
    obtain ⟨operand, behind⟩ := hx y first
    obtain ⟨each, after⟩ := hi behind (z :: zs) (mapM_cons_eq_ok.2 ⟨z, zs, second, others, rfl⟩)
    refine ⟨unsigned_negateIf (Predicate.unsigned_orEquals operand ?_ ?_), after⟩
    · exact ⟨operand, each z List.mem_cons_self⟩
    · exact fun y mem => each y (List.mem_cons_of_mem z mem)

theorem signless_of_ok {p : Predicate} (means : x.toPredicate = .ok p) (own : p.Unsigned)
    (after : AllUnsigned rest) : x.Signless rest := by
  intro q meant
  obtain rfl := Except.ok.inj (means.symm.trans meant)
  exact ⟨own, after⟩

end Signless

/-! ## Readers -/

section Readers

variable {ts rest : List Token} {x left : Phrase} {p : Parts}

theorem subset_of_symbol {spelling : String} (found : symbol spelling ts = some rest) : rest ⊆ ts := by
  rw [symbol_eq_some_iff.1 found]
  exact List.subset_cons_self _ _

theorem subset_of_keyword {name : String} (found : keyword name ts = some rest) : rest ⊆ ts := by
  obtain ⟨t, -, rfl⟩ := keyword_eq_some_iff.1 found
  exact List.subset_cons_self _ _

theorem subset_of_keywords {names : List String} (found : keywords names ts = some rest) :
    rest ⊆ ts := by
  induction names generalizing ts with
  | nil =>
    cases found
    exact List.Subset.refl _
  | cons name names ih =>
    obtain ⟨mid, first, others⟩ := Option.bind_eq_some_iff.1 found
    exact List.Subset.trans (ih others) (subset_of_keyword first)

theorem signless_readForeign? {r : Reader} {us : List Token} (found : readForeign? r ts = some (x, us)) :
    x.Signless rest := by
  obtain ⟨_, -, ⟨⟩⟩ := Option.map_eq_some_iff.1 found
  exact signless_of_error rfl

/-- What some tokens are read as, where no number has a sign. -/
def Keeps (read : List Token → Option (Phrase × List Token)) : Prop :=
  ∀ {ts : List Token} {x : Phrase} {rest : List Token},
    AllUnsigned ts → read ts = some (x, rest) → x.Signless rest

/-- Parts that keep numbers without signs. -/
structure Keep (p : Parts) : Prop where
  phrase : Keeps p.phrase?
  operand : ∀ least, Keeps (p.operand? least)

theorem keeps_readNamed? (p : Parts) (text : String) (quote : Option Char) :
    Keeps (readNamed? p text quote) := by
  intro ts x rest unsigned found
  unfold readNamed? at found
  split at found
  · exact signless_readForeign? found
  · exact signless_readForeign? found
  · split at found
    · exact signless_readForeign? found
    · cases found
      unfold ofWord
      split
      · exact signless_of_ok rfl trivial unsigned
      · exact signless_of_ok rfl trivial unsigned

theorem keeps_readWorded? (keep : Keep p) (text : String) (quote : Option Char) :
    Keeps (readWorded? p text quote) := by
  intro ts x rest unsigned found
  unfold readWorded? at found
  dsimp only at found
  generalize (Token.capitalized? _).getD "" = upper at found
  rcases ite_eq_iff.1 found with ⟨-, ⟨⟩⟩ | ⟨-, found⟩
  · exact signless_of_ok rfl trivial unsigned
  rcases ite_eq_iff.1 found with ⟨-, ⟨⟩⟩ | ⟨-, found⟩
  · exact signless_of_ok rfl trivial unsigned
  rcases ite_eq_iff.1 found with ⟨-, ⟨⟩⟩ | ⟨-, found⟩
  · exact signless_of_ok rfl trivial unsigned
  rcases ite_eq_iff.1 found with ⟨-, found⟩ | ⟨-, found⟩
  · split at found
    · exact signless_readForeign? found
    · obtain ⟨⟨y, us⟩, operand, ⟨⟩⟩ := Option.map_eq_some_iff.1 found
      exact (keep.operand _ unsigned operand).unary _
  rcases ite_eq_iff.1 found with ⟨-, ⟨⟩⟩ | ⟨-, found⟩
  · exact signless_of_error rfl
  rcases ite_eq_iff.1 found with ⟨-, found⟩ | ⟨-, found⟩
  · rcases ite_eq_iff.1 found with ⟨-, found⟩ | ⟨-, ⟨⟩⟩
    · exact signless_readForeign? found
    · exact signless_of_error rfl
  · split at found
    · exact signless_readForeign? found
    · exact keeps_readNamed? p text quote unsigned found

theorem signless_readItemsWithin? (keep : Keep p) {n : ℕ} {xs : List Phrase} (unsigned : AllUnsigned ts)
    (found : readItemsWithin? p n ts = some (xs, rest)) : SignlessAll xs rest := by
  induction n generalizing ts xs with
  | zero => cases found
  | succ n ih =>
    rw [readItemsWithin?] at found
    split at found
    · cases found
    next x us first =>
      have head := keep.phrase unsigned first
      split at found
      next vs comma =>
        obtain ⟨⟨ys, ws⟩, others, ⟨⟩⟩ := Option.map_eq_some_iff.1 found
        intro ps meant
        obtain ⟨y, zs, means, tail, rfl⟩ := mapM_cons_eq_ok.1 meant
        obtain ⟨own, behind⟩ := head y means
        obtain ⟨each, after⟩ := ih (behind.of_subset (subset_of_symbol comma)) others zs tail
        exact ⟨List.forall_mem_cons.2 ⟨own, each⟩, after⟩
      next =>
        cases found
        intro ps meant
        obtain ⟨y, zs, means, tail, rfl⟩ := mapM_cons_eq_ok.1 meant
        obtain ⟨own, behind⟩ := head y means
        obtain rfl := Except.ok.inj tail
        exact ⟨by simpa using own, behind⟩

theorem keeps_readGrouped? (keep : Keep p) : Keeps (readGrouped? p) := by
  intro ts x rest unsigned found
  unfold readGrouped? at found
  rcases ite_eq_iff.1 found with ⟨-, found⟩ | ⟨-, found⟩
  · obtain ⟨⟨y, us⟩, query, found⟩ := Option.bind_eq_some_iff.1 found
    obtain ⟨vs, -, found⟩ := Option.bind_eq_some_iff.1 found
    split at found
    · exact signless_readForeign? found
    · cases found
      exact signless_readForeign? query
  · obtain ⟨⟨y, us⟩, inner, found⟩ := Option.bind_eq_some_iff.1 found
    obtain ⟨vs, closing, found⟩ := Option.bind_eq_some_iff.1 found
    have inside : y.Signless us := by
      obtain ⟨⟨xs, ws⟩, items, same⟩ := Option.map_eq_some_iff.1 inner
      have all := signless_readItemsWithin? keep unsigned items
      dsimp only at same
      split at same <;> cases same
      next z =>
        intro q meant
        obtain ⟨each, after⟩ := all [q] (mapM_cons_eq_ok.2 ⟨q, [], meant, rfl, rfl⟩)
        exact ⟨each q (List.mem_singleton.2 rfl), after⟩
      next => exact signless_of_error rfl
    split at found
    · exact signless_readForeign? found
    · cases found
      exact inside.of_subset (subset_of_symbol closing)

theorem keeps_readMarked? (keep : Keep p) (s : String) : Keeps (readMarked? p s) := by
  intro ts x rest unsigned found
  unfold readMarked? at found
  split at found
  · obtain ⟨⟨y, us⟩, operand, ⟨⟩⟩ := Option.map_eq_some_iff.1 found
    exact (keep.operand _ unsigned operand).unary _
  · obtain ⟨⟨y, us⟩, operand, ⟨⟩⟩ := Option.map_eq_some_iff.1 found
    exact (keep.operand _ unsigned operand).unary _
  · exact keeps_readGrouped? keep unsigned found
  · exact signless_readForeign? found
  · exact signless_readForeign? found
  · split at found <;> cases found <;> exact signless_of_error rfl
  · split at found <;> cases found <;> exact signless_of_error rfl
  · cases found

theorem keeps_readBare? (keep : Keep p) : Keeps (readBare? p) := by
  intro ts x rest unsigned found
  cases ts with
  | nil => cases found
  | cons t ts =>
    have own := unsigned t List.mem_cons_self
    have others : AllUnsigned ts := unsigned.of_subset (List.subset_cons_self _ _)
    cases t with
    | word text quote => exact keeps_readWorded? keep text quote others found
    | number text long =>
      cases found
      intro q meant
      exact ⟨unsigned_ofNumber own meant, others⟩
    | string s =>
      cases found
      exact signless_of_ok rfl trivial others
    | marked mark quote s =>
      cases found
      exact signless_of_error rfl
    | dollars tag s =>
      cases found
      exact signless_of_error rfl
    | placeholder text =>
      cases found
      exact signless_of_error rfl
    | symbol s => exact keeps_readMarked? keep s others found

theorem keeps_readPrimary? (keep : Keep p) : Keeps (readPrimary? p) := by
  intro ts x rest unsigned found
  unfold readPrimary? at found
  split at found
  · cases found
    exact signless_of_error rfl
  · split at found
    next y us bare =>
      split at found
      · exact signless_readForeign? found
      · cases found
        exact keeps_readBare? keep unsigned bare
    next => cases found

theorem signless_readState? (unsigned : left.Signless ts)
    (found : readState? left ts = some (x, rest)) : x.Signless rest := by
  obtain ⟨⟨words, y⟩, mem, read⟩ := List.exists_of_findSome?_eq_some found
  obtain ⟨us, words', ⟨⟩⟩ := Option.map_eq_some_iff.1 read
  have before : left.Signless rest := unsigned.of_subset (subset_of_keywords words')
  simp only [List.mem_cons, Prod.mk.injEq, List.not_mem_nil, or_false] at mem
  rcases mem with ⟨-, rfl⟩ | ⟨-, rfl⟩ | ⟨-, rfl⟩ | ⟨-, rfl⟩ | ⟨-, rfl⟩ | ⟨-, rfl⟩ | ⟨-, rfl⟩ | ⟨-, rfl⟩
  · exact before.isNull _
  · exact before.isNull _
  · exact before.isTruth _
  · exact signless_of_error rfl
  · exact before.isTruth _
  · exact signless_of_error rfl
  · exact signless_of_error rfl
  · exact signless_of_error rfl

theorem signless_readMembership? (keep : Keep p) {negated : Bool} (unsigned : left.Signless ts)
    (found : readMembership? p left negated ts = some (x, rest)) : x.Signless rest := by
  unfold readMembership? at found
  dsimp only at found
  rcases ite_eq_iff.1 found with ⟨-, found⟩ | ⟨-, found⟩
  · exact signless_readForeign? found
  rcases ite_eq_iff.1 found with ⟨-, found⟩ | ⟨-, found⟩
  · split at found
    · exact signless_readForeign? found
    · obtain ⟨us, opening, found⟩ := Option.bind_eq_some_iff.1 found
      have after : us ⊆ ts := List.Subset.trans (subset_of_symbol opening) (List.drop_subset 1 ts)
      rcases ite_eq_iff.1 found with ⟨-, found⟩ | ⟨-, found⟩
      · obtain ⟨⟨y, vs⟩, query, found⟩ := Option.bind_eq_some_iff.1 found
        obtain ⟨ws, -, ⟨⟩⟩ := Option.map_eq_some_iff.1 found
        exact signless_readForeign? query
      · obtain ⟨⟨y, vs⟩, list, found⟩ := Option.bind_eq_some_iff.1 found
        obtain ⟨⟨items, vs⟩, read, ⟨⟩⟩ := Option.map_eq_some_iff.1 list
        obtain ⟨ws, closing, ⟨⟩⟩ := Option.map_eq_some_iff.1 found
        have inside : (Phrase.among negated left items).Signless vs :=
          unsigned.among negated fun all =>
            signless_readItemsWithin? keep (all.of_subset after) read
        exact inside.of_subset (subset_of_symbol closing)
  rcases ite_eq_iff.1 found with ⟨-, found⟩ | ⟨-, found⟩
  · simp only [Option.bind_eq_bind, Option.bind_eq_some_iff] at found
    obtain ⟨⟨low, us⟩, lower, vs, and, ⟨high, ws⟩, upper, ⟨⟩⟩ := found
    have least (all : AllUnsigned ts) : low.Signless us :=
      keep.operand _ (all.of_subset (List.drop_subset 1 ts)) lower
    have greatest (all : AllUnsigned us) : high.Signless ws :=
      keep.operand _ (all.of_subset (subset_of_keyword and)) upper
    exact unsigned.between negated least greatest
  · exact signless_readForeign? found

theorem ne_known_of_readSpelledOut? {mark : BinaryMark} {gathered : String}
    (found : readSpelledOut? ts gathered = some (mark, rest)) (op : BinaryOperator) :
    mark ≠ .known op := by
  fun_induction readSpelledOut? ts gathered with
  | case1 t rest gathered ih => exact ih found
  | case2 =>
    cases found
    nofun
  | case3 => cases found

theorem subset_of_readMark? {op : BinaryOperator} (found : readMark? ts = some (.known op, rest)) :
    rest ⊆ ts := by
  unfold readMark? at found
  split at found
  · obtain ⟨mark, -, same⟩ := Option.map_eq_some_iff.1 found
    cases same
    exact List.subset_cons_self _ _
  · split at found
    · cases found
      exact List.subset_cons_self _ _
    · cases found
      exact List.subset_cons_self _ _
    · cases found
    · obtain ⟨us, -, spelled⟩ := Option.bind_eq_some_iff.1 found
      exact absurd rfl (ne_known_of_readSpelledOut? spelled op)
    · cases found
  · cases found

theorem signless_readOperator? (keep : Keep p) {own : ℕ} (unsigned : left.Signless ts)
    (found : readOperator? p own left ts = some (x, rest)) : x.Signless rest := by
  unfold readOperator? at found
  split at found
  next mark us read =>
    split at found
    · exact signless_readForeign? found
    · obtain ⟨⟨right, vs⟩, operand, ⟨⟩⟩ := Option.map_eq_some_iff.1 found
      -- Only behind a known operator it is known where the tokens come from.
      refine unsigned.binary mark fun all op known => ?_
      subst known
      exact keep.operand own (all.of_subset (subset_of_readMark? read)) operand
  next =>
    split at found
    · cases found
    · split at found
      · exact signless_readForeign? found
      · cases found
        exact (unsigned.unary _).of_subset (List.subset_cons_self _ _)
      · exact signless_readForeign? found
      · exact signless_readForeign? found
      · cases found
    next t us _ _ =>
      have before : left.Signless us := unsigned.of_subset (List.subset_cons_self _ _)
      rcases ite_eq_iff.1 found with ⟨-, found⟩ | ⟨-, found⟩
      · split at found
        next read =>
          cases found
          exact signless_readState? before read
        next => exact signless_readForeign? found
      rcases ite_eq_iff.1 found with ⟨-, found⟩ | ⟨-, found⟩
      · exact signless_readForeign? found
      rcases ite_eq_iff.1 found with ⟨-, found⟩ | ⟨-, found⟩
      · exact signless_readMembership? keep before found
      · exact signless_readMembership? keep unsigned found

theorem signless_readOperatorsWithin? (keep : Keep p) {power : List Token → ℕ} {least n : ℕ}
    (unsigned : left.Signless ts)
    (found : readOperatorsWithin? p power least n left ts = some (x, rest)) : x.Signless rest := by
  induction n generalizing left ts with
  | zero =>
    cases found
    exact unsigned
  | succ n ih =>
    rw [readOperatorsWithin?] at found
    split at found
    · cases found
      exact unsigned
    · split at found
      next read => exact ih (signless_readOperator? keep unsigned read) found
      next => cases found

theorem keeps_readOperand? (keep : Keep p) (power : List Token → ℕ) (least : ℕ) :
    Keeps (readOperand? p power least) := by
  intro ts x rest unsigned found
  unfold readOperand? at found
  split at found
  next read => exact signless_readOperatorsWithin? keep (keeps_readPrimary? keep unsigned read) found
  next => cases found

theorem keep_parts (steps levels : ℕ) : Keep (parts steps levels) := by
  induction steps generalizing levels with
  | zero => exact ⟨fun _ found => (by cases found), fun _ _ _ _ _ found => (by cases found)⟩
  | succ steps ih =>
    refine ⟨fun unsigned found => ?_, fun least => keeps_readOperand? (ih levels) power least⟩
    cases levels with
    | zero => cases found
    | succ levels => exact keeps_readOperand? (ih levels) power 0 unsigned found

end Readers

end Phrase

/-- **`unsigned_of_parse`**: no number in the predicate that a text holds has a sign. -/
theorem Predicate.unsigned_of_parse {text : String} {e : Predicate} (held : parse text = .ok e) :
    e.Unsigned := by
  unfold parse at held
  split at held
  next => cases held
  next phrase read =>
    obtain ⟨ts, scanned, found⟩ := Option.bind_eq_some_iff.1 read
    exact ((Phrase.keep_parts _ _).phrase (Token.unsigned_scan? scanned) found e held).1
  next => cases held

end PrivateQuery
