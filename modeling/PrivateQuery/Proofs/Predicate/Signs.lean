import PrivateQuery.Proofs.Predicate.Scanning

/-!
# Signs of numbers

The number tokens of a text begin with a digit or a point (`Token.unsigned_scan?`), and what begins so
is read as an integer or a double without a sign (`Decimal.Signless.readInt?`,
`Decimal.Signless.readFloat?`).
-/
namespace PrivateQuery

/-! ## Doubles -/

theorem Value.unsigned_infinity : (real Binary64.infinity).Unsigned := .inl (by decide +kernel)

theorem Value.unsigned_zero : (real 0).Unsigned := .inr ⟨0, -1074, by decide +kernel⟩

/-- Up to the infinity, bits have no sign. -/
theorem Value.unsigned_ofBits (bits : ℕ) : (real (if bits < 0x7FF0000000000000
    then Float.ofBits bits.toUInt64 else Binary64.infinity)).Unsigned := by
  by_cases below : bits < 0x7FF0000000000000
  · have word : bits.toUInt64.toNat = bits := UInt64.toNat_ofNat_of_lt' (by unfold UInt64.size; omega)
    have positive : bits / 2 ^ 63 % 2 = 0 := by omega
    have scale : bits / 2 ^ 52 % 2 ^ 11 ≠ 2047 := by omega
    refine .inr ?_
    rw [if_pos below, Binary64.read_ofBits, word, Binary64.Reading.ofBits, positive,
      Binary64.Reading.ofFields, if_neg scale]
    split
    · exact ⟨_, _, rfl⟩
    · exact ⟨_, _, rfl⟩
  · rw [if_neg below]
    exact unsigned_infinity

theorem Value.unsigned_nearest (num den : ℕ) : (real (Binary64.nearest false num den)).Unsigned := by
  rcases Nat.eq_zero_or_pos num with rfl | pos
  · simpa [Binary64.nearest, Binary64.signed] using unsigned_zero
  · simp only [Binary64.nearest, Binary64.signed, Bool.false_eq_true, if_false, beq_iff_eq, pos.ne']
    exact unsigned_ofBits _

theorem Value.unsigned_toFloat (digits : ℕ) (exponent : ℤ) :
    (real (Decimal.toFloat false digits exponent)).Unsigned := by
  unfold Decimal.toFloat
  dsimp only
  split_ifs
  · exact unsigned_zero
  · exact unsigned_infinity
  · exact unsigned_nearest _ _
  · exact unsigned_nearest _ _

namespace Decimal

/-- What a number begins with that is written without a sign. -/
def Signless (text : String) : Prop := ∀ c ∈ text.toList.head?, c.isDigit = true ∨ c = '.'

variable {text : String}

theorem Signless.readSign (signless : Signless text) : readSign text.toList = (false, text.toList) := by
  have plain : ∀ c ∈ text.toList.head?, c ≠ '-' ∧ c ≠ '+' := by
    intro c first
    rcases signless c first with digit | rfl
    · exact isDigit_ne_sign digit
    · decide
  have read : Decimal.readSign (signChars none ++ text.toList) = _ := readSign_signChars plain
  exact read

theorem Signless.readInt? (signless : Signless text) {i : Int64} (found : readInt? text = some i) :
    (Value.integer i).Unsigned := by
  unfold Decimal.readInt? at found
  rw [signless.readSign] at found
  rcases ite_eq_iff.1 found with ⟨-, found⟩ | ⟨-, found⟩
  · cases found
  · have natural : i.toInt = ofDigits text.toList := Word.ofInt?_eq_some_iff.1 found
    rw [Value.Unsigned, natural]
    exact Int.natCast_nonneg _

theorem Signless.readFloat? (signless : Signless text) {x : Float} (found : readFloat? text = some x) :
    (Value.real x).Unsigned := by
  unfold Decimal.readFloat? at found
  rw [signless.readSign] at found
  rcases ite_eq_iff.1 found with ⟨-, found⟩ | ⟨-, found⟩
  · cases found
    exact Value.unsigned_infinity
  rcases ite_eq_iff.1 found with ⟨word, found⟩ | ⟨-, found⟩
  · exfalso
    have letters : text.toList.map lower = ['n', 'a', 'n'] := by
      rw [beq_iff_eq] at word
      exact String.ofList_inj.1 (word.trans (by decide))
    cases chars : text.toList with
    | nil => simp [chars] at letters
    | cons c cs =>
      rw [chars, List.map_cons] at letters
      obtain ⟨first, -⟩ := List.cons.inj letters
      rcases signless c (by rw [chars]; rfl) with digit | rfl
      · rw [Numeral.lower_of_isDigit digit] at first
        subst first
        exact absurd digit (by decide)
      · exact absurd first (by decide)
  · rcases ite_eq_iff.1 found with ⟨-, found⟩ | ⟨-, found⟩
    · cases found
    · obtain ⟨e, -, rfl⟩ := Option.map_eq_some_iff.1 found
      exact Value.unsigned_toFloat _ _

end Decimal

/-! ## Tokens -/

namespace Token

/-- No number has a sign. -/
def Unsigned : Token → Prop
  | number text _ => Decimal.Signless text
  | _ => True

/-- No number of some tokens has a sign. -/
def AllUnsigned (ts : List Token) : Prop := ∀ t ∈ ts, t.Unsigned

theorem AllUnsigned.of_subset {ts rest : List Token} (h : AllUnsigned ts) (part : rest ⊆ ts) :
    AllUnsigned rest :=
  fun t mem => h t (part mem)

theorem unsigned_readNumber (c : Char) (rest : List Char) (begins : c.isDigit = true ∨ c = '.') :
    (readNumber (c :: rest)).1.Unsigned := by
  have front (cs : List Char) : Decimal.Signless (String.ofList (c :: cs)) := by
    unfold Decimal.Signless
    rw [String.toList_ofList]
    rintro d ⟨⟩
    exact begins
  unfold readNumber
  dsimp only
  split
  · trivial
  · rcases begins with digit | rfl
    · rw [List.takeWhile_cons_of_pos digit, List.dropWhile_cons_of_pos digit]
      split <;> (split; trivial; split <;> exact front _)
    · rw [List.takeWhile_cons_of_neg (by decide), List.dropWhile_cons_of_neg (by decide)]
      split
      · split
        · trivial
        · split <;> exact front _
      next other => exact absurd rfl (other rest)

theorem unsigned_readNumberSign (rest : List Char) : (readNumberSign rest).1.Unsigned := by
  unfold readNumberSign readWord
  split <;> first | trivial | (split <;> trivial)

theorem unsigned_readAtSign (rest : List Char) : (readAtSign rest).1.Unsigned := by
  unfold readAtSign readWord
  split <;> first | trivial | (split <;> trivial)

theorem unsigned_readMarked? {letter quote : Char} {rest : List Char} {t : Token × List Char}
    (found : readMarked? letter quote rest = some (some t)) : t.1.Unsigned := by
  unfold readMarked? at found
  split at found
  all_goals try simp only [Option.some.injEq, Option.map_eq_some_iff, reduceCtorEq] at found
  all_goals
    obtain ⟨s, -, rfl⟩ := found
    trivial

theorem unsigned_readAfterDollar? {rest : List Char} {t : Token × List Char}
    (found : readAfterDollar? rest = some t) : t.1.Unsigned := by
  unfold readAfterDollar? at found
  split at found
  · obtain ⟨s, -, rfl⟩ := Option.map_eq_some_iff.1 found
    trivial
  · dsimp only at found
    split at found
    · obtain ⟨s, -, rfl⟩ := Option.map_eq_some_iff.1 found
      trivial
    · cases found
      trivial

theorem unsigned_readSymbol? {symbols : List String} {cs : List Char} {t : Token × List Char}
    (found : readSymbol? symbols cs = some t) : t.1.Unsigned := by
  induction symbols with
  | nil => cases found
  | cons s symbols ih =>
    rw [readSymbol?] at found
    split at found
    · cases found
      trivial
    · exact ih found

theorem unsigned_lexeme? {c : Char} {rest rest' : List Char} {t : Token}
    (found : lexeme? c rest = some (some t, rest')) : t.Unsigned := by
  have token {read : Token × List Char} (same : some (Lexeme.ofToken read) = some (some t, rest'))
      (unsigned : read.1.Unsigned) : t.Unsigned := by
    cases same
    exact unsigned
  unfold lexeme? at found
  rcases ite_eq_iff.1 found with ⟨-, found⟩ | ⟨-, found⟩
  · cases found
  rcases ite_eq_iff.1 found with ⟨-, found⟩ | ⟨-, found⟩
  · obtain ⟨_, -, ⟨⟩⟩ := Option.map_eq_some_iff.1 found
  rcases ite_eq_iff.1 found with ⟨-, found⟩ | ⟨-, found⟩
  · obtain ⟨_, -, ⟨⟩⟩ := Option.map_eq_some_iff.1 found
    trivial
  rcases ite_eq_iff.1 found with ⟨-, found⟩ | ⟨-, found⟩
  · obtain ⟨_, -, ⟨⟩⟩ := Option.map_eq_some_iff.1 found
    trivial
  rcases ite_eq_iff.1 found with ⟨number, found⟩ | ⟨-, found⟩
  · exact token found (unsigned_readNumber c rest (by simpa using number))
  rcases ite_eq_iff.1 found with ⟨-, found⟩ | ⟨-, found⟩
  · exact token found (unsigned_readNumberSign rest)
  rcases ite_eq_iff.1 found with ⟨-, found⟩ | ⟨-, found⟩
  · exact token found (unsigned_readAtSign rest)
  rcases ite_eq_iff.1 found with ⟨-, found⟩ | ⟨-, found⟩
  · cases found
    trivial
  rcases ite_eq_iff.1 found with ⟨-, found⟩ | ⟨-, found⟩
  · split at found
    next marked =>
      obtain ⟨read, rfl, same⟩ := Option.map_eq_some_iff.1 found
      obtain ⟨quote, -, marked⟩ := Option.bind_eq_some_iff.1 marked
      exact token (congrArg some same) (unsigned_readMarked? marked)
    next => exact token found trivial
  rcases ite_eq_iff.1 found with ⟨-, found⟩ | ⟨-, found⟩
  · obtain ⟨read, first, same⟩ := Option.map_eq_some_iff.1 found
    exact token (congrArg some same) (unsigned_readAfterDollar? first)
  rcases ite_eq_iff.1 found with ⟨-, found⟩ | ⟨-, found⟩
  · cases found
  · refine token found ?_
    cases read : readSymbol? longSymbols (c :: rest) with
    | none => trivial
    | some _ => exact unsigned_readSymbol? read

theorem unsigned_scanWithin? {steps : ℕ} {cs : List Char} {gathered ts : List Token}
    (before : AllUnsigned gathered) (found : scanWithin? steps cs gathered = some ts) :
    AllUnsigned ts := by
  induction steps generalizing cs gathered with
  | zero =>
    cases cs with
    | nil =>
      cases found
      exact fun t mem => before t (List.mem_reverse.1 mem)
    | cons c rest => cases found
  | succ steps ih =>
    cases cs with
    | nil =>
      cases found
      exact fun t mem => before t (List.mem_reverse.1 mem)
    | cons c rest =>
      rw [scanWithin?] at found
      split at found
      next t rest' read =>
        refine ih (fun t' mem => ?_) found
        rcases List.mem_cons.1 mem with rfl | mem
        · exact unsigned_lexeme? read
        · exact before t' mem
      next => exact ih before found
      next => cases found

/-- **`unsigned_scan?`**: no number of a text has a sign. -/
theorem unsigned_scan? {source : String} {ts : List Token} (found : scan? source = some ts) :
    AllUnsigned ts := by
  have none : AllUnsigned [] := by rintro t ⟨⟩
  exact unsigned_scanWithin? none found

end Token

end PrivateQuery
