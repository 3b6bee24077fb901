import PrivateQuery.Predicate.Basic
import PrivateQuery.Predicate.Lexer
import PrivateQuery.Proofs.Decimal.Plain

/-!
# Scanning displayed predicates

The display of a predicate is cut into the tokens of its parts (`scan_toString`), as long as no quote
inside a text or a name ends it early (`Predicate.Unquoted`) and numbers are written without a sign
(`Predicate.Unsigned`).
-/
namespace PrivateQuery

/-! ## The tokens of a display -/

def UnaryOperator.tokens : UnaryOperator → List Token
  | opposite => [.symbol "-"]
  | not => [.word "not" none]
  | isNull => [.word "is" none, .word "null" none]
  | isNotNull => [.word "is" none, .word "not" none, .word "null" none]

def BinaryOperator.token : BinaryOperator → Token
  | and => .word "and" none
  | or => .word "or" none
  | notEq => .symbol "<>"
  | op => .symbol op.symbol

/-- The token of a literal. The positive infinity is written as a word. -/
def Value.token : Value → Token
  | null => .word "null" none
  | boolean b => .word (if b then "true" else "false") none
  | integer i => .number (ToString.toString i.toInt) false
  | real x => if x.isFinite then .number (Decimal.plain x) false else .word "inf" none
  | text s => .string s

namespace Predicate

def grouped (ts : List Token) : List Token := .symbol "(" :: ts ++ [.symbol ")"]

def tokens : Predicate → List Token
  | column name => [.word name (some '\x60')]
  | literal v => [v.token]
  | unary op operand =>
    if op.follows then grouped operand.tokens ++ op.tokens else op.tokens ++ grouped operand.tokens
  | binary op left right => grouped (left.tokens ++ op.token :: right.tokens)

end Predicate

/-- A number without a sign, which a numeral in a text always is. -/
def Value.Unsigned : Value → Prop
  | integer i => 0 ≤ i.toInt
  | real x => Binary64.read x = .infinite false ∨ ∃ m e, Binary64.read x = .finite false m e
  | _ => True

theorem Value.Unsigned.read_of_isFinite {x : Float} (unsigned : (Value.real x).Unsigned)
    (finite : x.isFinite = true) : ∃ m e, Binary64.read x = .finite false m e := by
  refine unsigned.resolve_left fun infinite => ?_
  obtain ⟨_, _, _, reading⟩ := Binary64.isFinite_iff.1 finite
  cases infinite.symm.trans reading

namespace Predicate

/-- No number in a predicate has a sign. -/
def Unsigned : Predicate → Prop
  | column _ => True
  | literal v => v.Unsigned
  | unary _ operand => operand.Unsigned
  | binary _ left right => left.Unsigned ∧ right.Unsigned

/-- No name and no text in a predicate contains the quote that it is displayed in. -/
def Unquoted : Predicate → Prop
  | column name => '\x60' ∉ name.toList
  | literal (.text s) => '\x27' ∉ s.toList
  | literal _ => True
  | unary _ operand => operand.Unquoted
  | binary _ left right => left.Unquoted ∧ right.Unquoted

end Predicate

namespace Token

/-! ## One token -/

/-- Where a token ends that does not end by itself. -/
def Ends (rest : List Char) : Prop := ∀ c ∈ rest.head?, c = ' ' ∨ c = ')'

/-- Characters that are one token where it ends. -/
def Spells (cs : List Char) (t : Token) : Prop :=
  ∃ c front, cs = c :: front ∧ ∀ rest, Ends rest → lexeme? c (front ++ rest) = some (some t, rest)

/-- A token may be followed by nothing, by a blank or by a closing parenthesis. -/
theorem Spells.of_endings {c : Char} {front : List Char} {t : Token}
    (atEnd : lexeme? c (front ++ []) = some (some t, []))
    (blank : ∀ more, lexeme? c (front ++ ' ' :: more) = some (some t, ' ' :: more))
    (closing : ∀ more, lexeme? c (front ++ ')' :: more) = some (some t, ')' :: more)) :
    Spells (c :: front) t := by
  refine ⟨c, front, rfl, fun rest ends => ?_⟩
  cases rest with
  | nil => exact atEnd
  | cons d more =>
    rcases ends d rfl with rfl | rfl
    · exact blank more
    · exact closing more

theorem spells_binary (op : BinaryOperator) : Spells op.symbol.toList op.token := by
  cases op <;> exact .of_endings rfl (fun _ => rfl) fun _ => rfl

theorem spells_true : Spells "true".toList (.word "true" none) :=
  .of_endings rfl (fun _ => rfl) fun _ => rfl

theorem spells_false : Spells "false".toList (.word "false" none) :=
  .of_endings rfl (fun _ => rfl) fun _ => rfl

theorem spells_null : Spells "null".toList (.word "null" none) :=
  .of_endings rfl (fun _ => rfl) fun _ => rfl

theorem spells_infinity : Spells "inf".toList (.word "inf" none) :=
  .of_endings rfl (fun _ => rfl) fun _ => rfl

theorem read?_of_not_mem {quote : Char} {cs rest : List Char} (free : quote ∉ cs)
    (single : ∀ c ∈ rest.head?, c ≠ quote) (gathered : List Char) :
    Quotation.read? quote false (cs ++ quote :: rest) gathered =
      some (String.ofList (gathered.reverse ++ cs), rest) := by
  induction cs generalizing gathered with
  | nil =>
    rw [List.nil_append, List.append_nil]
    cases rest with
    | nil => exact Quotation.read?_quote quote false gathered
    | cons c more => simp [Quotation.read?, single c rfl]
  | cons c cs ih =>
    obtain ⟨other, free⟩ := not_or.1 (List.mem_cons.not.1 free)
    obtain ⟨next, more, same⟩ : ∃ next more, cs ++ quote :: rest = next :: more := by
      cases cs <;> exact ⟨_, _, rfl⟩
    have step := ih free (c :: gathered)
    rw [same] at step
    rw [List.cons_append, same, Quotation.read?, if_neg (by simp [Ne.symm other]), if_neg (by simp),
      step]
    simp

theorem spells_string {s : String} (free : '\x27' ∉ s.toList) :
    Spells ('\x27' :: s.toList ++ ['\x27']) (.string s) := by
  refine ⟨'\x27', s.toList ++ ['\x27'], rfl, fun rest ends => ?_⟩
  have single : ∀ c ∈ rest.head?, c ≠ '\x27' := by
    intro c first
    rcases ends c first with rfl | rfl <;> decide
  rw [List.append_assoc, List.singleton_append]
  change (Quotation.read? _ _ _ _).map _ = _
  rw [read?_of_not_mem free single, List.reverse_nil, List.nil_append, String.ofList_toList]
  rfl

theorem spells_name {s : String} (free : '\x60' ∉ s.toList) :
    Spells ('\x60' :: s.toList ++ ['\x60']) (.word s (some '\x60')) := by
  refine ⟨'\x60', s.toList ++ ['\x60'], rfl, fun rest ends => ?_⟩
  have single : ∀ c ∈ rest.head?, c ≠ '\x60' := by
    intro c first
    rcases ends c first with rfl | rfl <;> decide
  rw [List.append_assoc, List.singleton_append]
  change (Quotation.read? _ _ _ _).map _ = _
  rw [read?_of_not_mem free single, List.reverse_nil, List.nil_append, String.ofList_toList]
  rfl

theorem lexeme?_of_isDigit {c : Char} (digit : c.isDigit = true) (rest : List Char) :
    lexeme? c rest = some (Lexeme.ofToken (readNumber (c :: rest))) := by
  have other {d : Char} (mark : d.isDigit = false) : (c == d) = false := by
    rw [beq_eq_false_iff_ne]
    rintro rfl
    exact Bool.false_ne_true (mark.symm.trans digit)
  simp only [lexeme?, other (d := '-') rfl, other (d := '/') rfl, other (d := '\'') rfl,
    other (d := '"') rfl, other (d := '\x60') rfl, digit, Bool.false_and, Bool.false_or, Bool.true_or,
    Bool.false_eq_true, if_false, if_true]

/-- What a token ends at. -/
theorem Ends.forms {rest : List Char} (ends : Ends rest) :
    rest = [] ∨ (∃ more, rest = ' ' :: more) ∨ ∃ more, rest = ')' :: more := by
  cases rest with
  | nil => exact .inl rfl
  | cons c more =>
    rcases ends c rfl with rfl | rfl
    · exact .inr (.inl ⟨more, rfl⟩)
    · exact .inr (.inr ⟨more, rfl⟩)

/-- Digits, with a point among them or not, are a number. -/
theorem readNumber_of_digits {whole : List Char} {fraction? : Option (List Char)} {rest : List Char}
    (digits : ∀ c ∈ whole ++ fraction?.getD [], c.isDigit = true) (nonempty : whole ≠ [])
    (ends : Ends rest) :
    readNumber (whole ++ (fraction?.map ('.' :: ·)).getD [] ++ rest) =
      (.number (String.ofList (whole ++ (fraction?.map ('.' :: ·)).getD [])) false, rest) := by
  have wholeDigits : ∀ c ∈ whole, c.isDigit = true := fun c mem => digits c (by simp [mem])
  have point (more : List Char) : (whole ++ more == ['.']) = false := by
    obtain ⟨c, cs, rfl⟩ := List.exists_cons_of_ne_nil nonempty
    rw [beq_eq_false_iff_ne]
    intro same
    obtain ⟨rfl, -⟩ := List.cons.inj same
    exact absurd (wholeDigits '.' (by simp)) (by decide)
  have stop : Decimal.NoDigit rest := by
    intro c first
    rcases ends c first with rfl | rfl <;> rfl
  unfold readNumber
  cases fraction? with
  | none =>
    obtain ⟨taken, dropped⟩ := Decimal.span_digits wholeDigits stop
    have plain := point []
    rw [List.append_nil] at plain
    simp only [Option.map_none, Option.getD_none, List.append_nil, taken, dropped]
    rcases ends.forms with rfl | ⟨more, rfl⟩ | ⟨more, rfl⟩ <;>
      simp [readExponent?, plain]
  | some cs =>
    have fractionDigits : ∀ c ∈ cs, c.isDigit = true := fun c mem => digits c (by simp [mem])
    have point_ : Decimal.NoDigit ('.' :: (cs ++ rest)) := by
      rintro c ⟨⟩
      rfl
    obtain ⟨taken, dropped⟩ := Decimal.span_digits wholeDigits point_
    obtain ⟨taken', dropped'⟩ := Decimal.span_digits fractionDigits stop
    simp only [Option.map_some, Option.getD_some, List.append_assoc, List.cons_append, taken, dropped]
    rcases ends.forms with rfl | ⟨more, rfl⟩ | ⟨more, rfl⟩
    · rw [List.append_nil] at taken' dropped'
      simp [readExponent?, taken', dropped', point]
    · simp [readExponent?, taken', dropped', point]
    · simp [readExponent?, taken', dropped', point]

theorem spells_number {n : Decimal.Numeral} (bare : n.Bare) :
    Spells n.text.toList (.number n.text false) := by
  have chars : n.text.toList = n.whole ++ (n.fraction?.map ('.' :: ·)).getD [] := by
    simp [Decimal.Numeral.text, Decimal.Numeral.chars, Decimal.Numeral.unsigned, Decimal.signChars,
      bare.sign, bare.scale]
  obtain ⟨c, front, whole⟩ := List.exists_cons_of_ne_nil bare.whole
  refine ⟨c, front ++ (n.fraction?.map ('.' :: ·)).getD [], by rw [chars, whole]; rfl,
    fun rest ends => ?_⟩
  have number := readNumber_of_digits n.isDigit bare.whole ends
  rw [← chars, String.ofList_toList, chars, whole] at number
  rw [lexeme?_of_isDigit (n.isDigit c (by simp [whole])), ← List.cons_append, ← List.cons_append, number]
  rfl

/-! ## Tokens in a row -/

/-- Characters that are some tokens where the last one ends. -/
def Reads (cs : List Char) (ts : List Token) : Prop :=
  ∀ rest, Ends rest → ∀ steps gathered, (cs ++ rest).length ≤ steps → ∃ steps', rest.length ≤ steps' ∧
    scanWithin? steps (cs ++ rest) gathered = scanWithin? steps' rest (ts.reverse ++ gathered)

section Reads

variable {a b cs : List Char} {t : Token} {ts us : List Token}

theorem Spells.reads (h : Spells cs t) : Reads cs [t] := by
  obtain ⟨c, front, rfl, lexeme⟩ := h
  intro rest ends steps gathered enough
  cases steps with
  | zero => simp at enough
  | succ steps =>
    refine ⟨steps, by simp at enough; omega, ?_⟩
    rw [List.cons_append, scanWithin?, lexeme rest ends]
    rfl

theorem Reads.blank (ha : Reads a ts) (hb : Reads b us) : Reads (a ++ ' ' :: b) (ts ++ us) := by
  intro rest ends steps gathered enough
  rw [List.append_assoc, List.cons_append] at enough ⊢
  have ends' : Ends (' ' :: (b ++ rest)) := by
    rintro c ⟨⟩
    exact .inl rfl
  obtain ⟨steps, enough, first⟩ := ha _ ends' steps gathered enough
  rw [first]
  cases steps with
  | zero => simp at enough
  | succ steps =>
    obtain ⟨steps', enough', second⟩ :=
      hb rest ends steps (ts.reverse ++ gathered) (Nat.le_of_succ_le_succ enough)
    refine ⟨steps', enough', ?_⟩
    rw [List.reverse_append, List.append_assoc, ← second]
    rfl

/-- Parentheses need no blanks inside. -/
theorem Reads.grouped (h : Reads a ts) : Reads ('(' :: a ++ [')']) (Predicate.grouped ts) := by
  intro rest ends steps gathered enough
  have opening (more : List Char) : lexeme? '(' more = some (some (.symbol "("), more) := rfl
  have closing (more : List Char) : lexeme? ')' more = some (some (.symbol ")"), more) := rfl
  obtain ⟨k, rfl⟩ : ∃ k, steps = k + 1 := ⟨steps - 1, by simp at enough; omega⟩
  rw [List.append_assoc, List.cons_append] at enough ⊢
  obtain ⟨l, enough', inner⟩ := h (')' :: rest) (by rintro c ⟨⟩; exact .inr rfl) k
    (.symbol "(" :: gathered) (Nat.le_of_succ_le_succ enough)
  obtain ⟨l, rfl⟩ : ∃ l', l = l' + 1 := ⟨l - 1, by simp at enough'; omega⟩
  refine ⟨l, Nat.le_of_succ_le_succ enough', ?_⟩
  rw [scanWithin?, opening]
  dsimp only
  rw [List.singleton_append, inner, scanWithin?, closing]
  simp [Predicate.grouped]

theorem Reads.scan? {s : String} (h : Reads s.toList ts) : Token.scan? s = some ts := by
  obtain ⟨steps, -, all⟩ := h [] (by rintro c ⟨⟩) s.toList.length [] (by simp)
  rw [List.append_nil, List.append_nil] at all
  unfold Token.scan?
  rw [all]
  cases steps <;> simp [scanWithin?]

end Reads

/-! ## Displays -/

theorem spells_literal {v : Value} (unsigned : v.Unsigned)
    (unquoted : (Predicate.literal v).Unquoted) : Spells (Predicate.literalText v).toList v.token := by
  cases v with
  | null => exact spells_null
  | boolean b =>
    cases b with
    | true => exact spells_true
    | false => exact spells_false
  | integer i =>
    obtain ⟨k, natural⟩ := Int.eq_ofNat_of_zero_le unsigned
    obtain ⟨n, text, bare, -⟩ := Decimal.toString_eq_text k
    have shown : Predicate.literalText (.integer i) = n.text := by
      rw [text]
      exact congrArg ToString.toString natural
    rw [Value.token, show ToString.toString i.toInt = n.text from shown, shown]
    exact spells_number bare
  | real x =>
    change Spells (Decimal.plain x).toList _
    rw [Value.token]
    rcases unsigned with infinite | ⟨m, e, finite⟩
    · have shown : Decimal.plain x = "inf" := by
        simp [Decimal.plain, Decimal.Layout.write, infinite, Decimal.infinityText, Decimal.sign]
      have unbounded : ¬ x.isFinite = true := by
        rw [Binary64.isFinite_iff]
        rintro ⟨_, _, _, finite⟩
        cases infinite.symm.trans finite
      rw [if_neg unbounded, shown]
      exact spells_infinity
    · obtain ⟨n, text, bare, -⟩ := Decimal.plain_eq_text finite
      rw [if_pos (Binary64.isFinite_iff.2 ⟨_, _, _, finite⟩), ← text]
      exact spells_number bare
  | text s =>
    have shown : (Predicate.literalText (.text s)).toList = '\x27' :: s.toList ++ ['\x27'] := by
      simp [Predicate.literalText]
    rw [shown]
    exact spells_string unquoted

theorem reads_unary (op : UnaryOperator) : Reads op.symbol.toList op.tokens := by
  have is : Spells ['i', 's'] (.word "is" none) := .of_endings rfl (fun _ => rfl) fun _ => rfl
  have not : Spells ['n', 'o', 't'] (.word "not" none) := .of_endings rfl (fun _ => rfl) fun _ => rfl
  cases op with
  | opposite => exact (spells_binary .minus).reads
  | not => exact not.reads
  | isNull => exact is.reads.blank spells_null.reads
  | isNotNull => exact (is.reads.blank not.reads).blank spells_null.reads

theorem reads_toString {e : Predicate} (unsigned : e.Unsigned) (unquoted : e.Unquoted) :
    Reads e.toString.toList e.tokens := by
  induction e with
  | column name =>
    have shown : (Predicate.column name).toString.toList = '\x60' :: name.toList ++ ['\x60'] := by
      simp [Predicate.toString]
    rw [shown]
    exact (spells_name unquoted).reads
  | literal v => exact (spells_literal unsigned unquoted).reads
  | unary op operand ih =>
    have inner := (ih unsigned unquoted).grouped
    unfold Predicate.tokens Predicate.toString
    split
    · have shown : (s!"({operand.toString}) {op.symbol}").toList =
          '(' :: operand.toString.toList ++ [')'] ++ ' ' :: op.symbol.toList := by
        simp [toString]
      rw [shown]
      exact inner.blank (reads_unary op)
    · have shown : (s!"{op.symbol} ({operand.toString})").toList =
          op.symbol.toList ++ ' ' :: ('(' :: operand.toString.toList ++ [')']) := by
        simp [toString]
      rw [shown]
      exact (reads_unary op).blank inner
  | binary op left right ihl ihr =>
    have inner := (((ihl unsigned.1 unquoted.1).blank (spells_binary op).reads).blank
      (ihr unsigned.2 unquoted.2)).grouped
    have parts : (Predicate.binary op left right).tokens =
        Predicate.grouped (left.tokens ++ [op.token] ++ right.tokens) := by
      simp [Predicate.tokens]
    have shown : (Predicate.binary op left right).toString.toList = '(' ::
        (left.toString.toList ++ ' ' :: op.symbol.toList ++ ' ' :: right.toString.toList) ++ [')'] := by
      simp [Predicate.toString, toString]
    rw [shown, parts]
    exact inner

/-- **`scan_toString`**: a displayed predicate has the tokens of its parts. -/
theorem scan_toString {e : Predicate} (unsigned : e.Unsigned) (unquoted : e.Unquoted) :
    scan? e.toString = some e.tokens :=
  (reads_toString unsigned unquoted).scan?

end Token

end PrivateQuery
