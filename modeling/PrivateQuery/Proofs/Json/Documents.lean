import PrivateQuery.Proofs.Json.Scalars

/-!
# Documents are read back

A document whose numbers are read back is read back as a whole (`read?_write`), by induction on the
document. The calls that this takes are bounded by the length of its text.
-/
namespace PrivateQuery.Json

/-- The documents that can be written: nothing is broken, integers have at most 64 bits, and doubles
are read back. -/
inductive Writable : Json → Prop where
  | null : Writable .null
  | boolean (b : Bool) : Writable (.boolean b)
  | integer {i : Int} (low : -9223372036854775808 ≤ i) (high : i < 18446744073709551616) :
    Writable (.integer i)
  | real {x : Float} (reads : ReadsBack x) : Writable (.real x)
  | text (s : String) : Writable (.text s)
  | array {items : List Json} (writable : ∀ item ∈ items, Writable item) : Writable (.array items)
  | object {members : List (String × Json)} (writable : ∀ member ∈ members, Writable member.2) :
    Writable (.object members)

/-- The text of a document is read as the document, whatever closes it. -/
def IsRead (document : Json) : Prop :=
  ∀ fuel rest, (write document).length ≤ fuel → Closes rest →
    readDocument? fuel ((write document).toList ++ rest) = some (document, rest)

theorem skipBlanks_of_ne {c : Char} {cs : List Char} (h : c ∉ [' ', '\n', '\r', '\t']) :
    skipBlanks (c :: cs) = c :: cs := by
  simp only [List.mem_cons, List.not_mem_nil, or_false, not_or] at h
  simp [skipBlanks, h]

theorem readDocument?_number {c : Char} (starts : c = '-' ∨ c.isDigit = true) (fuel : Nat)
    (cs : List Char) : readDocument? (fuel + 1) (c :: cs) = readNumber? (c :: cs) := by
  have other : ∀ d ∈ [' ', '\n', '\r', '\t', '[', '\x7b', '"', 'n', 't', 'f'], c ≠ d := by
    rintro d mem rfl
    have all : ∀ d ∈ [' ', '\n', '\r', '\t', '[', '\x7b', '"', 'n', 't', 'f'],
        ¬ (d = '-' ∨ d.isDigit = true) := by simp
    exact all c mem starts
  have kept : skipBlanks (c :: cs) = c :: cs := by
    refine skipBlanks_of_ne fun mem => ?_
    exact other c (List.mem_append_left ['[', '\x7b', '"', 'n', 't', 'f'] mem) rfl
  simp only [List.forall_mem_cons, List.not_mem_nil, false_imp_iff, implies_true] at other
  unfold readDocument?
  rw [kept]
  simp [other]

/-- There are as many calls left as the text has characters, so there is one left. -/
theorem fuel_of_text {text : String} {c : Char} {tail : List Char} {fuel : Nat}
    (h : text.toList = c :: tail) (enough : text.length ≤ fuel) :
    ∃ fuel', fuel = fuel' + 1 ∧ tail.length ≤ fuel' := by
  rw [← String.length_toList, h, List.length_cons] at enough
  exact ⟨fuel - 1, by omega, by omega⟩

theorem isRead_number {document : Json}
    (reads : readNumber? (write document).toList = some (document, [])) : IsRead document := by
  intro fuel rest enough closes
  obtain ⟨c, tail, text, starts⟩ := head_of_readNumber? (reads ▸ Option.some_ne_none _)
  obtain ⟨fuel, rfl, -⟩ := fuel_of_text text enough
  have number := local_readNumber? _ _ _ rest reads closes
  rw [text, List.cons_append] at number ⊢
  rw [readDocument?_number starts, number, List.nil_append]

theorem quote_append (s : String) (rest : List Char) :
    (quote s).toList ++ rest = '"' :: (s.toList.flatMap escape ++ '"' :: rest) := by
  simp [quote]

theorem isRead_text (s : String) : IsRead (.text s) := by
  intro fuel rest enough closes
  have text := quote_append s []
  rw [List.append_nil] at text
  obtain ⟨fuel, rfl, -⟩ := fuel_of_text (text : (write (.text s)).toList = _) enough
  rw [write, quote_append]
  unfold readDocument?
  rw [skipBlanks_of_ne (by decide)]
  simp [readString?_escapes, ofText]

theorem isRead_null : IsRead .null := by
  intro fuel rest enough closes
  have text : (write .null).toList = ['n', 'u', 'l', 'l'] := by decide
  obtain ⟨fuel, rfl, -⟩ := fuel_of_text text enough
  rw [text]
  rfl

theorem isRead_boolean (b : Bool) : IsRead (.boolean b) := by
  intro fuel rest enough closes
  cases b with
  | false =>
    have text : (write (.boolean false)).toList = ['f', 'a', 'l', 's', 'e'] := by decide
    obtain ⟨fuel, rfl, -⟩ := fuel_of_text text enough
    rw [text]
    rfl
  | true =>
    have text : (write (.boolean true)).toList = ['t', 'r', 'u', 'e'] := by decide
    obtain ⟨fuel, rfl, -⟩ := fuel_of_text text enough
    rw [text]
    rfl

/-! ## Arrays and objects -/

/-- Texts separated by commas. -/
def joined (texts : List String) : List Char := (",".intercalate texts).toList

theorem joined_singleton (text : String) : joined [text] = text.toList := by
  rw [joined, String.intercalate_singleton]

theorem joined_cons_cons (first second : String) (texts : List String) :
    joined (first :: second :: texts) = first.toList ++ ',' :: joined (second :: texts) := by
  simp [joined, String.intercalate_cons_cons]

theorem head_joined {text : String} {c : Char} {tail : List Char} (h : text.toList = c :: tail)
    (texts : List String) : ∃ tail', joined (text :: texts) = c :: tail' := by
  cases texts with
  | nil => exact ⟨tail, by rw [joined_singleton, h]⟩
  | cons second texts => exact ⟨_, by rw [joined_cons_cons, h, List.cons_append]⟩

theorem toList_write_array (items : List Json) :
    (write (.array items)).toList = '[' :: (joined (writeItems items) ++ [']']) := by
  rw [write, String.toList_append, String.toList_append]
  rfl

theorem toList_write_object (members : List (String × Json)) :
    (write (.object members)).toList = '\x7b' :: (joined (writeMembers members) ++ ['\x7d']) := by
  rw [write, String.toList_append, String.toList_append]
  rfl

theorem closes_cons {c : Char} (h : c ∈ [',', ']', '\x7d']) (rest : List Char) :
    Closes (c :: rest) := by
  rintro d ⟨⟩
  exact h

/-- The text of a document starts with neither a blank nor a closing bracket. -/
theorem head_write {document : Json} (writable : Writable document) :
    ∃ c tail, (write document).toList = c :: tail ∧ c ∉ [' ', '\n', '\r', '\t', ']'] := by
  have number {cs : List Char} (reads : readNumber? cs ≠ none) :
      ∃ c tail, cs = c :: tail ∧ c ∉ [' ', '\n', '\r', '\t', ']'] := by
    obtain ⟨c, tail, rfl, starts⟩ := head_of_readNumber? reads
    have all : ∀ d ∈ [' ', '\n', '\r', '\t', ']'], ¬ (d = '-' ∨ d.isDigit = true) := by simp
    exact ⟨c, tail, rfl, fun mem => all c mem starts⟩
  cases writable with
  | null => exact ⟨'n', ['u', 'l', 'l'], by decide, by decide⟩
  | boolean b =>
    cases b with
    | false => exact ⟨'f', ['a', 'l', 's', 'e'], by decide, by decide⟩
    | true => exact ⟨'t', ['r', 'u', 'e'], by decide, by decide⟩
  | integer low high => exact number (readNumber?_integer low high ▸ Option.some_ne_none _)
  | real reads => exact number (reads ▸ Option.some_ne_none _)
  | text s =>
    have text := quote_append s []
    rw [List.append_nil] at text
    exact ⟨_, _, text, by decide⟩
  | array writable => exact ⟨'[', _, toList_write_array _, by decide⟩
  | object writable => exact ⟨'\x7b', _, toList_write_object _, by decide⟩

/-- The items of an array are read one after the other. -/
theorem readItems?_write {items : List Json} (read : ∀ item ∈ items, IsRead item)
    (nonempty : items ≠ []) (gathered : List Json) (fuel : Nat) (rest : List Char)
    (enough : (joined (writeItems items)).length < fuel) :
    readItems? fuel (joined (writeItems items) ++ ']' :: rest) gathered =
      some (.array (gathered.reverse ++ items), rest) := by
  induction items generalizing gathered fuel with
  | nil => exact absurd rfl nonempty
  | cons item items ih =>
    obtain ⟨fuel, rfl⟩ : ∃ fuel', fuel = fuel' + 1 := ⟨fuel - 1, by omega⟩
    have first := read item List.mem_cons_self
    cases items with
    | nil =>
      rw [writeItems, writeItems, joined_singleton] at enough ⊢
      rw [String.length_toList] at enough
      rw [readItems?, first fuel (']' :: rest) (by omega) (closes_cons (by decide) rest)]
      simp [skipBlanks_of_ne]
    | cons second items =>
      rw [writeItems, writeItems, joined_cons_cons] at enough ⊢
      rw [List.length_append, List.length_cons, String.length_toList] at enough
      rw [List.append_assoc, List.cons_append, readItems?,
        first fuel _ (by omega) (closes_cons (by decide) _)]
      have others := ih (fun other mem => read other (List.mem_cons_of_mem _ mem)) (by simp)
        (item :: gathered) fuel (by rw [writeItems]; omega)
      rw [writeItems] at others
      simp [skipBlanks_of_ne, others]

theorem toList_member (key : String) (value : Json) (rest : List Char) :
    (quote key ++ ":" ++ write value).toList ++ rest =
      '"' :: (key.toList.flatMap escape ++ '"' :: ':' :: ((write value).toList ++ rest)) := by
  rw [String.toList_append, String.toList_append, List.append_assoc, List.append_assoc, quote_append]
  rfl

/-- A member in front of what is left, up to what follows it. -/
theorem readMembers?_step {key : String} {value : Json} (read : IsRead value) {c : Char}
    (closes : c ∈ [',', ']', '\x7d']) (gathered : List (Option String × Json)) (fuel : Nat)
    (rest : List Char) (enough : (write value).length ≤ fuel) :
    readMembers? (fuel + 1) ((quote key ++ ":" ++ write value).toList ++ c :: rest) gathered =
      if c = ',' then readMembers? fuel rest ((some key, value) :: gathered)
      else if c = '\x7d' then some (ofMembers ((some key, value) :: gathered).reverse, rest)
      else none := by
  have blank : skipBlanks (c :: rest) = c :: rest := by
    refine skipBlanks_of_ne fun mem => ?_
    have all : ∀ d ∈ [',', ']', '\x7d'], d ∉ [' ', '\n', '\r', '\t'] := by simp
    exact all c closes mem
  have colon : ':' ∉ [' ', '\n', '\r', '\t'] := by decide
  rw [toList_member, readMembers?, skipBlanks_of_ne (by decide)]
  simp only [readString?_escapes, skipBlanks_of_ne colon,
    read fuel (c :: rest) enough (closes_cons closes rest), blank]
  simp only [List.mem_cons, List.not_mem_nil, or_false] at closes
  rcases closes with rfl | rfl | rfl <;> rfl

theorem length_member (key : String) (value : Json) :
    (write value).length ≤ (quote key ++ ":" ++ write value).length := by
  simp

/-- The members of an object are read one after the other. -/
theorem readMembers?_write {members : List (String × Json)}
    (read : ∀ member ∈ members, IsRead member.2) (nonempty : members ≠ [])
    (gathered : List (Option String × Json)) (fuel : Nat) (rest : List Char)
    (enough : (joined (writeMembers members)).length < fuel) :
    readMembers? fuel (joined (writeMembers members) ++ '\x7d' :: rest) gathered =
      some (ofMembers (gathered.reverse ++ members.map fun member => (some member.1, member.2)),
        rest) := by
  induction members generalizing gathered fuel with
  | nil => exact absurd rfl nonempty
  | cons member members ih =>
    obtain ⟨fuel, rfl⟩ : ∃ fuel', fuel = fuel' + 1 := ⟨fuel - 1, by omega⟩
    obtain ⟨key, value⟩ := member
    have first : IsRead value := read (key, value) List.mem_cons_self
    cases members with
    | nil =>
      rw [writeMembers, writeMembers, joined_singleton] at enough ⊢
      rw [String.length_toList] at enough
      have fits := length_member key value
      rw [readMembers?_step first (by decide) gathered fuel rest (by omega)]
      simp
    | cons second members =>
      rw [writeMembers, writeMembers, joined_cons_cons] at enough ⊢
      rw [List.length_append, List.length_cons, String.length_toList] at enough
      have fits := length_member key value
      have others := ih (fun other mem => read other (List.mem_cons_of_mem _ mem)) (by simp)
        ((some key, value) :: gathered) fuel (by rw [writeMembers]; omega)
      rw [writeMembers] at others
      rw [List.append_assoc, List.cons_append,
        readMembers?_step first (by decide) gathered fuel _ (by omega), if_pos rfl, others]
      simp

theorem ofMembers_some (members : List (String × Json)) :
    ofMembers (members.map fun member => (some member.1, member.2)) = .object members := by
  have all : (members.map fun member => (some member.1, member.2)).mapM
      (fun member => member.1.map fun key => (key, member.2)) = some members := by
    induction members with
    | nil => rfl
    | cons member members ih => simp [ih]
  unfold ofMembers
  split
  · rename_i read
    cases read.symm.trans all
    rfl
  · rename_i failed
    cases failed.symm.trans all

theorem isRead_array {items : List Json} (writable : ∀ item ∈ items, Writable item)
    (read : ∀ item ∈ items, IsRead item) : IsRead (.array items) := by
  intro fuel rest enough closes
  obtain ⟨fuel, rfl, fits⟩ := fuel_of_text (toList_write_array items) enough
  rw [List.length_append, List.length_singleton] at fits
  rw [toList_write_array, List.cons_append, List.append_assoc, readDocument?,
    skipBlanks_of_ne (by decide)]
  cases items with
  | nil => rfl
  | cons item items =>
    have inside := readItems?_write read (by simp) [] fuel rest (by omega)
    obtain ⟨c, _, first, starts⟩ := head_write (writable item List.mem_cons_self)
    obtain ⟨tail, text⟩ := head_joined first (writeItems items)
    rw [writeItems, text] at inside ⊢
    have blank : c ∉ [' ', '\n', '\r', '\t'] := fun mem => starts (List.mem_append_left [']'] mem)
    have bracket : c ≠ ']' := by
      rintro rfl
      exact starts (by decide)
    simp only [List.cons_append, List.nil_append, skipBlanks_of_ne blank] at inside ⊢
    simpa [bracket] using inside

theorem isRead_object {members : List (String × Json)}
    (read : ∀ member ∈ members, IsRead member.2) : IsRead (.object members) := by
  intro fuel rest enough closes
  obtain ⟨fuel, rfl, fits⟩ := fuel_of_text (toList_write_object members) enough
  rw [List.length_append, List.length_singleton] at fits
  rw [toList_write_object, List.cons_append, List.append_assoc, readDocument?,
    skipBlanks_of_ne (by decide)]
  cases members with
  | nil => rfl
  | cons member members =>
    have inside := readMembers?_write read (by simp) [] fuel rest (by omega)
    rw [List.reverse_nil, List.nil_append, ofMembers_some] at inside
    obtain ⟨key, value⟩ := member
    have first := toList_member key value []
    rw [List.append_nil] at first
    obtain ⟨tail, text⟩ := head_joined first (writeMembers members)
    have blank : '"' ∉ [' ', '\n', '\r', '\t'] := by decide
    rw [writeMembers, text] at inside ⊢
    simp only [List.cons_append, List.nil_append, skipBlanks_of_ne blank] at inside ⊢
    simpa using inside

/-- **`isRead_of_writable`**: the text of a document that can be written is read as the document. -/
theorem isRead_of_writable {document : Json} (writable : Writable document) : IsRead document := by
  induction writable with
  | null => exact isRead_null
  | boolean b => exact isRead_boolean b
  | integer low high => exact isRead_number (readNumber?_integer low high)
  | real reads => exact isRead_number reads
  | text s => exact isRead_text s
  | array writable read => exact isRead_array writable read
  | object writable read => exact isRead_object read

/-- **`read?_write`**: a document that can be written is read back. -/
theorem read?_write {document : Json} (writable : Writable document) :
    read? (write document) = some document := by
  have closes : Closes [] := by
    rintro c ⟨⟩
  have whole := isRead_of_writable writable (2 * (write document).length + 2) [] (by omega) closes
  rw [List.append_nil] at whole
  rw [read?, whole]
  rfl

end PrivateQuery.Json
