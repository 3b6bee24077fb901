import PrivateQuery.Value.Basic

/-!
# Distinct values

The check that values are distinct goes through them once and asks of each whether it has been seen.
It passes exactly the lists of which no two values are the same (`allDistinct_iff`). The values that have
been seen are kept by their hashes, but whatever hash is made of the fingerprints the check says the
same (`allDistinctBy_iff`).
-/
namespace PrivateQuery.Value

/-- No two values of a list are the same. -/
def Distinct (values : List Value) : Prop := values.Pairwise fun v w => (v == w) = false

instance Distinct.decidable (values : List Value) : Decidable (Distinct values) :=
  inferInstanceAs (Decidable (values.Pairwise fun v w => (v == w) = false))

/-! ## The check under any hash -/

/-- The hash that a digest makes of fingerprints. -/
@[reducible] def hashableBy (digest : List UInt8 → UInt64) : Hashable Value :=
  ⟨fun v => digest v.fingerprint⟩

theorem lawful_hashableBy (digest : List UInt8 → UInt64) :
    @LawfulHashable Value _ (hashableBy digest) :=
  @LawfulHashable.mk Value _ (hashableBy digest) fun _ _ same =>
    congrArg digest (fingerprint_eq_of_same same)

/-- Whether no value of a list is among those seen or occurs twice, where the seen ones are kept by a
digest of their fingerprints. -/
def allNewBy (digest : List UInt8 → UInt64) :
    List Value → (seen : @Std.HashSet Value _ (hashableBy digest)) → Bool
  | [], _ => true
  | v :: rest, seen =>
    !@Std.HashSet.contains _ _ (hashableBy digest) seen v &&
      allNewBy digest rest (@Std.HashSet.insert _ _ (hashableBy digest) seen v)

/-- Whether no two values of a list are the same, by a digest of their fingerprints. -/
def allDistinctBy (digest : List UInt8 → UInt64) (values : List Value) : Bool :=
  allNewBy digest values (∅ : @Std.HashSet Value _ (hashableBy digest))

theorem allNewBy_iff {digest : List UInt8 → UInt64} {values : List Value}
    {seen : @Std.HashSet Value _ (hashableBy digest)} :
    allNewBy digest values seen = true ↔
      (∀ v ∈ values, @Std.HashSet.contains _ _ (hashableBy digest) seen v = false) ∧
        Distinct values := by
  let _ := hashableBy digest
  have := lawful_hashableBy digest
  induction values generalizing seen with
  | nil => simp [allNewBy, Distinct]
  | cons v rest ih =>
    simp only [allNewBy, Bool.and_eq_true, Bool.not_eq_eq_eq_not, Bool.not_true, ih,
      Std.HashSet.contains_insert, Bool.or_eq_false_iff, Distinct, List.pairwise_cons,
      List.forall_mem_cons]
    constructor
    · rintro ⟨first, others, distinct⟩
      exact ⟨⟨first, fun w mem => (others w mem).2⟩, fun w mem => (others w mem).1, distinct⟩
    · rintro ⟨⟨first, others⟩, apart, distinct⟩
      exact ⟨first, fun w mem => ⟨apart w mem, others w mem⟩, distinct⟩

/-- **`allDistinctBy_iff`**: by any digest the check passes exactly the lists of distinct values. -/
theorem allDistinctBy_iff {digest : List UInt8 → UInt64} {values : List Value} :
    allDistinctBy digest values = true ↔ Distinct values := by
  let _ := hashableBy digest
  have := lawful_hashableBy digest
  simp [allDistinctBy, allNewBy_iff]

/-- The check of the library is the one by its own hash. -/
theorem allNew_eq (values : List Value) (seen : Std.HashSet Value) :
    allNew values seen = allNewBy hash values seen := by
  induction values generalizing seen with
  | nil => rfl
  | cons v rest ih =>
    rw [allNew, ih]
    rfl

/-- **`allDistinct_iff`**: the check passes exactly the lists of distinct values. -/
theorem allDistinct_iff {values : List Value} : allDistinct values = true ↔ Distinct values := by
  rw [allDistinct, allNew_eq]
  exact allDistinctBy_iff

theorem Distinct.countP_le_one {values : List Value} (distinct : Distinct values) (v : Value) :
    values.countP (· == v) ≤ 1 := by
  induction values with
  | nil => simp
  | cons w rest ih =>
    obtain ⟨apart, rest'⟩ := List.pairwise_cons.1 distinct
    by_cases same : (w == v) = true
    · have none : rest.countP (· == v) = 0 := by
        rw [List.countP_eq_zero]
        intro w' mem same'
        have both : (w == w') = true := BEq.trans same (BEq.symm same')
        simp [apart w' mem] at both
      simp [same, none]
    · simpa [same] using ih rest'

end PrivateQuery.Value
