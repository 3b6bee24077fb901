import PrivateQuery.Proofs.Outcome
import PrivateQuery.Query.RawStep

/-!
# Steps and their records

A record makes a step when exactly one of its fields is set, the field belongs to a supported
operation and nothing is missing in it. Then it is the record of that step (`toStep_eq_ok_iff`), so
that steps and the records that make one are in bijection (`toStep_bijective`).
-/
namespace PrivateQuery.RawStep

/-! ## Fields -/

inductive Field where
  | select
  | filter
  | rename
  | map
  | bin
  | count
  | min
  | max
  | sum
  | mean
  | groupby
deriving DecidableEq

namespace Field

def all : List Field := [select, filter, rename, map, bin, count, min, max, sum, mean, groupby]

def name : Field → String
  | select => "select"
  | filter => "filter"
  | rename => "rename"
  | map => "map"
  | bin => "bin"
  | count => "count"
  | min => "min"
  | max => "max"
  | sum => "sum"
  | mean => "mean"
  | groupby => "groupby"

/-- Whether there are steps of the operation. -/
def isSupported : Field → Bool
  | select | filter | rename | bin | count | sum => true
  | map | min | max | mean | groupby => false

end Field

variable {r : RawStep} {f : Field} {s : Step}

def isSet (r : RawStep) : Field → Bool
  | .select => r.select.isSome
  | .filter => r.filter.isSome
  | .rename => r.rename.isSome
  | .map => r.map.isSome
  | .bin => r.bin.isSome
  | .count => r.count.isSome
  | .min => r.min.isSome
  | .max => r.max.isSome
  | .sum => r.sum.isSome
  | .mean => r.mean.isSome
  | .groupby => r.groupby.isSome

/-- A field is set and no other is. -/
def SetsOnly (r : RawStep) (f : Field) : Prop := ∀ g, r.isSet g = true ↔ g = f

/-- Both parts of a measure are there. -/
def HasBoth (m : RawMeasure) : Prop := m.column.isSome = true ∧ m.mechanism.isSome = true

/-- Nothing is missing in what is set: a bin has one column, and a measure both of its parts. -/
structure IsComplete (r : RawStep) : Prop where
  bin : ∀ bin, r.bin = some bin → bin.entries.length = 1
  count : ∀ measure, r.count = some measure → HasBoth measure
  sum : ∀ measure, r.sum = some measure → HasBoth measure

theorem operations_eq (r : RawStep) :
    r.operations = (Field.all.filter r.isSet).map Field.name := by
  have pairs : r.operations =
      ((Field.all.map fun f => (f.name, r.isSet f)).filter Prod.snd).map Prod.fst := rfl
  rw [pairs, List.filter_map, List.map_map]
  rfl

theorem setsOnly_of_operations {name : String} (single : r.operations = [name]) :
    ∃ f, r.SetsOnly f := by
  rw [operations_eq] at single
  obtain ⟨f, one, -⟩ := List.map_eq_singleton_iff.1 single
  refine ⟨f, fun g => ?_⟩
  have listed : g ∈ Field.all := by cases g <;> decide
  have set : g ∈ Field.all.filter r.isSet ↔ r.isSet g = true :=
    List.mem_filter.trans (and_iff_right listed)
  rw [← set, one, List.mem_singleton]

theorem forall_field {p : Field → Prop} :
    (∀ f, p f) ↔ p .select ∧ p .filter ∧ p .rename ∧ p .map ∧ p .bin ∧ p .count ∧ p .min ∧ p .max ∧
      p .sum ∧ p .mean ∧ p .groupby := by
  constructor
  · intro all
    simp [all]
  · rintro ⟨_, _, _, _, _, _, _, _, _, _, _⟩ f
    cases f <;> assumption

/-- The records that set one field. -/
inductive Sets : RawStep → Field → Prop where
  | select (columns : List String) : Sets { blank with select := some columns } .select
  | filter (predicates : List String) : Sets { blank with filter := some predicates } .filter
  | rename (mapping : Dictionary String) : Sets { blank with rename := some mapping } .rename
  | map (content : Json) : Sets { blank with map := some content } .map
  | bin (bin : Dictionary (List Value)) : Sets { blank with bin := some bin } .bin
  | count (measure : RawMeasure) : Sets { blank with count := some measure } .count
  | min (content : Json) : Sets { blank with min := some content } .min
  | max (content : Json) : Sets { blank with max := some content } .max
  | sum (measure : RawMeasure) : Sets { blank with sum := some measure } .sum
  | mean (content : Json) : Sets { blank with mean := some content } .mean
  | groupby (content : Json) : Sets { blank with groupby := some content } .groupby

theorem Sets.setsOnly (sets : r.Sets f) : r.SetsOnly f := by
  intro g
  cases sets <;> cases g <;> simp [isSet, blank]

theorem sets_of_setsOnly (only : r.SetsOnly f) : r.Sets f := by
  obtain ⟨select, filter, rename, map, bin, count, min, max, sum, mean, groupby⟩ := r
  rw [SetsOnly, forall_field] at only
  cases f <;>
    simp only [isSet, reduceCtorEq, iff_false, iff_true, Option.not_isSome_iff_eq_none] at only <;>
    obtain ⟨_, _, _, _, _, _, _, _, _, _, _⟩ := only <;>
    subst_vars <;>
    obtain ⟨content, rfl⟩ := Option.isSome_iff_exists.1 (by assumption) <;>
    constructor

/-! ## Contents -/

theorem toMeasure_eq_ok_iff {raw : RawMeasure} {m : Measure} :
    raw.toMeasure = .ok m ↔ RawMeasure.ofMeasure m = raw := by
  obtain ⟨column, mechanism⟩ := m
  obtain ⟨_ | _, _ | _⟩ := raw <;> simp [RawMeasure.toMeasure, RawMeasure.ofMeasure, eq_comm]

theorem hasBoth_iff {raw : RawMeasure} : HasBoth raw ↔ ∃ m, RawMeasure.ofMeasure m = raw := by
  obtain ⟨_ | column, _ | mechanism⟩ := raw <;> simp [HasBoth, RawMeasure.ofMeasure]
  exact ⟨⟨column, mechanism⟩, rfl, rfl⟩

/-- A bin of one column is the dictionary with one entry. -/
theorem toBin_eq_ok_iff {bin : Dictionary (List Value)} {b : Bin} :
    toBin bin = .ok b ↔ Dictionary.empty.insert b.column b.values = bin := by
  have entries : Dictionary.empty.insert b.column b.values = bin ↔
      [(b.column, b.values)] = bin.entries :=
    ⟨fun same => congrArg Dictionary.entries same, fun same => Dictionary.ext same⟩
  rw [entries, toBin]
  obtain ⟨column, values⟩ := b
  rcases bin.entries with _ | ⟨⟨column', values'⟩, _ | ⟨second, rest⟩⟩ <;> simp [eq_comm]

theorem length_eq_one_iff {bin : Dictionary (List Value)} :
    bin.entries.length = 1 ↔ ∃ b : Bin, Dictionary.empty.insert b.column b.values = bin := by
  constructor
  · intro single
    obtain ⟨⟨column, values⟩, one⟩ := List.length_eq_one_iff.1 single
    exact ⟨⟨column, values⟩, Dictionary.ext one.symm⟩
  · rintro ⟨b, rfl⟩
    rfl

/-! ## Steps -/

/-- A record that does not set exactly one field has the wrong form. -/
theorem setsOnly_or_refused (r : RawStep) :
    (∃ f, r.SetsOnly f) ∨ ∃ cause, r.toStep = .error (.form cause) := by
  rcases operations : r.operations with _ | ⟨name, _ | ⟨second, rest⟩⟩
  · exact .inr ⟨.noOperation, by simp [toStep, operations]⟩
  · exact .inl (setsOnly_of_operations operations)
  · exact .inr ⟨.severalOperations (name :: second :: rest), by simp [toStep, operations]⟩

theorem toStep_ofStep (s : Step) : (ofStep s).toStep = .ok s := by
  cases s <;> rfl

/-- **`toStep_eq_ok_iff`**: the record of a step is the only one that makes it. -/
theorem toStep_eq_ok_iff : r.toStep = .ok s ↔ ofStep s = r := by
  refine ⟨fun made => ?_, fun same => same ▸ toStep_ofStep s⟩
  rcases setsOnly_or_refused r with ⟨f, only⟩ | ⟨cause, refused⟩
  · cases sets_of_setsOnly only with
    | select columns | filter predicates | rename mapping =>
      cases made
      rfl
    | bin bin =>
      obtain ⟨b, complete, rfl⟩ := map_eq_ok.1 (mapError_eq_ok.1 made)
      rw [ofStep, toBin_eq_ok_iff.1 complete]
    | count measure | sum measure =>
      obtain ⟨m, complete, rfl⟩ := map_eq_ok.1 (mapError_eq_ok.1 made)
      rw [ofStep, toMeasure_eq_ok_iff.1 complete]
    | map content | min content | max content | mean content | groupby content => cases made
  · cases refused.symm.trans made

/-- The records of steps are those with one complete field of a supported operation. -/
theorem exists_ofStep_iff :
    (∃ s, ofStep s = r) ↔ ∃ f, r.SetsOnly f ∧ f.isSupported = true ∧ r.IsComplete := by
  constructor
  · rintro ⟨s, rfl⟩
    cases s with
    | select columns => exact ⟨.select, (Sets.select columns).setsOnly, rfl, nofun, nofun, nofun⟩
    | filter predicates =>
      exact ⟨.filter, (Sets.filter predicates).setsOnly, rfl, nofun, nofun, nofun⟩
    | rename mapping => exact ⟨.rename, (Sets.rename mapping).setsOnly, rfl, nofun, nofun, nofun⟩
    | bin b =>
      refine ⟨.bin, (Sets.bin _).setsOnly, rfl, fun bin held => ?_, nofun, nofun⟩
      exact length_eq_one_iff.2 ⟨b, Option.some.inj held⟩
    | count m =>
      refine ⟨.count, (Sets.count _).setsOnly, rfl, nofun, fun measure held => ?_, nofun⟩
      exact hasBoth_iff.2 ⟨m, Option.some.inj held⟩
    | sum m =>
      refine ⟨.sum, (Sets.sum _).setsOnly, rfl, nofun, nofun, fun measure held => ?_⟩
      exact hasBoth_iff.2 ⟨m, Option.some.inj held⟩
  · rintro ⟨f, only, supported, complete⟩
    cases sets_of_setsOnly only with
    | select columns => exact ⟨.select columns, rfl⟩
    | filter predicates => exact ⟨.filter predicates, rfl⟩
    | rename mapping => exact ⟨.rename mapping, rfl⟩
    | bin bin =>
      obtain ⟨b, rfl⟩ := length_eq_one_iff.1 (complete.bin bin rfl)
      exact ⟨.bin b, rfl⟩
    | count measure =>
      obtain ⟨m, rfl⟩ := hasBoth_iff.1 (complete.count measure rfl)
      exact ⟨.count m, rfl⟩
    | sum measure =>
      obtain ⟨m, rfl⟩ := hasBoth_iff.1 (complete.sum measure rfl)
      exact ⟨.sum m, rfl⟩
    | map content | min content | max content | mean content | groupby content =>
      simp [Field.isSupported] at supported

/-- A record that sets the field of an operation without steps is refused with its name. -/
theorem toStep_of_unsupported (only : r.SetsOnly f) (unsupported : f.isSupported = false) :
    r.toStep = .error (.scope (.operation f.name)) := by
  cases sets_of_setsOnly only with
  | map content | min content | max content | mean content | groupby content => rfl
  | _ => simp [Field.isSupported] at unsupported

theorem form_of_mapError {α : Type} {x : Except FormError α} {e : QueryError}
    (refused : x.mapError QueryError.form = .error e) : ∃ cause, e = .form cause := by
  cases x with
  | ok a => simp at refused
  | error cause =>
    cases refused
    exact ⟨cause, rfl⟩

/-- Every other record that makes no step has the wrong form. -/
theorem form_of_supported {e : QueryError} (supported : ∀ f, r.SetsOnly f → f.isSupported = true)
    (refused : r.toStep = .error e) : ∃ cause, e = .form cause := by
  obtain ⟨f, only⟩ | ⟨cause, misshapen⟩ := setsOnly_or_refused r
  · have known := supported f only
    cases sets_of_setsOnly only with
    | select columns | filter predicates | rename mapping => cases refused
    | bin bin => exact form_of_mapError refused
    | count measure | sum measure => exact form_of_mapError refused
    | map content | min content | max content | mean content | groupby content =>
      simp [Field.isSupported] at known
  · rw [misshapen] at refused
    cases refused
    exact ⟨cause, rfl⟩

/-- **`toStep_bijective`**: steps and the records that make one are in bijection. A record makes a step
when it sets exactly one field, the field is that of a supported operation and it is complete. If it
sets only the field of another operation it is refused as unsupported, and in all other cases for its
form. -/
theorem toStep_bijective :
    (∀ s, (ofStep s).toStep = .ok s) ∧
    ∀ r : RawStep,
      ((∃ s, r.toStep = .ok s) ↔ ∃ f, r.SetsOnly f ∧ f.isSupported = true ∧ r.IsComplete) ∧
      (∀ s, r.toStep = .ok s → ofStep s = r) ∧
      ∀ e, r.toStep = .error e →
        ((∃ f, r.SetsOnly f ∧ f.isSupported = false) → e.kind = "UnsupportedError") ∧
        ((¬ ∃ f, r.SetsOnly f ∧ f.isSupported = false) → e.kind = "FormatError") := by
  refine ⟨toStep_ofStep, fun r => ⟨?_, fun s => toStep_eq_ok_iff.1, fun e refused => ⟨?_, ?_⟩⟩⟩
  · simp only [toStep_eq_ok_iff, exists_ofStep_iff]
  · rintro ⟨f, only, unsupported⟩
    rw [toStep_of_unsupported only unsupported] at refused
    cases refused
    rfl
  · intro otherwise
    have supported (f : Field) (only : r.SetsOnly f) : f.isSupported = true := by
      simpa using fun unsupported => otherwise ⟨f, only, unsupported⟩
    obtain ⟨cause, rfl⟩ := form_of_supported supported refused
    rfl

end PrivateQuery.RawStep
