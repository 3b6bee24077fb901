import PrivateQuery.Proofs.Json.Documents
import PrivateQuery.Proofs.Pipeline.Counts
import PrivateQuery.Proofs.Pipeline.Evaluation
import Std.Data.String.ToInt

/-!
# Histograms as objects

A histogram is written as an object with the displays of its categories for keys. Displays of values
can coincide, as those of a word and of its digits do; those of the categories of a bin do not, because
these are of one kind and distinct (`Bin.Lists.displays`). So no entry of a histogram is lost when it
is written (`histogram_rendered`).
-/
namespace PrivateQuery

/-! ## Displays -/

/-- Distinct values that can be told apart by their displays have distinct displays. -/
theorem Value.Distinct.displays {values : List Value} (distinct : Value.Distinct values)
    (apart : ∀ v ∈ values, ∀ w ∈ values, v.toString = w.toString → v = w) :
    (values.map Value.toString).Nodup := by
  refine List.pairwise_map.2 (distinct.imp_of_mem fun {v w} memv memw differ same => ?_)
  obtain rfl := apart v memv w memw same
  rw [BEq.refl] at differ
  simp at differ

/-- The categories that a bin lists are told apart by their displays. -/
theorem Bin.Lists.toString_inj {most : Nat} {b : Bin} {type : ColumnType} {categories : List Value}
    (lists : b.Lists most type categories) :
    ∀ v ∈ categories, ∀ w ∈ categories, v.toString = w.toString → v = w := by
  have text (kind : ∀ v ∈ b.values, v.isText = true) :
      ∀ v ∈ b.values, ∀ w ∈ b.values, v.toString = w.toString → v = w := by
    intro v memv w memw same
    have kindv := kind v memv
    have kindw := kind w memw
    cases v <;> simp [Value.isText] at kindv
    cases w <;> simp [Value.isText] at kindw
    exact congrArg Value.text same
  cases lists with
  | words =>
    intro v memv w memw same
    obtain ⟨i, -, rfl⟩ := List.mem_map.1 memv
    obtain ⟨j, -, rfl⟩ := List.mem_map.1 memw
    exact congrArg Value.integer (Int64.toInt_inj.1 (Int.repr_inj.1 same))
  | booleans kind =>
    intro v memv w memw same
    have kindv := kind v memv
    have kindw := kind w memw
    cases v <;> simp [Value.isBoolean] at kindv
    cases w <;> simp [Value.isBoolean] at kindw
    rename_i p q
    cases p <;> cases q <;> simp [Value.toString] at same ⊢
  | texts kind => exact text kind
  | labels kind => exact text kind

/-- **`Bin.Lists.displays`**: distinct categories of a bin have distinct displays. -/
theorem Bin.Lists.displays {most : Nat} {b : Bin} {type : ColumnType} {categories : List Value}
    (lists : b.Lists most type categories) (distinct : Value.Distinct categories) :
    (categories.map Value.toString).Nodup :=
  Value.Distinct.displays distinct lists.toString_inj

/-! ## Histograms of a run -/

/-- Noise makes counts of counts only, each with the noise drawn for its place. -/
theorem Noise.counts_of_perturb {n : Noise} {raw : Aggregate} {attempts : Nat} {g : Generator}
    {noised : List Int64} (ended : ((n.perturb attempts raw).run g).1 = .ok (.counts noised)) :
    ∃ counts drawn, raw = .counts counts ∧
      ((drawMany (n.drawInteger attempts) counts.length).run g).1 = .ok drawn ∧
      noised = List.zipWith Word.addClamped counts drawn := by
  -- Whatever else is perturbed never ends as counts.
  have other {α : Type} {s : Sampler α} {result : α → Aggregate}
      (none : ∀ x, result x ≠ .counts noised)
      (ended : ((s >>= fun x => pure (result x)).run g).1 = .ok (.counts noised)) : False := by
    rw [run_map, map_eq_ok] at ended
    obtain ⟨x, -, same⟩ := ended
    exact none x same
  cases raw with
  | integer i =>
    cases kind : n.discrete <;> simp only [Noise.perturb, kind] at ended <;>
      exact (other (by simp) ended).elim
  | real x =>
    cases kind : n.discrete <;> simp only [Noise.perturb, kind] at ended <;>
      exact (other (by simp) ended).elim
  | counts counts =>
    cases kind : n.discrete with
    | false =>
      simp only [Noise.perturb, kind] at ended
      cases ended
    | true =>
      simp only [Noise.perturb, kind] at ended
      rw [run_map, map_eq_ok] at ended
      obtain ⟨all, perturbed, same⟩ := ended
      rw [n.perturbCounts_eq, run_map, map_eq_ok] at perturbed
      obtain ⟨drawn, many, rfl⟩ := perturbed
      cases same
      exact ⟨counts, drawn, rfl, many, rfl⟩

namespace Pipeline

variable {p : Pipeline} {frame : Frame} {attempts : Nat} {g : Generator}

theorem toRelease_histogram {aggregate : Aggregate} {entries : List (Value × Int64)}
    (released : p.toRelease aggregate = .ok (.histogram entries)) :
    ∃ categories counts, p.categories? = some categories ∧ aggregate = .counts counts ∧
      counts.length = categories.length ∧ entries = categories.zip counts := by
  unfold toRelease at released
  split at released
  · rename_i counts categories listed
    split at released
    · simp at released
    · rename_i fits
      cases released
      exact ⟨categories, counts, listed, rfl, not_not.1 fits, rfl⟩
  · simp at released
  · simp at released
  · simp at released

/-- A release is made of what the measurement gives on the projected frame. -/
theorem evaluate_eq_ok {evaluation : Evaluation}
    (ran : (p.evaluate attempts frame g).1 = .ok evaluation) :
    ∃ projected aggregate release, p.project frame = .ok projected ∧
      ((p.measurement.invoke attempts projected).run g).1 = .ok aggregate ∧
      p.toRelease aggregate = .ok release ∧ evaluation.entries = [(p.label, release)] := by
  rw [evaluate_eq, map_eq_ok] at ran
  obtain ⟨release, released, rfl⟩ := ran
  cases done : p.project frame with
  | error e =>
    rw [Pipeline.release, done] at released
    cases released
  | ok projected =>
    rw [release_eq done, bind_eq_ok] at released
    obtain ⟨aggregate, ended, made⟩ := released
    rw [Attempt.ofExcept_eq_ok, mapError_eq_ok] at made
    exact ⟨projected, aggregate, release, rfl, Attempt.mapError_eq_ok.1 ended, made, rfl⟩

end Pipeline

theorem Release.read?_histogram (entries : List (Value × Int64)) :
    Json.read? (Json.write (Release.histogram entries).toJson) =
      some (Release.histogram entries).toJson := by
  refine Json.read?_write (.object fun member mem => ?_)
  obtain ⟨entry, -, rfl⟩ := List.mem_map.1 mem
  obtain ⟨low, high⟩ := Word.inRange_toInt entry.2
  exact .integer low (by omega)

/-! ## Queries -/

/-- **`histogram_rendered`**: the object for a histogram that a compiled pipeline releases has one entry
a category, in their order, and its keys are distinct. Each entry carries the raw count of its place
with the noise that is drawn for that place, and with a library that chains the aggregations it is
given the raw counts are by these categories. The text of the object is read back with all entries. -/
theorem histogram_rendered (library : Library) (parameters : Parameters) (budget : Budget)
    (notion : Notion) (schema : Schema) (steps : List Step) (c : Course Assembly)
    (pipeline : Pipeline) (frame : Frame) (attempts : Nat) (g : Generator)
    (evaluation : Evaluation) (label : String) (entries : List (Value × Int64))
    (compiled : compile library parameters budget notion schema steps = .ok c)
    (built : c.pipeline = .ok pipeline)
    (ran : (pipeline.evaluate attempts frame g).1 = .ok evaluation)
    (released : (label, .histogram entries) ∈ evaluation.entries) :
    ∃ (categories : List Value) (projected : Frame) (raw drawn noised : List Int64),
      pipeline.categories? = some categories ∧ pipeline.project frame = .ok projected ∧
      pipeline.measurement.transformation.apply projected = .ok (.counts raw) ∧
      ((drawMany (pipeline.measurement.noise.drawInteger attempts) categories.length).run g).1 =
        .ok drawn ∧
      noised = List.zipWith Word.addClamped raw drawn ∧
      raw.length = categories.length ∧ noised.length = categories.length ∧
      (Release.histogram entries).toJson = .object
        ((categories.map Value.toString).zip (noised.map fun i => .integer i.toInt)) ∧
      (categories.map Value.toString).Nodup ∧
      Json.read? (Json.write (Release.histogram entries).toJson) =
        some (Release.histogram entries).toJson ∧
      (library.Chains → ∃ column,
        pipeline.measurement.transformation = .countBy column categories) := by
  obtain ⟨projected, aggregate, release, done, ended, made, single⟩ := Pipeline.evaluate_eq_ok ran
  rw [single, List.mem_singleton] at released
  cases released
  obtain ⟨categories, noised, listed, rfl, fits, rfl⟩ := Pipeline.toRelease_histogram made
  obtain ⟨working, measure, type, b, -, -, -, lists, distinct, found⟩ :=
    pipeline_categories compiled built listed
  unfold Measurement.invoke at ended
  cases applied : pipeline.measurement.transformation.apply projected with
  | error e =>
    rw [applied] at ended
    cases ended
  | ok aggregate =>
    rw [applied] at ended
    obtain ⟨raw, drawn, rfl, many, rfl⟩ := Noise.counts_of_perturb ended
    have each := length_of_drawMany many
    have same : raw.length = categories.length := by
      rw [← fits, List.length_zipWith, each, Nat.min_self]
    rw [same] at many
    refine ⟨categories, projected, raw, drawn, _, listed, done, applied, many, rfl, same, fits, ?_,
      lists.displays distinct, Release.read?_histogram _, fun chains => ⟨measure.column, ?_⟩⟩
    · rw [Release.toJson, List.zip_map]
      rfl
    · exact transformation_of_calibrated chains found

/-- The married and the others, in the order of the bins. -/
theorem histogram_rendered_married :
    ∃ c pipeline evaluation label entries,
      compile (.standard ⟨1e-9, 12, 65536, none⟩) .standard ⟨1, none⟩ .pureDP
        ⟨[⟨"married", .bool⟩], by decide⟩
        [.bin ⟨"married", [.boolean true, .boolean false]⟩, .count ⟨"married", .laplace⟩] =
          .ok c ∧
      c.pipeline = .ok pipeline ∧
      (pipeline.evaluate 1 ⟨["married"], [[.boolean true], [.null], [.boolean false]], by decide⟩
        (.ofSeed 1)).1 = .ok evaluation ∧
      (label, .histogram entries) ∈ evaluation.entries ∧
      ∃ i j : Int64, (Release.histogram entries).toJson =
        .object [("true", .integer i.toInt), ("false", .integer j.toInt)] := by
  have typed : Schema.typeOf ⟨[⟨"married", .bool⟩], by decide⟩ "married" = .ok .bool := by
    rw [← toOption_eq_some]
    decide +kernel
  have distinct : Value.allDistinct [.boolean true, .boolean false] = true :=
    Value.allDistinct_iff.2 (by decide)
  have checked : Transition.checkBins 65536 ⟨"married", [.boolean true, .boolean false]⟩ .bool =
      .ok () := by
    rw [← toOption_eq_some]
    decide +kernel
  have compatible : checkCompatibility ⟨1, none⟩ .pureDP .laplace = .ok () := by
    rw [← toOption_eq_some]
    decide +kernel
  have ran : (Assembly.calibrated (.standard ⟨1e-9, 12, 65536, none⟩) ⟨1, none⟩ .pureDP .laplace
      (.byCategories "married" [.boolean true, .boolean false])).toOption.any (fun measurement =>
        (Pipeline.evaluate ⟨[], measurement, "married", some [.boolean true, .boolean false], none⟩
          1 ⟨["married"], [[.boolean true], [.null], [.boolean false]], by decide⟩
          (.ofSeed 1)).1.toOption.any (·.entries.any (·.2.isHistogram))) = true := by
    decide +kernel
  obtain ⟨measurement, found, ran⟩ := (Option.any_eq_true _ _).1 ran
  obtain ⟨evaluation, ran, histogram⟩ := (Option.any_eq_true _ _).1 ran
  obtain ⟨⟨label, release⟩, released, histogram⟩ := List.any_eq_true.1 histogram
  rw [toOption_eq_some] at found ran
  cases release with
  | integer | real => simp [Release.isHistogram] at histogram
  | histogram entries =>
    have compiled : compile (.standard ⟨1e-9, 12, 65536, none⟩) .standard ⟨1, none⟩ .pureDP
        ⟨[⟨"married", .bool⟩], by decide⟩
        [.bin ⟨"married", [.boolean true, .boolean false]⟩, .count ⟨"married", .laplace⟩] =
        .ok ⟨⟨⟨[⟨"married", .bool⟩], by decide⟩, .noiseAdded⟩,
          ⟨[], some (.byCategories "married" [.boolean true, .boolean false]),
            some ⟨[], measurement, "married", some [.boolean true, .boolean false], none⟩⟩⟩ :=
      run_histogram_iff.2
        ⟨_, _, measurement, typed, distinct, checked, rfl, compatible, rfl, found, rfl⟩
    refine ⟨_, _, evaluation, label, entries, compiled, rfl, ran, released, ?_⟩
    obtain ⟨categories, -, -, -, noised, listed, -, -, -, -, -, each, written, -, -, -⟩ :=
      histogram_rendered _ _ _ _ _ _ _ _ _ _ _ _ _ _ compiled rfl ran released
    cases listed
    obtain ⟨i, j, rfl⟩ := List.length_eq_two.1 each
    exact ⟨i, j, written⟩

end PrivateQuery
