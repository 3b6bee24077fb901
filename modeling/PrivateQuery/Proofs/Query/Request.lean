import PrivateQuery.Proofs.Binary64.Order
import PrivateQuery.Proofs.Json.Documents
import PrivateQuery.Proofs.Query.Wire

/-!
# Requests are read back

The document of a request is decoded as the request, and so is that of a request for its accuracy, if
JSON has its doubles. The texts of the documents are read as the requests, if each of these doubles is
read back (`parse_write`).
-/
namespace PrivateQuery

/-! ## Documents of requests -/

namespace Json

theorem writable_ofFloat {x : Float} (reads : ReadsBack x) : Writable (.ofFloat x) := by
  unfold ofFloat
  split
  · exact .real reads
  · exact .null

theorem writable_word (i : Int64) : Writable (.integer i.toInt) := by
  obtain ⟨low, high⟩ := Word.inRange_toInt i
  exact .integer low (by omega)

theorem writable_items {α : Type} {encode : α → Json} {items : List α}
    (writable : ∀ item ∈ items, Writable (encode item)) : Writable (.array (items.map encode)) :=
  .array (List.forall_mem_map.2 writable)

theorem writable_texts (texts : List String) : Writable (.array (texts.map .text)) :=
  writable_items fun text _ => .text text

end Json

open Json (Writable ReadsBack)

theorem Budget.writable_toJson {b : Budget} (reads : ∀ x ∈ b.doubles, ReadsBack x) :
    Writable b.toJson := by
  obtain ⟨epsilon, delta?⟩ := b
  have first := Json.writable_ofFloat (reads epsilon List.mem_cons_self)
  cases delta? with
  | none => exact .object (by simpa using first)
  | some delta =>
    have second := Json.writable_ofFloat (reads delta (by simp [doubles]))
    exact .object (by simpa using ⟨first, second⟩)

theorem Value.writable_toJson {v : Value} (reads : ∀ x ∈ v.doubles, ReadsBack x) :
    Writable v.toJson := by
  cases v with
  | null => exact .null
  | boolean b => exact .boolean b
  | integer i => exact Json.writable_word i
  | real x => exact Json.writable_ofFloat (reads x (by simp [doubles]))
  | text s => exact .text s

theorem Step.writable_toJson {s : Step} (reads : ∀ x ∈ s.doubles, ReadsBack x) :
    Writable s.toJson := by
  have measure (m : Measure) : Writable (measureJson m) := by
    obtain ⟨column, mechanism⟩ := m
    cases mechanism <;> exact .object (by simp [Mechanism.toJson, Writable.text])
  -- A step is an object of one member, so its content is what matters.
  have single {name : String} {content : Json} (writable : Writable content) :
      Writable (.object [(name, content)]) := .object (by simpa using writable)
  cases s with
  | select columns => exact single (Json.writable_texts columns)
  | filter predicates => exact single (Json.writable_texts predicates)
  | rename mapping => exact single (.object (List.forall_mem_map.2 fun entry _ => .text entry.2))
  | bin b =>
    refine single (single (Json.writable_items fun v mem => Value.writable_toJson fun x own => ?_))
    exact reads x (List.mem_flatMap.2 ⟨v, mem, own⟩)
  | count m => exact single (measure m)
  | sum m => exact single (measure m)

theorem ColumnType.writable_toJson {type : ColumnType} (reads : ∀ x ∈ type.doubles, ReadsBack x) :
    Writable type.toJson := by
  cases type with
  | int low high =>
    exact .object (by simp [Json.writable_word, Writable.text])
  | double low high =>
    have first := Json.writable_ofFloat (reads low (by simp [doubles]))
    have second := Json.writable_ofFloat (reads high (by simp [doubles]))
    exact .object (by simp [first, second, Writable.text])
  | labelled labels => exact .object (by simp [Json.writable_texts, Writable.text])
  | bool => exact .object (by simp [Writable.text])
  | text => exact .object (by simp [Writable.text])

theorem Request.writable_members {r : Request} (word : r.dataset < 18446744073709551616)
    (reads : ∀ x ∈ r.doubles, ReadsBack x) : ∀ member ∈ r.members, Writable member.2 := by
  simp only [doubles, List.mem_append] at reads
  have budget := Budget.writable_toJson fun x mem => reads x (.inl (.inl mem))
  have steps : Writable (.array (r.steps.map Step.toJson)) :=
    Json.writable_items fun s mem => Step.writable_toJson fun x own =>
      reads x (.inl (.inr (List.mem_flatMap.2 ⟨s, mem, own⟩)))
  have dataset : Writable (.integer r.dataset) := .integer (by omega) (by omega)
  have columns : Writable (.array (r.columns.map Column.toJson)) := by
    refine Json.writable_items fun c mem => ?_
    have type := ColumnType.writable_toJson fun x own =>
      reads x (.inr (List.mem_flatMap.2 ⟨c, mem, own⟩))
    exact .object (by simp [type, Writable.text])
  simp [members, budget, steps, dataset, columns, Notion.toJson, Writable.text]

/-! ## Requests -/

theorem Request.parse_toJson {r : Request} (word : r.dataset < 18446744073709551616)
    (finite : ∀ x ∈ r.doubles, x.isFinite = true) (reads : ∀ x ∈ r.doubles, ReadsBack x) :
    Request.parse (Json.write r.toJson) = .ok r := by
  have whole : Writable r.toJson := .object (Request.writable_members word reads)
  rw [parse, Json.read?_write whole, Option.bind_some, Request.decode_toJson finite]
  exact RawRequest.toRequest_ofRequest r

theorem isConfidence_iff {x : Float} : isConfidence x = true ↔
    Binary64.IsFinite x ∧ 0 < Binary64.place x ∧ Binary64.place x < 1 := by
  rw [isConfidence, Bool.and_eq_true, decide_eq_true_eq, decide_eq_true_eq, Binary64.lt_iff,
    Binary64.lt_iff, Binary64.place_zero, Binary64.place_one]
  constructor
  · rintro ⟨⟨zero, number, pos⟩, -, one, less⟩
    have below : Binary64.place x ≤ Binary64.place 1 := less.le.trans_eq Binary64.place_one.symm
    exact ⟨number.isFinite_of_le pos.le below Binary64.isFinite_one, pos, less⟩
  · rintro ⟨finite, pos, less⟩
    exact ⟨⟨Binary64.isFinite_zero.isNumber, finite.isNumber, pos⟩, finite.isNumber,
      Binary64.isFinite_one.isNumber, less⟩

theorem AccuracyRequest.parse_toJson {a : AccuracyRequest}
    (word : a.query.dataset < 18446744073709551616)
    (finite : ∀ x ∈ a.query.doubles, x.isFinite = true)
    (reads : ∀ x ∈ a.query.doubles, ReadsBack x) (known : ReadsBack a.confidence) :
    AccuracyRequest.parse (Json.write a.toJson) = .ok a := by
  have legal := a.isConfidence_confidence
  have last := Json.writable_ofFloat known
  have whole : Writable a.toJson := by
    refine .object fun member mem => ?_
    rcases List.mem_append.1 mem with mem | mem
    · exact Request.writable_members word reads member mem
    · rw [List.mem_singleton.1 mem]
      exact last
  rw [parse, Json.read?_write whole, Option.bind_some,
    AccuracyRequest.decode_toJson finite (Binary64.isFinite_iff.2 (isConfidence_iff.1 legal).1)]
  simp only [RawRequest.toRequest_ofRequest, ofRequest, bind, Except.bind]
  rw [dif_pos legal]

/-- **`parse_write`**: the document of a request whose doubles are finite is decoded as the request, and
as the same request with its confidence if there is one. So are the texts of these documents, when each
of the doubles is read back from its text. -/
theorem parse_write (r : Request) (finite : ∀ x ∈ r.doubles, x.isFinite = true) :
    (∃ raw, RawRequest.decode .outermost r.toJson = some raw ∧ raw.toRequest = .ok r) ∧
    (∀ (c : Float) (legal : isConfidence c = true), ∃ raw,
      AccuracyRequest.decode .outermost (AccuracyRequest.toJson ⟨r, c, legal⟩) = some (raw, c) ∧
        raw.toRequest = .ok r ∧ AccuracyRequest.ofRequest r c = .ok ⟨r, c, legal⟩) ∧
    (r.dataset < 18446744073709551616 → (∀ x ∈ r.doubles, ReadsBack x) →
      Request.parse (Json.write r.toJson) = .ok r ∧
        ∀ (c : Float) (legal : isConfidence c = true), ReadsBack c →
          AccuracyRequest.parse (Json.write (AccuracyRequest.toJson ⟨r, c, legal⟩)) =
            .ok ⟨r, c, legal⟩) := by
  refine ⟨⟨_, Request.decode_toJson finite, RawRequest.toRequest_ofRequest r⟩, fun c legal => ?_,
    fun word reads => ⟨Request.parse_toJson word finite reads, fun _ _ known =>
      AccuracyRequest.parse_toJson word finite reads known⟩⟩
  have known : c.isFinite = true := Binary64.isFinite_iff.2 (isConfidence_iff.1 legal).1
  exact ⟨_, AccuracyRequest.decode_toJson finite known, RawRequest.toRequest_ofRequest r,
    dif_pos legal⟩

/-- A request with values of every kind. -/
def Request.assorted : Request where
  budget := ⟨0.5, some 0⟩
  steps := [.select [], .filter ["job == \"a\\b\""], .rename (.ofList []),
    .rename (.ofList [("age", "années"), ("", "\n")]),
    .bin ⟨"x", [.real 2, .real (-0.0), .real 1e300, .integer (-9223372036854775808), .null,
      .boolean true, .text "\x07"]⟩,
    .count ⟨"x", .laplace⟩, .sum ⟨"income", .gaussian⟩]
  notion := .approxDP
  dataset := 18446744073709551615
  columns := [⟨"age", .int (-9223372036854775808) 9223372036854775807⟩,
    ⟨"income", .double (-1e-5) 123456.75⟩, ⟨"job", .labelled []⟩, ⟨"married", .bool⟩, ⟨"x", .text⟩]

theorem parse_write_assorted :
    (∀ x ∈ Request.assorted.doubles, x.isFinite = true) ∧
      (∃ raw, RawRequest.decode .outermost Request.assorted.toJson = some raw ∧
        raw.toRequest = .ok Request.assorted) ∧
      Request.assorted.dataset < 18446744073709551616 ∧
      (∀ x ∈ Request.assorted.doubles, ReadsBack x) ∧
      Request.parse (Json.write Request.assorted.toJson) = .ok Request.assorted ∧
      ∃ legal : isConfidence 0.95 = true, ReadsBack 0.95 ∧
        AccuracyRequest.parse
            (Json.write (AccuracyRequest.toJson ⟨Request.assorted, 0.95, legal⟩)) =
          .ok ⟨Request.assorted, 0.95, legal⟩ := by
  have word : Request.assorted.dataset < 18446744073709551616 := by decide
  have finite : ∀ x ∈ Request.assorted.doubles, x.isFinite = true := by decide +kernel
  have reads : ∀ x ∈ Request.assorted.doubles, ReadsBack x := by decide +kernel
  have legal : isConfidence 0.95 = true := by decide +kernel
  have known : ReadsBack 0.95 := by decide +kernel
  obtain ⟨decoded, -, texts⟩ := parse_write Request.assorted finite
  obtain ⟨query, accuracy⟩ := texts word reads
  exact ⟨finite, decoded, word, reads, query, legal, known, accuracy 0.95 legal known⟩

end PrivateQuery
