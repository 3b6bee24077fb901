import PrivateQuery.Proofs.Query.RawStep
import PrivateQuery.Query.Request

/-!
# Records are decoded as they are encoded

Budgets, steps and columns are decoded from the documents that they are encoded as, wherever the
document stands, and so are requests (`Request.decode_toJson`) and requests for an accuracy
(`AccuracyRequest.decode_toJson`). JSON has no numbers for infinities and for no number, so the doubles
inside have to be finite. A part that is held back whole is only decoded when its brackets do not nest
too deep; the documents of requests stay far below the limit.
-/
namespace PrivateQuery

/-! ## Lists and dictionaries -/

namespace Json.Decoder

variable {α β : Type} {decode : Json.Decoder α} {p : Json.Place} {encode : β → Json}

theorem list_map {make : β → α} {items : List β}
    (read : ∀ item ∈ items, decode p.inside (encode item) = some (make item)) :
    Json.Decoder.list decode p (.array (items.map encode)) = some (items.map make) := by
  have all : (items.map encode).mapM (decode p.inside) = some (items.map make) := by
    induction items with
    | nil => rfl
    | cons item items ih =>
      simp [read item List.mem_cons_self, ih fun other mem => read other (List.mem_cons_of_mem _ mem)]
  exact all

theorem list_self {encode : α → Json} {items : List α}
    (read : ∀ item ∈ items, decode p.inside (encode item) = some item) :
    Json.Decoder.list decode p (.array (items.map encode)) = some items := by
  have same := list_map read
  rwa [List.map_id'] at same

end Json.Decoder

namespace Json

variable {α : Type} {levels : Nat}

theorem readableItems_map {encode : α → Json} {items : List α}
    (readable : ∀ item ∈ items, (encode item).readable levels = true) :
    readableItems levels (items.map encode) = true := by
  induction items with
  | nil => rfl
  | cons item items ih =>
    simp [readableItems, readable item List.mem_cons_self,
      ih fun other mem => readable other (List.mem_cons_of_mem _ mem)]

theorem readableMembers_map {encode : α → String × Json} {members : List α}
    (readable : ∀ member ∈ members, (encode member).2.readable levels = true) :
    readableMembers levels (members.map encode) = true := by
  induction members with
  | nil => rfl
  | cons member members ih =>
    simp [readableMembers, readable member List.mem_cons_self,
      ih fun other mem => readable other (List.mem_cons_of_mem _ mem)]

theorem readable_ofFloat (x : Float) : (ofFloat x).readable levels = true := by
  unfold ofFloat
  split <;> rfl

end Json

namespace Dictionary

variable {α : Type}

theorem insertEntry_last {key : String} {value : α} {entries : List (String × α)}
    (above : ∀ e ∈ entries, e.1 < key) :
    insertEntry key value entries = entries ++ [(key, value)] := by
  induction entries with
  | nil => rfl
  | cons entry rest ih =>
    have first := above entry List.mem_cons_self
    have behind : ¬ key < entry.1 := String.lt_asymm first
    have apart : key ≠ entry.1 := by
      rintro rfl
      exact String.lt_irrefl _ first
    rw [insertEntry, if_neg behind, if_neg apart, ih fun e mem => above e (List.mem_cons_of_mem _ mem),
      List.cons_append]

theorem foldl_insert {d : Dictionary α} {entries : List (String × α)}
    (ascending : (d.entries ++ entries).Pairwise fun a b => a.1 < b.1) :
    (entries.foldl (fun d e => d.insert e.1 e.2) d).entries = d.entries ++ entries := by
  induction entries generalizing d with
  | nil => simp
  | cons e entries ih =>
    have last : (d.insert e.1 e.2).entries = d.entries ++ [e] := by
      refine insertEntry_last fun other mem => ?_
      exact (List.pairwise_append.1 ascending).2.2 other mem e List.mem_cons_self
    have split : d.entries ++ e :: entries = (d.insert e.1 e.2).entries ++ entries := by
      rw [last, List.append_assoc, List.singleton_append]
    rw [List.foldl_cons, ih (split ▸ ascending), split]

/-- **`ofList_entries`**: a dictionary is made again from its entries. -/
theorem ofList_entries (d : Dictionary α) : ofList d.entries = d :=
  ext (foldl_insert (d := empty) d.ascending)

end Dictionary

namespace Json.Decoder

variable {α : Type} {decode : Json.Decoder α} {p : Json.Place}

theorem dictionary_entries {encode : α → Json} {d : Dictionary α}
    (read : ∀ entry ∈ d.entries, decode p.inside (encode entry.2) = some entry.2) :
    Json.Decoder.dictionary decode p
      (.object (d.entries.map fun entry => (entry.1, encode entry.2))) = some d := by
  have all (entries : List (String × α))
      (read : ∀ entry ∈ entries, decode p.inside (encode entry.2) = some entry.2) :
      ((entries.map fun entry => (entry.1, encode entry.2)).mapM fun (member : String × Json) =>
        (decode p.inside member.2).map fun a => (member.1, a)) = some entries := by
    induction entries with
    | nil => rfl
    | cons entry entries ih =>
      simp [read entry List.mem_cons_self, ih fun other mem => read other (List.mem_cons_of_mem _ mem)]
  rw [Json.Decoder.dictionary, all d.entries read, Option.map_some, Dictionary.ofList_entries]

end Json.Decoder

/-! ## Steps -/

theorem Mechanism.decode_toJson (m : Mechanism) (p : Json.Place) :
    Mechanism.decode p m.toJson = some m := by
  cases m <;> rfl

theorem Notion.decode_toJson (n : Notion) (p : Json.Place) :
    Notion.decode p n.toJson = some n := by
  cases n <;> rfl

theorem RawMeasure.decode_measureJson (m : Measure) (p : Json.Place) :
    RawMeasure.decode p (Step.measureJson m) = some (.ofMeasure m) := by
  have column : Json.Decoder.text.optional p.inside (.text m.column) = some (some m.column) := rfl
  have mechanism : Mechanism.decode.optional p.inside m.mechanism.toJson =
      some (some m.mechanism) := by
    cases m.mechanism <;> rfl
  simp [RawMeasure.decode, Step.measureJson, Json.fieldsOf, Json.Fields.getD, List.lookup_cons,
    column, mechanism, RawMeasure.ofMeasure]

def Value.doubles : Value → List Float
  | .real x => [x]
  | _ => []

/-- The doubles of a step, which are among the values of a bin. -/
def Step.doubles : Step → List Float
  | .bin b => b.values.flatMap Value.doubles
  | _ => []

theorem Value.decode_of_finite {v : Value} (finite : ∀ x ∈ v.doubles, x.isFinite = true)
    (p : Json.Place) : Value.decode p v.toJson = some v :=
  decode_toJson (fun x real => finite x (by simp [real, doubles])) p

theorem Json.fieldsOf_single {names : List String} {name : String} (known : name ∈ names)
    (content : Json) : Json.fieldsOf names (.object [(name, content)]) = some [(name, content)] := by
  simp [Json.fieldsOf, known]

theorem Json.Fields.getD_single {α : Type} (name : String) (content : Json) (p : Json.Place)
    (decode : Json.Decoder α) (default : α) :
    Json.Fields.getD [(name, content)] p name decode default = decode p.inside content := by
  simp [Json.Fields.getD]

theorem Json.Fields.getD_other {α : Type} {name other : String} (apart : other ≠ name)
    (content : Json) (p : Json.Place) (decode : Json.Decoder α) (default : α) :
    Json.Fields.getD [(name, content)] p other decode default = some default := by
  simp [Json.Fields.getD, List.lookup_cons, beq_false_of_ne apart]

theorem RawStep.decode_eq {document : Json} {fields : Json.Fields} {p : Json.Place} {r : RawStep}
    (known : Json.fieldsOf (Field.all.map Field.name) document = some fields)
    (select : fields.getD p "select" Json.Decoder.text.list.optional none = some r.select)
    (filter : fields.getD p "filter" Json.Decoder.text.list.optional none = some r.filter)
    (rename : fields.getD p "rename" Json.Decoder.text.dictionary.optional none = some r.rename)
    (map : fields.getD p "map" Json.Decoder.anything.optional none = some r.map)
    (bin : fields.getD p "bin" Value.decode.list.dictionary.optional none = some r.bin)
    (count : fields.getD p "count" RawMeasure.decode.optional none = some r.count)
    (min : fields.getD p "min" Json.Decoder.anything.optional none = some r.min)
    (max : fields.getD p "max" Json.Decoder.anything.optional none = some r.max)
    (sum : fields.getD p "sum" RawMeasure.decode.optional none = some r.sum)
    (mean : fields.getD p "mean" Json.Decoder.anything.optional none = some r.mean)
    (groupby : fields.getD p "groupby" Json.Decoder.anything.optional none = some r.groupby) :
    decode p document = some r := by
  change (Json.fieldsOf (Field.all.map Field.name) document >>= _) = _
  rw [known]
  dsimp only [Option.bind_eq_bind, Option.bind_some]
  rw [select, filter, rename, map, bin, count, min, max, sum, mean, groupby]
  rfl

theorem Step.toJson_rename (mapping : Dictionary String) :
    (Step.rename mapping).toJson = .object [("rename",
      .object (mapping.entries.map fun entry => (entry.1, .text entry.2)))] := rfl

/-- **`RawStep.decode_toJson`**: the document of a step is decoded as its record. -/
theorem RawStep.decode_toJson {s : Step} (finite : ∀ x ∈ s.doubles, x.isFinite = true)
    (p : Json.Place) : RawStep.decode p s.toJson = some (ofStep s) := by
  have texts (l : List String) : Json.Decoder.text.list.optional p.inside (.array (l.map .text)) =
      some (some l) :=
    congrArg (Option.map some) (Json.Decoder.list_self fun text _ => rfl)
  have mappings (mapping : Dictionary String) : Json.Decoder.text.dictionary.optional p.inside
      (.object (mapping.entries.map fun entry => (entry.1, .text entry.2))) = some (some mapping) :=
    congrArg (Option.map some) (Json.Decoder.dictionary_entries fun entry _ => rfl)
  have measures (m : Measure) : RawMeasure.decode.optional p.inside (Step.measureJson m) =
      some (some (.ofMeasure m)) :=
    congrArg (Option.map some) (RawMeasure.decode_measureJson m p.inside)
  have known : s.name ∈ Field.all.map Field.name := by
    cases s <;> simp [Field.all, Field.name, Step.name]
  cases s with
  | bin b =>
    have values : Value.decode.list p.inside.inside (.array (b.values.map Value.toJson)) =
        some b.values :=
      Json.Decoder.list_self fun v mem =>
        Value.decode_of_finite (fun x own => finite x (List.mem_flatMap.2 ⟨v, mem, own⟩)) _
    have content : Value.decode.list.dictionary.optional p.inside
        (.object [(b.column, .array (b.values.map Value.toJson))]) =
        some (some (Dictionary.empty.insert b.column b.values)) := by
      simp [Json.Decoder.optional, Json.Decoder.dictionary, values, Dictionary.ofList]
    apply decode_eq (Json.fieldsOf_single known _) <;>
      simp (disch := decide) only [Step.name, Json.Fields.getD_single, Json.Fields.getD_other, content,
        ofStep, blank]
  | rename mapping =>
    rw [Step.toJson_rename]
    apply decode_eq (Json.fieldsOf_single known _) <;>
      simp (disch := decide) only [Step.name, Json.Fields.getD_single, Json.Fields.getD_other,
        mappings, ofStep, blank]
  | _ =>
    apply decode_eq (Json.fieldsOf_single known _) <;>
      simp (disch := decide) only [Step.name, Json.Fields.getD_single, Json.Fields.getD_other, texts,
        measures, ofStep, blank]

/-! ## Budgets and columns -/

def Budget.doubles (b : Budget) : List Float := b.epsilon :: b.delta?.toList

theorem Json.Decoder.float_ofFloat {x : Float} (finite : x.isFinite = true) (p : Json.Place) :
    Json.Decoder.float p (.ofFloat x) = some x := by
  simp [Json.ofFloat, finite, Json.Decoder.float]

/-- A `delta` of zero is told apart from one that is not given. -/
theorem Budget.decode_toJson {b : Budget} (finite : ∀ x ∈ b.doubles, x.isFinite = true)
    (p : Json.Place) : Budget.decode p b.toJson = some b := by
  obtain ⟨epsilon, delta?⟩ := b
  have first := Json.Decoder.float_ofFloat (finite epsilon List.mem_cons_self) p.inside
  cases delta? with
  | none =>
    simp [decode, toJson, Json.fieldsOf, Json.Fields.required, Json.Fields.getD, List.lookup_cons,
      first]
  | some delta =>
    have known := finite delta (by simp [doubles])
    have second : Json.Decoder.float.optional p.inside (.ofFloat delta) = some (some delta) := by
      simp [Json.ofFloat, known, Json.Decoder.optional, Json.Decoder.float]
    simp [decode, toJson, Json.fieldsOf, Json.Fields.required, Json.Fields.getD, List.lookup_cons,
      first, second]

def ColumnType.doubles : ColumnType → List Float
  | .double low high => [low, high]
  | _ => []

theorem ColumnType.readable_toJson (type : ColumnType) {levels : Nat} (room : 2 ≤ levels) :
    type.toJson.readable levels = true := by
  obtain ⟨levels, rfl⟩ : ∃ rest, levels = rest + 2 := ⟨levels - 2, by omega⟩
  cases type with
  | labelled labels =>
    have texts : Json.readableItems levels (labels.map .text) = true :=
      Json.readableItems_map fun label _ => rfl
    simp [toJson, Json.readable, Json.readableMembers, texts]
  | _ => simp [toJson, Json.readable, Json.readableMembers, Json.readable_ofFloat]

/-- **`ColumnType.decode_toJson`**: the kind of a type is found before its bounds or labels. -/
theorem ColumnType.decode_toJson {type : ColumnType}
    (finite : ∀ x ∈ type.doubles, x.isFinite = true) {p : Json.Place} (room : 2 ≤ p.levels) :
    ColumnType.decode p type.toJson = some type := by
  have whole := type.readable_toJson room
  cases type with
  | int low high =>
    have signed (word : Int64) : Json.Decoder.signed p.inside (.integer word.toInt) = some word :=
      Word.ofInt?_eq_some_iff.2 rfl
    simp only [toJson, name] at whole ⊢
    simp [decode, Json.taggedWith, whole, Json.fieldsOf, Json.Fields.required, List.lookup_cons,
      signed]
  | double low high =>
    have first := Json.Decoder.float_ofFloat (finite low (by simp [doubles])) p.inside
    have second := Json.Decoder.float_ofFloat (finite high (by simp [doubles])) p.inside
    simp only [toJson, name] at whole ⊢
    simp [decode, Json.taggedWith, whole, Json.fieldsOf, Json.Fields.required, List.lookup_cons,
      first, second]
  | labelled labels =>
    have texts : Json.Decoder.text.list p.inside (.array (labels.map .text)) = some labels :=
      Json.Decoder.list_self fun label _ => rfl
    simp only [toJson, name] at whole ⊢
    simp [decode, Json.taggedWith, whole, Json.fieldsOf, Json.Fields.required, texts]
  | bool =>
    simp only [toJson, name] at whole ⊢
    simp [decode, Json.taggedWith, whole]
  | text =>
    simp only [toJson, name] at whole ⊢
    simp [decode, Json.taggedWith, whole]

theorem Column.decode_toJson {column : Column}
    (finite : ∀ x ∈ column.type.doubles, x.isFinite = true) {p : Json.Place} (room : 3 ≤ p.levels) :
    Column.decode p column.toJson = some column := by
  have type : ColumnType.decode p.inside column.type.toJson = some column.type :=
    ColumnType.decode_toJson finite (by simp only [Json.Place.inside]; omega)
  simp [decode, toJson, Json.fieldsOf, Json.Fields.required, List.lookup_cons,
    Json.Decoder.text, type]

/-! ## Requests -/

def Request.doubles (r : Request) : List Float :=
  r.budget.doubles ++ r.steps.flatMap Step.doubles ++ r.columns.flatMap fun c => c.type.doubles

/-- A request with the records of its steps. -/
def RawRequest.ofRequest (r : Request) : RawRequest :=
  ⟨r.budget, r.steps.map RawStep.ofStep, r.notion, r.dataset, r.columns⟩

theorem RawRequest.fieldsOf_members (r : Request) :
    Json.fieldsOf fieldNames (.object r.members) = some r.members := by
  simp [Json.fieldsOf, fieldNames, Request.members]

theorem RawRequest.ofFields_members {r : Request} (finite : ∀ x ∈ r.doubles, x.isFinite = true)
    {p : Json.Place} (room : 5 ≤ p.levels) : ofFields p r.members = some (.ofRequest r) := by
  simp only [Request.doubles, List.mem_append] at finite
  have budget : Budget.decode p.inside r.budget.toJson = some r.budget :=
    Budget.decode_toJson (fun x mem => finite x (.inl (.inl mem))) _
  have steps : RawStep.decode.list p.inside (.array (r.steps.map Step.toJson)) =
      some (r.steps.map RawStep.ofStep) := by
    refine Json.Decoder.list_map fun step mem => RawStep.decode_toJson (fun x own => ?_) _
    exact finite x (.inl (.inr (List.mem_flatMap.2 ⟨step, mem, own⟩)))
  have dataset : Json.Decoder.natural p.inside (.integer r.dataset) = some r.dataset := by
    simp [Json.Decoder.natural]
  have columns : Column.decode.list p.inside (.array (r.columns.map Column.toJson)) =
      some r.columns := by
    refine Json.Decoder.list_self fun column mem => Column.decode_toJson (fun x own => ?_) ?_
    · exact finite x (.inr (List.mem_flatMap.2 ⟨column, mem, own⟩))
    · simp only [Json.Place.inside]
      omega
  simp [ofFields, Json.Fields.required, Request.members, List.lookup_cons, budget, steps, dataset,
    columns, Notion.decode_toJson, ofRequest]

theorem RawRequest.toRequest_ofRequest (r : Request) : (ofRequest r).toRequest = .ok r := by
  have all (steps : List Step) : (steps.map RawStep.ofStep).mapM RawStep.toStep = .ok steps := by
    induction steps with
    | nil => rfl
    | cons step steps ih => simp [RawStep.toStep_ofStep, ih, bind, Except.bind, pure, Except.pure]
  simp [toRequest, ofRequest, all, bind, Except.bind, pure, Except.pure]

/-- **`Request.decode_toJson`**: the document of a request is decoded as the request with the records of
its steps. -/
theorem Request.decode_toJson {r : Request} (finite : ∀ x ∈ r.doubles, x.isFinite = true) :
    RawRequest.decode .outermost r.toJson = some (.ofRequest r) := by
  simp only [RawRequest.decode, toJson, RawRequest.fieldsOf_members]
  exact RawRequest.ofFields_members finite (by decide)

theorem Value.readable_toJson (v : Value) (levels : Nat) : v.toJson.readable levels = true := by
  cases v with
  | real x => exact Json.readable_ofFloat x
  | _ => rfl

theorem Step.readable_toJson (s : Step) {levels : Nat} (room : 3 ≤ levels) :
    s.toJson.readable levels = true := by
  obtain ⟨levels, rfl⟩ : ∃ rest, levels = rest + 3 := ⟨levels - 3, by omega⟩
  have texts (l : List String) : Json.readableItems (levels + 1) (l.map .text) = true :=
    Json.readableItems_map fun text _ => rfl
  have mappings (mapping : Dictionary String) : Json.readableMembers (levels + 1)
      (mapping.entries.map fun entry => (entry.1, .text entry.2)) = true :=
    Json.readableMembers_map fun entry _ => rfl
  have values (b : Bin) : Json.readableItems levels (b.values.map Value.toJson) = true :=
    Json.readableItems_map fun v _ => v.readable_toJson levels
  have measures (m : Measure) : (measureJson m).readable (levels + 2) = true := by
    obtain ⟨column, mechanism⟩ := m
    cases mechanism <;> rfl
  cases s with
  | rename mapping => simp [toJson_rename, Json.readable, Json.readableMembers, mappings]
  | _ => simp [toJson, Json.readable, Json.readableMembers, texts, values, measures]

theorem Budget.readable_toJson (b : Budget) {levels : Nat} (room : 1 ≤ levels) :
    b.toJson.readable levels = true := by
  obtain ⟨epsilon, delta?⟩ := b
  cases delta? <;> simp [toJson, Json.readable, Json.readableMembers, Json.readable_ofFloat] <;> omega

theorem Column.readable_toJson (c : Column) {levels : Nat} (room : 3 ≤ levels) :
    c.toJson.readable levels = true := by
  have type : c.type.toJson.readable (levels - 1) = true := c.type.readable_toJson (by omega)
  simp [toJson, Json.readable, Json.readableMembers, type]
  omega

theorem Request.readableMembers (r : Request) {levels : Nat} (room : 4 ≤ levels) :
    Json.readableMembers levels r.members = true := by
  have steps : Json.readableItems (levels - 1) (r.steps.map Step.toJson) = true :=
    Json.readableItems_map fun s _ => s.readable_toJson (by omega)
  have columns : Json.readableItems (levels - 1) (r.columns.map Column.toJson) = true :=
    Json.readableItems_map fun c _ => c.readable_toJson (by omega)
  have budget : r.budget.toJson.readable levels = true := r.budget.readable_toJson (by omega)
  simp [members, Json.readable, Json.readableMembers, steps, columns, budget, Notion.toJson]
  omega

/-- **`AccuracyRequest.decode_toJson`**: the confidence is found among the members of the request, which
are held back whole until then. -/
theorem AccuracyRequest.decode_toJson {a : AccuracyRequest}
    (finite : ∀ x ∈ a.query.doubles, x.isFinite = true) (known : a.confidence.isFinite = true) :
    AccuracyRequest.decode .outermost a.toJson = some (.ofRequest a.query, a.confidence) := by
  have others : (a.query.members ++ [("confidence", Json.ofFloat a.confidence)]).filter
      (fun member => member.1 != "confidence") = a.query.members := by
    simp [Request.members]
  have confidence : Json.fieldsOf ["confidence"] a.toJson =
      some [("confidence", Json.ofFloat a.confidence)] := by
    simp [toJson, Json.fieldsOf, Request.members]
  have readable : Json.readableMembers Json.Place.outermost.inside.levels a.query.members = true :=
    a.query.readableMembers (by decide)
  have fields : RawRequest.ofFields ⟨Json.Place.outermost.levels, true⟩ a.query.members =
      some (.ofRequest a.query) := RawRequest.ofFields_members finite (by decide)
  simp only [toJson] at confidence ⊢
  simp only [decode, others, readable, confidence, RawRequest.fieldsOf_members,
    Json.Fields.required]
  simp [Json.Decoder.float_ofFloat known, fields]

end PrivateQuery
