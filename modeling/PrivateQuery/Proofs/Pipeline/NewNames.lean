import PrivateQuery.Proofs.Pipeline.Label

/-!
# New names, one after the other

A mapping gives its new names in the order of its keys, each to the column that has the key by then.
So a name goes on as long as it is a later key (`laterName_of_some`). A mapping in which no new name
is a later key acts as a whole, on the columns as they were (`laterName_of_unchained`), and on a
schema before any measure these are exactly the mappings whose keys are all names of columns
(`names_iff_unchained`). `rename_entrywise` says what any mapping does to the schema and to the
label; a chained one goes beyond its first new name (`rename_chained`).
-/
namespace PrivateQuery

/-! ## Mappings -/

/-- No new name is the key of a later entry. -/
def Dictionary.Unchained (mapping : Dictionary String) : Prop :=
  ∀ e ∈ mapping.entries, ∀ later ∈ mapping.entries, e.1 < later.1 → e.2 ≠ later.1

instance Dictionary.decidableUnchained (mapping : Dictionary String) :
    Decidable mapping.Unchained :=
  inferInstanceAs (Decidable (∀ e ∈ mapping.entries, ∀ later ∈ mapping.entries,
    e.1 < later.1 → e.2 ≠ later.1))

section
variable {entries : List (String × String)} {name new : String}

theorem mem_of_lookup (found : entries.lookup name = some new) : (name, new) ∈ entries := by
  obtain ⟨before, after, rfl, -⟩ := List.lookup_eq_some_iff.1 found
  simp

theorem laterName_of_not_key (other : ∀ e ∈ entries, e.1 ≠ name) : laterName entries name = name := by
  induction entries with
  | nil => rfl
  | cons e entries ih =>
    obtain ⟨first, rest⟩ := List.forall_mem_cons.1 other
    rw [laterName, List.foldl_cons, newName, if_neg (Ne.symm first)]
    exact ih rest

theorem laterName_of_none (unnamed : entries.lookup name = none) : laterName entries name = name := by
  refine laterName_of_not_key fun e mem => ?_
  exact Ne.symm (bne_iff_ne.1 (List.lookup_eq_none_iff.1 unnamed e mem))

/-- A name that is a key becomes the new name, which the entries that are left may change again. -/
theorem laterName_of_some (ascending : entries.Pairwise fun a b => a.1 < b.1)
    (named : entries.lookup name = some new) :
    laterName entries name = laterName (entries.filter fun e => name < e.1) new := by
  induction entries with
  | nil => simp at named
  | cons e entries ih =>
    obtain ⟨key, first⟩ := e
    obtain ⟨above, rest⟩ := List.pairwise_cons.1 ascending
    by_cases here : name = key
    · subst here
      have kept : entries.filter (fun later => name < later.1) = entries :=
        List.filter_eq_self.2 fun later mem => by simpa using above later mem
      have given : first = new := by simpa [List.lookup_cons] using named
      rw [List.filter_cons_of_neg (by simp), kept, laterName, List.foldl_cons, newName, if_pos rfl,
        given]
      rfl
    · have found : entries.lookup name = some new := by
        have differs : (name == key) = false := by simpa using here
        simpa [List.lookup_cons, differs] using named
      -- The key comes later, so this entry does not come after it.
      have below : ¬ name < key := fun before =>
        String.lt_irrefl name (String.lt_trans before (above _ (mem_of_lookup found)))
      rw [List.filter_cons_of_neg (by simpa using below), ← ih rest found, laterName,
        List.foldl_cons, newName, if_neg here]
      rfl

/-- What becomes of a name is the name itself or one of the new ones. -/
theorem laterName_cases (entries : List (String × String)) (name : String) :
    laterName entries name = name ∨ ∃ e ∈ entries, laterName entries name = e.2 := by
  induction entries generalizing name with
  | nil => exact .inl rfl
  | cons e entries ih =>
    have next : laterName (e :: entries) name = laterName entries (newName e.1 e.2 name) := rfl
    rcases ih (newName e.1 e.2 name) with same | ⟨later, mem, same⟩
    · by_cases here : name = e.1
      · refine .inr ⟨e, List.mem_cons_self, ?_⟩
        rw [next, same, newName, if_pos here]
      · left
        rw [next, same, newName, if_neg here]
    · exact .inr ⟨later, List.mem_cons_of_mem e mem, next.trans same⟩

end

variable {mapping : Dictionary String}

/-- The label of a key becomes its new name, unless this is a later key. -/
theorem laterName_of_last {name new : String} (named : mapping.get? name = some new)
    (last : name < new → mapping.get? new = none) : laterName mapping.entries name = new := by
  rw [laterName_of_some mapping.ascending named]
  refine laterName_of_not_key fun e mem same => ?_
  obtain ⟨own, after⟩ := List.mem_filter.1 mem
  have later : name < new := by simpa [same] using after
  exact bne_iff_ne.1 (List.lookup_eq_none_iff.1 (last later) e own) same.symm

/-- An unchained mapping gives each key its new name and keeps all other names. -/
theorem laterName_of_unchained (unchained : mapping.Unchained) (name : String) :
    laterName mapping.entries name = (mapping.get? name).getD name := by
  cases named : mapping.get? name with
  | none => exact laterName_of_none named
  | some new =>
    refine laterName_of_last named fun later => List.lookup_eq_none_iff.2 fun e mem => ?_
    refine bne_iff_ne.2 ?_
    rintro rfl
    exact unchained _ (mem_of_lookup named) e mem later rfl

/-! ## Schemas -/

section
variable {s s' : Schema} {before after entries : List (String × String)} {e : String × String}

theorem renameAll_append {stage : Stage}
    (renamed : Transition.renameAll stage (before ++ after) s = .ok s') :
    ∃ middle, Transition.renameAll stage before s = .ok middle ∧
      Transition.renameAll stage after middle = .ok s' := by
  rw [Transition.renameAll, List.foldlM_append] at renamed
  exact bind_eq_ok.1 renamed

theorem renameAll_transforming
    (renamed : Transition.renameAll .awaitingTransform (e :: entries) s = .ok s') :
    ∃ middle, s.rename e.1 e.2 = .ok middle ∧
      Transition.renameAll .awaitingTransform entries middle = .ok s' := by
  simp only [Transition.renameAll, List.foldlM_cons, bind_eq_ok] at renamed
  obtain ⟨middle, first, rest⟩ := renamed
  exact ⟨middle, by simpa using first, rest⟩

/-- Columns that are renamed one after the other stay the same columns under their last names. -/
theorem columns_of_renameAll (renamed : Transition.renameAll .awaitingTransform entries s = .ok s') :
    s'.columns = s.columns.map fun column => ⟨laterName entries column.name, column.type⟩ := by
  induction entries generalizing s with
  | nil =>
    cases renamed
    exact (List.map_id _).symm
  | cons e entries ih =>
    obtain ⟨middle, first, rest⟩ := renameAll_transforming renamed
    rw [ih rest, (Schema.free_of_rename first).1, List.map_map]
    refine List.map_congr_left fun column _ => ?_
    rw [Function.comp, Schema.renamed_eq]
    rfl

/-- An entry renames a column that the entries before it have left, to a name that no other column has
by then. -/
theorem entry_of_renameAll
    (renamed : Transition.renameAll .awaitingTransform (before ++ e :: after) s = .ok s') :
    (∃ column ∈ s.columns, laterName before column.name = e.1) ∧
      ∀ column ∈ s.columns, laterName before column.name = e.2 → e.2 = e.1 := by
  obtain ⟨middle, earlier, later⟩ := renameAll_append renamed
  obtain ⟨next, here, -⟩ := renameAll_transforming later
  obtain ⟨own, -⟩ := Schema.names_of_rename here
  obtain ⟨-, free⟩ := Schema.free_of_rename here
  have columns := columns_of_renameAll earlier
  rw [Schema.names, columns, List.map_map] at own
  rw [columns] at free
  refine ⟨List.mem_map.1 own, fun column mem same => ?_⟩
  have taken := free _ (List.mem_map_of_mem mem) same
  exact same.symm.trans taken

/-- Every key is a column of the schema or the new name of an earlier key. -/
theorem key_of_renameAll
    (renamed : Transition.renameAll .awaitingTransform mapping.entries s = .ok s')
    (mem : e ∈ mapping.entries) :
    e.1 ∈ s.names ∨ ∃ first ∈ mapping.entries, first.1 < e.1 ∧ first.2 = e.1 := by
  obtain ⟨before, after, split⟩ := List.append_of_mem mem
  have ascending := mapping.ascending
  rw [split] at renamed ascending
  obtain ⟨⟨column, own, named⟩, -⟩ := entry_of_renameAll renamed
  rcases laterName_cases before column.name with same | ⟨first, mem', same⟩
  · left
    rw [← named, same]
    exact List.mem_map_of_mem own
  · right
    refine ⟨first, split ▸ List.mem_append_left _ mem', ?_, same.symm.trans named⟩
    exact (List.pairwise_append.1 ascending).2.2 first mem' e List.mem_cons_self

/-- **`names_iff_unchained`**: of the mappings that a schema accepts, the unchained ones are those whose
keys are all names of its columns. -/
theorem names_iff_unchained
    (renamed : Transition.renameAll .awaitingTransform mapping.entries s = .ok s') :
    (∀ e ∈ mapping.entries, e.1 ∈ s.names) ↔ mapping.Unchained := by
  constructor
  · intro own e mem later mem' lt taken
    obtain ⟨before, after, split⟩ := List.append_of_mem mem
    have ascending := mapping.ascending
    rw [split] at renamed ascending
    obtain ⟨column, mem'', named⟩ := List.mem_map.1 (own later mem')
    -- The later key is still the name of its column when this entry is due.
    have kept : laterName before column.name = column.name := by
      refine laterName_of_not_key fun first mem same => ?_
      have below := (List.pairwise_append.1 ascending).2.2 first mem e List.mem_cons_self
      rw [same, named] at below
      exact String.lt_irrefl _ (String.lt_trans lt below)
    have same := (entry_of_renameAll renamed).2 column mem'' (by rw [kept, named, taken])
    rw [← taken, same] at lt
    exact String.lt_irrefl _ lt
  · intro unchained e mem
    rcases key_of_renameAll renamed mem with own | ⟨first, mem', lt, taken⟩
    · exact own
    · exact absurd taken (unchained first mem' e mem lt)

end

/-! ## Steps -/

/-- An accepted rename changes the schema entry by entry, and the pass observes each entry. -/
theorem step_rename {σ ε : Type} {pass : Pass σ ε} {terms : Terms} {c c' : Course σ}
    (accepted : c.step pass terms (.rename mapping) = (.ok (), c')) :
    c'.standing.stage = c.standing.stage ∧
      Transition.renameAll c.standing.stage mapping.entries c.standing.schema =
        .ok c'.standing.schema ∧
      pass.observeAll (mapping.entries.map fun e => .rename e.1 e.2 c.standing.stage) c.state =
        (.ok (), c'.state) := by
  obtain ⟨s, state⟩ := c
  obtain ⟨s', state'⟩ := c'
  obtain ⟨events, moves, observed⟩ := Course.operateAll_eq_ok_iff.1 accepted
  dsimp only at moves observed
  cases moves_single_iff.1 moves with
  | rename due renamed => exact ⟨rfl, renamed, observed⟩

/-- **`rename_entrywise`**: a rename takes the entries of its mapping one after the other, in the order
of their keys. Before any measure every key is by then the name of a column, and the columns keep
their order and their types; the mapping acts once, on the columns as they were, exactly when all its
keys are names of these. Once noise has been added the label takes the same course; it becomes the
new name that the mapping has for it unless this is a later key. -/
theorem rename_entrywise (mapping : Dictionary String) (terms : Terms) :
    (∀ {σ ε : Type} (pass : Pass σ ε) (c c' : Course σ),
      c.standing.stage = .awaitingTransform →
      c.step pass terms (.rename mapping) = (.ok (), c') →
      c'.standing.schema.columns = c.standing.schema.columns.map (fun column =>
          ⟨laterName mapping.entries column.name, column.type⟩) ∧
        (∀ e ∈ mapping.entries, e.1 ∈ c.standing.schema.names ∨
          ∃ first ∈ mapping.entries, first.1 < e.1 ∧ first.2 = e.1) ∧
        ((∀ e ∈ mapping.entries, e.1 ∈ c.standing.schema.names) ↔ mapping.Unchained) ∧
        (mapping.Unchained →
          c'.standing.schema.columns = c.standing.schema.columns.map (fun column =>
            ⟨(mapping.get? column.name).getD column.name, column.type⟩))) ∧
    ∀ (library : Library) (parameters : Parameters) (c c' : Course Assembly) (p : Pipeline),
      c.pipeline = .ok p →
      c.step (Assembly.pass library parameters) terms (.rename mapping) = (.ok (), c') →
      c'.pipeline = .ok { p with label := laterName mapping.entries p.label } ∧
        (mapping.get? p.label = none → laterName mapping.entries p.label = p.label) ∧
        ∀ new, mapping.get? p.label = some new → (p.label < new → mapping.get? new = none) →
          laterName mapping.entries p.label = new := by
  constructor
  · intro σ ε pass c c' stage accepted
    obtain ⟨-, renamed, -⟩ := step_rename accepted
    rw [stage] at renamed
    have columns := columns_of_renameAll renamed
    refine ⟨columns, fun e mem => key_of_renameAll renamed mem, names_iff_unchained renamed, ?_⟩
    intro unchained
    rw [columns]
    refine List.map_congr_left fun column _ => ?_
    rw [laterName_of_unchained unchained]
  · intro library parameters c c' p built accepted
    obtain ⟨same, -, observed⟩ := step_rename accepted
    refine ⟨?_, laterName_of_none, fun new => laterName_of_last⟩
    obtain ⟨noised, held⟩ := Course.pipeline_eq_ok_iff.1 built
    rw [noised] at observed same
    exact Course.pipeline_eq_ok_iff.2 ⟨same, observeAll_label held observed⟩

/-- The name that one column gives up is taken by another, before a count of ages and after it. -/
theorem rename_entrywise_passed :
    ∃ (c' : Course Unit) (c d : Course Assembly) (p : Pipeline),
      Course.step Pass.silent ⟨⟨0.5, none⟩, .pureDP, 65536⟩
        (.start ⟨[⟨"age", .int 18 90⟩, ⟨"job", .text⟩], by decide⟩ ())
        (.rename (.ofList [("age", "years"), ("job", "age")])) = (.ok (), c') ∧
      c'.standing.schema.columns = [⟨"years", .int 18 90⟩, ⟨"age", .text⟩] ∧
      compile (.standard ⟨1e-9, 12, 65536, none⟩) .standard ⟨0.5, none⟩ .pureDP
        ⟨[⟨"age", .int 18 90⟩, ⟨"job", .text⟩], by decide⟩ [.count ⟨"age", .laplace⟩] = .ok c ∧
      c.pipeline = .ok p ∧ p.label = "age" ∧
      c.step (Assembly.pass (.standard ⟨1e-9, 12, 65536, none⟩) .standard)
        ⟨⟨0.5, none⟩, .pureDP, 65536⟩ (.rename (.ofList [("age", "years"), ("job", "age")])) =
          (.ok (), d) ∧
      d.pipeline = .ok { p with label := "years" } := by
  have before : (Course.step Pass.silent ⟨⟨0.5, none⟩, .pureDP, 65536⟩
      (.start ⟨[⟨"age", .int 18 90⟩, ⟨"job", .text⟩], by decide⟩ ())
      (.rename (.ofList [("age", "years"), ("job", "age")]))).1.toOption = some () := by
    decide +kernel
  have ran : ((compile (.standard ⟨1e-9, 12, 65536, none⟩) .standard ⟨0.5, none⟩ .pureDP
      ⟨[⟨"age", .int 18 90⟩, ⟨"job", .text⟩], by decide⟩
      [.count ⟨"age", .laplace⟩]).toOption.bind fun c =>
        if (c.step (Assembly.pass (.standard ⟨1e-9, 12, 65536, none⟩) .standard)
            ⟨⟨0.5, none⟩, .pureDP, 65536⟩
            (.rename (.ofList [("age", "years"), ("job", "age")]))).1.toOption = some () then
          c.pipeline.toOption.map Pipeline.label
        else none) = some "age" := by decide +kernel
  rw [toOption_eq_some] at before
  obtain ⟨c, compiled, rest⟩ := Option.bind_eq_some_iff.1 ran
  split at rest
  · rename_i after
    obtain ⟨p, built, label⟩ := Option.map_eq_some_iff.1 rest
    rw [toOption_eq_some] at compiled after built
    obtain ⟨schemas, labels⟩ := rename_entrywise (.ofList [("age", "years"), ("job", "age")])
      ⟨⟨0.5, none⟩, .pureDP, 65536⟩
    obtain ⟨-, -, -, once⟩ := schemas Pass.silent _ _ rfl (Prod.ext before rfl)
    obtain ⟨relabelled, -, named⟩ := labels _ _ _ _ p built (Prod.ext after rfl)
    rw [named "years" (by rw [label]; decide) fun _ => by decide] at relabelled
    exact ⟨_, c, _, p, Prod.ext before rfl, once (by decide), compiled, built, label,
      Prod.ext after rfl, relabelled⟩
  · simp at rest

/-- A chained mapping goes beyond its first new name. Before any measure a column is renamed twice, the
second time by a key that is no name of the schema; after one, the label of a key does not become the
new name of the key. -/
theorem rename_chained :
    (∃ c : Course Unit,
      Course.step Pass.silent ⟨⟨0.5, none⟩, .pureDP, 65536⟩
        (.start ⟨[⟨"a", .text⟩], by decide⟩ ()) (.rename (.ofList [("a", "b"), ("b", "c")])) =
          (.ok (), c) ∧
      "b" ∈ (Dictionary.ofList [("a", "b"), ("b", "c")]).entries.map Prod.fst ∧
      "b" ∉ (Schema.mk [⟨"a", .text⟩] (by decide)).names ∧
      (Dictionary.ofList [("a", "b"), ("b", "c")]).get? "a" = some "b" ∧
      c.standing.schema.columns = [⟨"c", .text⟩]) ∧
    ∃ (c d : Course Assembly) (p q : Pipeline),
      compile (.standard ⟨1e-9, 12, 65536, none⟩) .standard ⟨0.5, none⟩ .pureDP
        ⟨[⟨"a", .text⟩, ⟨"b", .text⟩], by decide⟩ [.count ⟨"a", .laplace⟩] = .ok c ∧
      c.pipeline = .ok p ∧ p.label = "a" ∧
      c.step (Assembly.pass (.standard ⟨1e-9, 12, 65536, none⟩) .standard)
        ⟨⟨0.5, none⟩, .pureDP, 65536⟩ (.rename (.ofList [("a", "b"), ("b", "c")])) = (.ok (), d) ∧
      d.pipeline = .ok q ∧ q.label = "c" := by
  constructor
  · have ran : (Course.step Pass.silent ⟨⟨0.5, none⟩, .pureDP, 65536⟩
        (.start ⟨[⟨"a", .text⟩], by decide⟩ ())
        (.rename (.ofList [("a", "b"), ("b", "c")]))).1.toOption = some () := by decide +kernel
    rw [toOption_eq_some] at ran
    exact ⟨_, Prod.ext ran rfl, by decide, by decide, by decide, by decide +kernel⟩
  · have ran : ((compile (.standard ⟨1e-9, 12, 65536, none⟩) .standard ⟨0.5, none⟩ .pureDP
        ⟨[⟨"a", .text⟩, ⟨"b", .text⟩], by decide⟩ [.count ⟨"a", .laplace⟩]).toOption.map fun c =>
          let after := c.step (Assembly.pass (.standard ⟨1e-9, 12, 65536, none⟩) .standard)
            ⟨⟨0.5, none⟩, .pureDP, 65536⟩ (.rename (.ofList [("a", "b"), ("b", "c")]))
          (c.pipeline.toOption.map Pipeline.label, after.1.toOption,
            after.2.pipeline.toOption.map Pipeline.label)) =
        some (some "a", some (), some "c") := by decide +kernel
    simp only [Option.map_eq_some_iff, toOption_eq_some, Prod.mk.injEq] at ran
    obtain ⟨c, compiled, ⟨p, built, label⟩, after, ⟨q, built', label'⟩⟩ := ran
    exact ⟨c, _, p, q, compiled, built, label, Prod.ext after rfl, built', label'⟩

end PrivateQuery
