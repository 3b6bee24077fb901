import PrivateQuery.Machine.Run
import PrivateQuery.Proofs.Outcome

/-!
# Moves

The moves of a query as a relation, one rule an operation: where it stands before, what the
operation must satisfy, which events follow and where it stands after. `transition` accepts exactly
these moves (`transition_eq_ok_iff`), and what it refuses it refuses for good, as does a whole check
(`settled_transition`, `settled_typecheck`).
-/
namespace PrivateQuery

open Transition

/-- The rules of the machine. -/
inductive Accepted (terms : Terms) : Standing → Operation → Move → Prop where
  | select {schema schema' : Schema} {columns : List String}
      (kept : schema.select columns = .ok schema') :
      Accepted terms ⟨schema, .awaitingTransform⟩ (.select columns)
        ⟨[.select columns], ⟨schema', .awaitingTransform⟩⟩
  | filter {schema : Schema} {texts : List String} {predicates : List Predicate}
      (parsed : texts.mapM Predicate.parse = .ok predicates)
      (own : ∀ p ∈ predicates, ∀ column ∈ p.columns, schema.contains column = true) :
      Accepted terms ⟨schema, .awaitingTransform⟩ (.filter texts)
        ⟨predicates.map .filter, ⟨schema, .awaitingTransform⟩⟩
  | rename {schema schema' : Schema} {stage : Stage} {mapping : Dictionary String}
      (due : stage = .awaitingTransform ∨ stage = .noiseAdded)
      (renamed : renameAll stage mapping.entries schema = .ok schema') :
      Accepted terms ⟨schema, stage⟩ (.rename mapping)
        ⟨mapping.entries.map fun e => .rename e.1 e.2 stage, ⟨schema', stage⟩⟩
  | bin {schema : Schema} {b : Bin} {type : ColumnType}
      (typed : schema.typeOf b.column = .ok type)
      (distinct : Value.allDistinct b.values = true)
      (checked : checkBins terms.maxCategories b type = .ok ()) :
      Accepted terms ⟨schema, .awaitingTransform⟩ (.bin b)
        ⟨[.bin b type], ⟨schema, .awaitingCount b⟩⟩
  | count {schema : Schema} {measure : Measure} {type : ColumnType}
      (typed : schema.typeOf measure.column = .ok type) :
      Accepted terms ⟨schema, .awaitingTransform⟩ (.count measure)
        ⟨[.count measure.column type none measure.mechanism],
          ⟨schema, .measuring measure.mechanism⟩⟩
  | countBinned {schema : Schema} {b : Bin} {measure : Measure} {type : ColumnType}
      (typed : schema.typeOf measure.column = .ok type) (binned : b.column = measure.column) :
      Accepted terms ⟨schema, .awaitingCount b⟩ (.count measure)
        ⟨[.count measure.column type (some b) measure.mechanism],
          ⟨schema, .measuring measure.mechanism⟩⟩
  | sum {schema : Schema} {measure : Measure} {type : ColumnType}
      (typed : schema.typeOf measure.column = .ok type) (numeric : type.isNumeric = true)
      (bounded : 0 < terms.budget.epsilon → sumBound type / terms.budget.epsilon ≤ maxSumScale) :
      Accepted terms ⟨schema, .awaitingTransform⟩ (.sum measure)
        ⟨[.sum measure.column type measure.mechanism], ⟨schema, .measuring measure.mechanism⟩⟩
  | noise {schema : Schema} {mechanism : Mechanism}
      (compatible : checkCompatibility terms.budget terms.notion mechanism = .ok ()) :
      Accepted terms ⟨schema, .measuring mechanism⟩ .noise
        ⟨[.noise terms.budget terms.notion mechanism], ⟨schema, .noiseAdded⟩⟩

variable {terms : Terms} {s : Standing} {move : Move}

/-! ## The checks of an operation -/

theorem expectTransform_eq_ok_iff {operation : String} {stage : Stage} {u : Unit} :
    expectTransform operation stage = .ok u ↔ stage = .awaitingTransform := by
  cases stage <;> simp [expectTransform, orderError]

theorem onSchema_eq_ok_iff {α : Type} {r : Except SchemaError α} {a : α} :
    onSchema r = .ok a ↔ r = .ok a := by
  cases r <;> simp [onSchema]

theorem foreignColumn?_eq_none_iff {schema : Schema} {predicates : List Predicate} :
    foreignColumn? schema predicates = none ↔
      ∀ p ∈ predicates, ∀ column ∈ p.columns, schema.contains column = true := by
  simp [foreignColumn?, List.findSome?_eq_none_iff, List.find?_eq_none]

theorem binToCount_eq_ok_iff {stage : Stage} {bin? : Option Bin} :
    binToCount stage = .ok bin? ↔
      (stage = .awaitingTransform ∧ bin? = none) ∨ ∃ b, stage = .awaitingCount b ∧ bin? = some b := by
  cases stage <;> simp [binToCount, orderError, eq_comm]

/-! ## Accepted operations are moves -/

theorem accepted_select {columns : List String} (h : Transition.select s columns = .ok move) :
    Accepted terms s (.select columns) move := by
  obtain ⟨schema, stage⟩ := s
  simp only [Transition.select, bind_eq_ok, expectTransform_eq_ok_iff, onSchema_eq_ok_iff,
    pure_eq_ok] at h
  obtain ⟨_, rfl, schema', kept, rfl⟩ := h
  exact .select kept

theorem accepted_filter {texts : List String} (h : Transition.filter s texts = .ok move) :
    Accepted terms s (.filter texts) move := by
  obtain ⟨schema, stage⟩ := s
  simp only [Transition.filter, bind_eq_ok, expectTransform_eq_ok_iff, mapError_eq_ok] at h
  obtain ⟨_, rfl, predicates, parsed, h⟩ := h
  split at h
  · simp [orderError] at h
  · rename_i own
    rw [pure_eq_ok] at h
    subst h
    exact .filter parsed (foreignColumn?_eq_none_iff.1 own)

theorem accepted_rename {mapping : Dictionary String} (h : Transition.rename s mapping = .ok move) :
    Accepted terms s (.rename mapping) move := by
  obtain ⟨schema, stage⟩ := s
  unfold Transition.rename at h
  split at h
  · rename_i due
    simp only [bind_eq_ok, onSchema_eq_ok_iff, pure_eq_ok] at h
    obtain ⟨schema', renamed, rfl⟩ := h
    exact .rename due renamed
  · simp [orderError] at h

theorem accepted_bin {b : Bin} (h : Transition.bin terms s b = .ok move) :
    Accepted terms s (.bin b) move := by
  obtain ⟨schema, stage⟩ := s
  cases stage with
  | awaitingTransform =>
    simp only [Transition.bin, bind_eq_ok, onSchema_eq_ok_iff] at h
    obtain ⟨type, typed, h⟩ := h
    split at h
    · simp [bind, Except.bind] at h
    · rename_i distinct
      simp only [bind_eq_ok, pure_eq_ok] at h
      obtain ⟨_, checked, rfl⟩ := h
      exact .bin typed (by simpa using distinct) checked
  | _ => simp [Transition.bin, orderError, bind, Except.bind] at h

theorem accepted_count {measure : Measure} (h : Transition.count s measure = .ok move) :
    Accepted terms s (.count measure) move := by
  obtain ⟨schema, stage⟩ := s
  simp only [Transition.count, bind_eq_ok, binToCount_eq_ok_iff, onSchema_eq_ok_iff] at h
  obtain ⟨_, ⟨rfl, rfl⟩ | ⟨b, rfl, rfl⟩, type, typed, h⟩ := h
  · rw [pure_eq_ok] at h
    subst h
    exact .count typed
  · dsimp only at h
    split at h
    · simp [orderError, bind, Except.bind] at h
    · rename_i binned
      rw [pure_eq_ok] at h
      subst h
      exact .countBinned typed (by simpa using binned)

theorem accepted_sum {measure : Measure} (h : Transition.sum terms s measure = .ok move) :
    Accepted terms s (.sum measure) move := by
  obtain ⟨schema, stage⟩ := s
  cases stage with
  | awaitingTransform =>
    simp only [Transition.sum, bind_eq_ok, onSchema_eq_ok_iff] at h
    obtain ⟨type, typed, h⟩ := h
    split at h
    · simp [bind, Except.bind] at h
    · rename_i numeric
      split at h
      · simp [bind, Except.bind] at h
      · rename_i bounded
        rw [pure_eq_ok] at h
        subst h
        refine .sum typed (by simpa using numeric) fun positive => ?_
        exact Decidable.byContradiction fun beyond => bounded ⟨positive, beyond⟩
  | _ => simp [Transition.sum, orderError, bind, Except.bind] at h

theorem accepted_noise (h : Transition.noise terms s = .ok move) :
    Accepted terms s .noise move := by
  obtain ⟨schema, stage⟩ := s
  cases stage with
  | measuring mechanism =>
    simp only [Transition.noise, bind_eq_ok, mapError_eq_ok, pure_eq_ok] at h
    obtain ⟨_, compatible, rfl⟩ := h
    exact .noise compatible
  | _ => simp [Transition.noise, orderError] at h

/-- **`transition_eq_ok_iff`**: an operation is accepted exactly where a rule of the machine
applies, and does what the rule says. -/
theorem transition_eq_ok_iff {operation : Operation} :
    transition terms s operation = .ok move ↔ Accepted terms s operation move := by
  constructor
  · intro h
    cases operation with
    | select columns => exact accepted_select h
    | filter texts => exact accepted_filter h
    | rename mapping => exact accepted_rename h
    | bin b => exact accepted_bin h
    | count measure => exact accepted_count h
    | sum measure => exact accepted_sum h
    | noise => exact accepted_noise h
  · intro h
    cases h with
    | select kept =>
      simp [transition, Transition.select, expectTransform, kept, onSchema, bind, Except.bind,
        pure, Except.pure]
    | filter parsed own =>
      simp [transition, Transition.filter, expectTransform, parsed, bind, Except.bind,
        pure, Except.pure, foreignColumn?_eq_none_iff.2 own]
    | rename due renamed =>
      simp [transition, Transition.rename, due, renamed, onSchema, bind, Except.bind,
        pure, Except.pure]
    | bin typed distinct checked =>
      simp [transition, Transition.bin, typed, distinct, checked, onSchema, bind, Except.bind,
        pure, Except.pure]
    | count typed =>
      simp [transition, Transition.count, binToCount, typed, onSchema, bind, Except.bind,
        pure, Except.pure]
    | countBinned typed binned =>
      simp [transition, Transition.count, binToCount, typed, binned, onSchema, bind,
        Except.bind, pure, Except.pure]
    | @sum schema measure type typed numeric bounded =>
      have within : ¬ (0 < terms.budget.epsilon ∧
          ¬ sumBound type / terms.budget.epsilon ≤ maxSumScale) :=
        fun h => h.2 (bounded h.1)
      simp only [transition, Transition.sum, typed, numeric, within, onSchema, mapError_ok, bind,
        Except.bind, pure, Except.pure]
      rfl
    | noise compatible =>
      simp [transition, Transition.noise, compatible, bind, Except.bind, pure,
        Except.pure]

/-! ## Refusals -/

/-- Any error is one of the query itself, which comes again whenever the query does. -/
def Settled {α : Type} (x : Except QueryError α) : Prop := ∀ e, x = .error e → e.isRetryable = false

section
variable {α β ε : Type}

theorem settled_ok (a : α) : Settled (.ok a) := by simp [Settled]

theorem settled_error {e : QueryError} (h : e.isRetryable = false) :
    Settled (.error e : Except QueryError α) := by
  simpa [Settled] using h

theorem Settled.bind {x : Except QueryError α} {f : α → Except QueryError β} (hx : Settled x)
    (hf : ∀ a, x = .ok a → Settled (f a)) : Settled (x >>= f) := by
  cases x with
  | ok a => exact hf a rfl
  | error e => exact settled_error (hx e rfl)

theorem settled_mapError {x : Except ε α} {f : ε → QueryError}
    (h : ∀ e, (f e).isRetryable = false) : Settled (x.mapError f) := by
  cases x with
  | ok a => exact settled_ok a
  | error e => exact settled_error (h e)

end

theorem settled_orderError {α : Type} (cause : OrderError) :
    Settled (orderError cause : Except QueryError α) := settled_error rfl

theorem settled_onSchema {α : Type} (r : Except SchemaError α) : Settled (onSchema r) :=
  settled_mapError fun _ => rfl

theorem settled_expectTransform (operation : String) (stage : Stage) :
    Settled (expectTransform operation stage) := by
  cases stage with
  | awaitingTransform => exact settled_ok ()
  | _ => exact settled_orderError _

theorem settled_checkIntegerBins (most : Nat) (b : Bin) : Settled (checkIntegerBins most b) := by
  unfold checkIntegerBins
  split
  · exact settled_error rfl
  · split
    · exact settled_error rfl
    · dsimp only
      split
      · exact settled_error rfl
      · split
        · exact settled_error rfl
        · exact settled_ok ()

theorem settled_checkBins (most : Nat) (b : Bin) (type : ColumnType) :
    Settled (checkBins most b type) := by
  cases type with
  | int low high => exact settled_checkIntegerBins most b
  | double low high => exact settled_error rfl
  | _ =>
    change Settled (if _ then _ else _)
    split
    · exact settled_ok ()
    · exact settled_error rfl

theorem settled_binToCount (stage : Stage) : Settled (binToCount stage) := by
  cases stage with
  | awaitingTransform => exact settled_ok none
  | awaitingCount b => exact settled_ok (some b)
  | _ => exact settled_orderError _

/-- **`settled_transition`**: no operation is refused for what the query is run on. -/
theorem settled_transition (terms : Terms) (s : Standing) (operation : Operation) :
    Settled (transition terms s operation) := by
  cases operation with
  | select columns =>
    refine (settled_expectTransform _ _).bind fun _ _ => ?_
    exact (settled_onSchema _).bind fun schema _ => settled_ok _
  | filter texts =>
    refine (settled_expectTransform _ _).bind fun _ _ => ?_
    refine (settled_mapError fun _ => rfl).bind fun predicates _ => ?_
    split
    · exact settled_orderError _
    · exact settled_ok _
  | rename mapping =>
    rw [transition, Transition.rename]
    split
    · exact (settled_onSchema _).bind fun schema _ => settled_ok _
    · exact settled_orderError _
  | bin b =>
    rw [transition, Transition.bin]
    split
    · refine (settled_onSchema _).bind fun type _ => ?_
      split
      · exact settled_error rfl
      · exact (settled_checkBins _ _ _).bind fun _ _ => settled_ok _
    · exact settled_orderError _
    · exact settled_orderError _
  | count measure =>
    refine (settled_binToCount _).bind fun bin? _ => ?_
    refine (settled_onSchema _).bind fun type _ => ?_
    split
    · split
      · exact settled_orderError _
      · exact settled_ok _
    · exact settled_ok _
  | sum measure =>
    rw [transition, Transition.sum]
    split
    · refine (settled_onSchema _).bind fun type _ => ?_
      split
      · exact settled_error rfl
      · dsimp only
        split
        · exact settled_error rfl
        · exact settled_ok _
    · exact settled_orderError _
    · exact settled_orderError _
  | noise =>
    rw [transition, Transition.noise]
    split
    · exact (settled_mapError fun _ => rfl).bind fun _ _ => settled_ok _
    · exact settled_orderError _

/-! ## Operations -/

namespace Course

/-- Where nothing is observed, an operation does what the machine says. -/
theorem operate_silent {s : Standing} {op : Operation} :
    (Course.mk s ()).operate Pass.silent terms op =
      match transition terms s op with
      | .ok move => (.ok (), ⟨move.next, ()⟩)
      | .error e => (.error e, ⟨s, ()⟩) := by
  unfold operate
  cases transition terms s op with
  | ok move => simp [Pass.silent_observeAll]
  | error e => rfl

/-- An operation that is refused is refused whatever observes it. -/
theorem operate_refused {σ ε : Type} {pass : Pass σ ε} {c : Course σ} {op : Operation}
    {e : QueryError} (h : transition terms c.standing op = .error e) :
    c.operate pass terms op = (.error (pass.ofError e), c) := by
  simp only [operate, h]

theorem operate_ok {σ ε : Type} {pass : Pass σ ε} {c : Course σ} {op : Operation} {move : Move}
    {state : σ} (h : transition terms c.standing op = .ok move)
    (observed : pass.observeAll move.events c.state = (.ok (), state)) :
    c.operate pass terms op = (.ok (), ⟨move.next, state⟩) := by
  simp only [operate, h, observed]

/-! ## Runs -/

/-- A check takes a query apart: what is refused, an operation refuses. -/
theorem operateAll_settled (operations : List Operation) (c : Course Unit) :
    Settled (operateAll Pass.silent terms operations c).1 := by
  induction operations generalizing c with
  | nil => exact settled_ok ()
  | cons operation operations ih =>
    obtain ⟨s, u⟩ := c
    rw [operateAll, operate_silent]
    cases outcome : transition terms s operation with
    | ok move => exact ih _
    | error e => exact settled_error (settled_transition terms s operation e outcome)

theorem run_settled (steps : List Step) (c : Course Unit) :
    Settled (run Pass.silent terms steps c) := by
  induction steps generalizing c with
  | nil => exact settled_ok c
  | cons step steps ih =>
    have refused : Settled (operateAll Pass.silent terms step.operations c).1 :=
      operateAll_settled _ _
    rw [run, Course.step]
    split
    · exact ih _
    · rename_i e c' outcome
      exact settled_error (refused e (by rw [outcome]))

/-- A run goes through its steps in order. -/
theorem run_append {σ ε : Type} (pass : Pass σ ε) (steps rest : List Step) (c : Course σ) :
    run pass terms (steps ++ rest) c = run pass terms steps c >>= run pass terms rest := by
  induction steps generalizing c with
  | nil => rfl
  | cons step steps ih =>
    simp only [List.cons_append, run]
    split
    · exact ih _
    · rfl

end Course

/-- What a check refuses it refuses for good. -/
theorem settled_typecheck (terms : Terms) (schema : Schema) (steps : List Step) :
    Settled (typecheck terms schema steps) := by
  refine (Course.run_settled steps _).bind fun c _ => ?_
  refine Settled.bind ?_ fun _ _ => settled_ok _
  rw [Standing.finish]
  split
  · exact settled_ok ()
  · exact settled_error rfl

end PrivateQuery
