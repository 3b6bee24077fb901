import PrivateQuery.Privacy.Calibration
import PrivateQuery.Proofs.Outcome

/-!
# The search for a scale, test by test

The three loops of the search as one machine. A position says which scale is tested next, and the
answer of the test leads on to another position or to an end (`Onward`). An answer leaves room for
one test less (`room_onward`), so every run of the machine ends, and the search is a run of it
(`search_eq`).

With a record of the scales that are tested, what every answer keeps from one position to the next
holds at the last test of a run (`visit_last`, and `search_last` for tests that do not look back).
Over any scalars, also where an interval cannot shrink any more, the search tests at most two scales
more than it has steps, whatever the answers are (`search_bounded`).
-/
namespace PrivateQuery

namespace Calibration

variable {S : Type} [Scalar S]

/-! ## Positions -/

/-- What is tested next, with the steps that are left after the test. -/
inductive Position (S : Type) where
  | raising (steps : Nat) (scale : S)
  /-- The upper scale is accepted, and the next one is half of it. -/
  | lowering (steps : Nat) (upper next : S)
  /-- The upper scale is accepted, and the lower one is refused. -/
  | bisecting (steps : Nat) (upper lower : S)

/-- How a search ends that has begun. -/
inductive Ending (S : Type) where
  /-- The scale is accepted, and one that is near enough below it is refused. -/
  | narrow (scale : S)
  /-- Even this scale is accepted, and it is not positive. -/
  | zero (scale : S)
  /-- No step is left, and this is the least scale that is accepted by then. -/
  | exhausted (scale : S)
  | failed (failure : Failure S)

namespace Position

def middle (upper lower : S) : S := lower + Scalar.half (upper - lower)

def scale : Position S → S
  | raising _ scale => scale
  | lowering _ _ next => next
  | bisecting _ upper lower => middle upper lower

/-- Go on in an interval, unless it is narrow or no step is left. -/
def within (tolerance : S) (steps : Nat) (upper lower : S) : Position S ⊕ Ending S :=
  if tolerance * upper < upper - lower then
    match steps with
    | 0 => .inr (.exhausted upper)
    | steps + 1 => .inl (.bisecting steps upper lower)
  else .inr (.narrow upper)

/-- Where the answer of the test leads. -/
def next (tolerance : S) (accepted : Bool) : Position S → Position S ⊕ Ending S
  | raising steps scale =>
    if accepted then .inl (.lowering steps scale (Scalar.half scale))
    else
      match steps with
      | 0 => .inr (.failed .outOfSteps)
      | steps + 1 =>
        if Scalar.isFinite (scale + scale) then .inl (.raising steps (scale + scale))
        else .inr (.failed .outOfRange)
  | lowering steps upper next =>
    if accepted then
      match steps with
      | 0 => .inr (.exhausted next)
      | steps + 1 =>
        if 0 < next then .inl (.lowering steps next (Scalar.half next)) else .inr (.zero next)
    else within tolerance steps upper next
  | bisecting steps upper lower =>
    if accepted then within tolerance steps (middle upper lower) lower
    else within tolerance steps upper (middle upper lower)

/-- The interval between an accepted and a refused scale that an answer leaves. -/
inductive Brackets : Bool → Position S → (steps : Nat) → (upper lower : S) → Prop where
  | found {steps : Nat} {upper next : S} :
      Brackets false (.lowering steps upper next) steps upper next
  | lowered {steps : Nat} {upper lower : S} :
      Brackets true (.bisecting steps upper lower) steps (middle upper lower) lower
  | lifted {steps : Nat} {upper lower : S} :
      Brackets false (.bisecting steps upper lower) steps upper (middle upper lower)

/-- The rules of the search: what an answer leads to. -/
inductive Onward (tolerance : S) : Bool → Position S → Position S ⊕ Ending S → Prop where
  | turned {steps : Nat} {scale : S} : Onward tolerance true (.raising steps scale)
      (.inl (.lowering steps scale (Scalar.half scale)))
  | doubled {steps : Nat} {scale : S} (finite : Scalar.isFinite (scale + scale) = true) :
      Onward tolerance false (.raising (steps + 1) scale) (.inl (.raising steps (scale + scale)))
  | outOfRange {steps : Nat} {scale : S} (infinite : ¬ Scalar.isFinite (scale + scale) = true) :
      Onward tolerance false (.raising (steps + 1) scale) (.inr (.failed .outOfRange))
  | outOfSteps {scale : S} :
      Onward tolerance false (.raising 0 scale) (.inr (.failed .outOfSteps))
  | halved {steps : Nat} {upper next : S} (positive : 0 < next) :
      Onward tolerance true (.lowering (steps + 1) upper next)
        (.inl (.lowering steps next (Scalar.half next)))
  | zero {steps : Nat} {upper next : S} (nonpos : ¬ 0 < next) :
      Onward tolerance true (.lowering (steps + 1) upper next) (.inr (.zero next))
  | exhausted {upper next : S} :
      Onward tolerance true (.lowering 0 upper next) (.inr (.exhausted next))
  | bisected {accepted : Bool} {p : Position S} {steps : Nat} {upper lower : S}
      (brackets : Brackets accepted p (steps + 1) upper lower)
      (wide : tolerance * upper < upper - lower) :
      Onward tolerance accepted p (.inl (.bisecting steps upper lower))
  | cut {accepted : Bool} {p : Position S} {upper lower : S}
      (brackets : Brackets accepted p 0 upper lower) (wide : tolerance * upper < upper - lower) :
      Onward tolerance accepted p (.inr (.exhausted upper))
  | narrow {accepted : Bool} {p : Position S} {steps : Nat} {upper lower : S}
      (brackets : Brackets accepted p steps upper lower)
      (near : ¬ tolerance * upper < upper - lower) :
      Onward tolerance accepted p (.inr (.narrow upper))

theorem onward_within {tolerance upper lower : S} {accepted : Bool} {p : Position S} {steps : Nat}
    (brackets : Brackets accepted p steps upper lower) :
    Onward tolerance accepted p (within tolerance steps upper lower) := by
  unfold within
  split
  · rename_i wide
    cases steps with
    | zero => exact .cut brackets wide
    | succ steps => exact .bisected brackets wide
  · rename_i near
    exact .narrow brackets near

theorem onward_next (tolerance : S) (accepted : Bool) (p : Position S) :
    Onward tolerance accepted p (p.next tolerance accepted) := by
  cases p with
  | raising steps scale =>
    cases accepted with
    | true => exact .turned
    | false =>
      cases steps with
      | zero => exact .outOfSteps
      | succ steps =>
        dsimp only [next]
        rw [if_neg Bool.false_ne_true]
        split
        · rename_i finite
          exact .doubled finite
        · rename_i infinite
          exact .outOfRange infinite
  | lowering steps upper low =>
    cases accepted with
    | true =>
      cases steps with
      | zero => exact .exhausted
      | succ steps =>
        dsimp only [next]
        rw [if_pos rfl]
        split
        · rename_i positive
          exact .halved positive
        · rename_i nonpos
          exact .zero nonpos
    | false => exact onward_within .found
  | bisecting steps upper lower =>
    cases accepted with
    | true => exact onward_within .lowered
    | false => exact onward_within .lifted

/-- The most tests that are still to come. -/
def room : Position S → Nat
  | raising steps _ => steps + 2
  | lowering steps _ _ => steps + 1
  | bisecting steps _ _ => steps + 1

/-- **`room_onward`**: an answer that does not end the search leaves room for one test less. -/
theorem room_onward {tolerance : S} {accepted : Bool} {p q : Position S}
    (onward : Onward tolerance accepted p (.inl q)) : p.room = q.room + 1 := by
  cases onward with
  | turned => rfl
  | doubled finite => rfl
  | halved positive => rfl
  | bisected brackets wide => cases brackets <;> rfl

theorem room_next {tolerance : S} {accepted : Bool} {p q : Position S}
    (h : p.next tolerance accepted = .inl q) : q.room < p.room := by
  have onward := onward_next tolerance accepted p
  rw [h] at onward
  exact Nat.lt_of_lt_of_eq (Nat.lt_succ_self _) (room_onward onward).symm

/-! ## Runs -/

section
variable {m : Type → Type} [Monad m]

/-- Test scale after scale until the end. -/
def run (test : S → m Bool) (tolerance : S) (p : Position S) : m (Ending S) := do
  let accepted ← test p.scale
  match _h : p.next tolerance accepted with
  | .inl q => q.run test tolerance
  | .inr ending => return ending
termination_by p.room
decreasing_by exact room_next _h

/-- Go on to the end. -/
def proceed (test : S → m Bool) (tolerance : S) : Position S ⊕ Ending S → m (Ending S)
  | .inl p => p.run test tolerance
  | .inr ending => return ending

theorem run_eq (test : S → m Bool) (tolerance : S) (p : Position S) : p.run test tolerance =
    test p.scale >>= fun accepted => proceed test tolerance (p.next tolerance accepted) := by
  rw [run]
  refine bind_congr fun accepted => ?_
  split <;> simp_all [proceed]

end

end Position

open Position

section
variable {m : Type → Type} [Monad m]

/-- The scale of an ending, or its failure. -/
def Ending.answer (fail : Failure S → m S) : Ending S → m S
  | narrow scale => return scale
  | zero scale => return scale
  | exhausted scale => return scale
  | failed failure => fail failure

variable [LawfulMonad m] {test : S → m Bool} {tolerance : S}

theorem bisect_eq (fail : Failure S → m S) (steps : Nat) (upper lower : S) :
    bisect test tolerance steps upper lower =
      proceed test tolerance (within tolerance steps upper lower) >>= Ending.answer fail := by
  induction steps generalizing upper lower with
  | zero =>
    unfold within
    split <;> simp [bisect, proceed, Ending.answer]
  | succ steps ih =>
    unfold bisect within
    split
    · rw [proceed, run_eq, bind_assoc]
      refine bind_congr fun accepted => ?_
      cases accepted <;> simp [ih, next, middle]
    · simp [proceed, Ending.answer]

theorem lower_eq (fail : Failure S → m S) (steps : Nat) (upper low : S) :
    lower test tolerance steps upper low =
      (Position.lowering steps upper low).run test tolerance >>= Ending.answer fail := by
  induction steps generalizing upper low with
  | zero =>
    rw [lower, run_eq, bind_assoc]
    refine bind_congr fun accepted => ?_
    cases accepted with
    | true => simp [next, proceed, Ending.answer]
    | false =>
      have narrowed : bisect test tolerance 0 upper low =
          proceed test tolerance (within tolerance 0 upper low) >>= Ending.answer fail :=
        bisect_eq fail 0 upper low
      simpa [next, bisect] using narrowed
  | succ steps ih =>
    rw [lower, run_eq, bind_assoc]
    refine bind_congr fun accepted => ?_
    cases accepted with
    | true =>
      by_cases positive : 0 < low
      · simp [next, proceed, positive, ih]
      · simp [next, proceed, positive, Ending.answer]
    | false => simp [next, bisect_eq fail]

theorem raise_eq {fail : {α : Type} → Failure S → m α}
    (cuts : ∀ {α β : Type} (failure : Failure S) (f : α → m β), fail failure >>= f = fail failure)
    (steps : Nat) (scale : S) :
    (raise fail test steps scale >>= fun found =>
        lower test tolerance found.2 found.1 (Scalar.half found.1)) =
      (Position.raising steps scale).run test tolerance >>= Ending.answer fail := by
  induction steps generalizing scale with
  | zero =>
    rw [raise, run_eq, bind_assoc, bind_assoc]
    refine bind_congr fun accepted => ?_
    cases accepted with
    | true => simp [next, proceed, lower_eq fail]
    | false => simp [next, proceed, Ending.answer, cuts]
  | succ steps ih =>
    rw [raise, run_eq, bind_assoc, bind_assoc]
    refine bind_congr fun accepted => ?_
    cases accepted with
    | true => simp [next, proceed, lower_eq fail]
    | false =>
      by_cases finite : Scalar.isFinite (scale + scale) = true
      · simp [next, proceed, finite, ih]
      · simp [next, proceed, finite, Ending.answer, cuts]

/-- **`search_eq`**: the search is the run that starts by testing one. -/
theorem search_eq {fail : {α : Type} → Failure S → m α}
    (cuts : ∀ {α β : Type} (failure : Failure S) (f : α → m β), fail failure >>= f = fail failure)
    (positive : 0 < tolerance) (steps : Nat) : search (m := m) fail test tolerance steps =
      (Position.raising steps 1).run test tolerance >>= Ending.answer fail := by
  rw [search, if_pos positive]
  exact raise_eq cuts steps 1

end

/-! ## Records -/

variable {ε : Type}

/-- A test with a record of what it is asked, which its answers may go by. -/
def recorded (test : List S → S → Except ε Bool) (scale : S) : ExceptT ε (StateM (List S)) Bool :=
  fun asked => (test asked scale, asked ++ [scale])

/-- How a run from a position ends, and the record by then. -/
def visit (test : List S → S → Except ε Bool) (tolerance : S) (p : Position S) (asked : List S) :
    Except ε (Ending S) × List S :=
  p.run (recorded test) tolerance asked

theorem visit_eq (test : List S → S → Except ε Bool) (tolerance : S) (p : Position S)
    (asked : List S) : visit test tolerance p asked =
      match test asked p.scale with
      | .error error => (.error error, asked ++ [p.scale])
      | .ok accepted =>
        match p.next tolerance accepted with
        | .inl q => visit test tolerance q (asked ++ [p.scale])
        | .inr ending => (.ok ending, asked ++ [p.scale]) := by
  unfold visit
  rw [run_eq]
  cases h : test asked p.scale with
  | error error =>
    simp only [recorded, bind, ExceptT.bind, ExceptT.mk, ExceptT.bindCont, StateT.bind, h]
    rfl
  | ok accepted =>
    simp only [recorded, bind, ExceptT.bind, ExceptT.mk, ExceptT.bindCont, StateT.bind, h]
    cases p.next tolerance accepted <;> rfl

/-- How a run ends with the answer of its last test. -/
inductive Last (answer : Except ε Bool) (tolerance : S) (p : Position S) :
    Except ε (Ending S) → Prop where
  | failed {error : ε} (refused : answer = .error error) : Last answer tolerance p (.error error)
  | ended {accepted : Bool} {ending : Ending S} (answered : answer = .ok accepted)
      (onward : Onward tolerance accepted p (.inr ending)) : Last answer tolerance p (.ok ending)

/-- **`visit_last`**: what every answer keeps from one position to the next holds at the last test
of a run. -/
theorem visit_last (test : List S → S → Except ε Bool) (tolerance : S)
    {I : List S → Position S → Prop}
    (keeps : ∀ {asked : List S} {p q : Position S} {accepted : Bool}, I asked p →
      test asked p.scale = .ok accepted → Onward tolerance accepted p (.inl q) →
      I (asked ++ [p.scale]) q)
    (asked : List S) (p : Position S) (start : I asked p) :
    ∃ before last, I before last ∧ (visit test tolerance p asked).2 = before ++ [last.scale] ∧
      Last (test before last.scale) tolerance last (visit test tolerance p asked).1 := by
  rw [visit_eq]
  cases answer : test asked p.scale with
  | error error => exact ⟨asked, p, start, rfl, .failed answer⟩
  | ok accepted =>
    have onward := onward_next tolerance accepted p
    dsimp only
    cases led : p.next tolerance accepted with
    | inr ending => exact ⟨asked, p, start, rfl, .ended answer (led ▸ onward)⟩
    | inl q =>
      have less := room_next led
      have kept : I (asked ++ [p.scale]) q := keeps start answer (led ▸ onward)
      exact visit_last test tolerance keeps (asked ++ [p.scale]) q kept
termination_by p.room

/-! ## The search with its record -/

/-- The answer of the search and the scales that it tests, in this order. -/
def trace (e : Failure S → ε) (test : List S → S → Except ε Bool) (tolerance : S) (steps : Nat) :
    Except ε S × List S :=
  search (m := ExceptT ε (StateM (List S))) (fun failure => throw (e failure)) (recorded test)
    tolerance steps []

/-- The scale of an ending, or its failure as an error. -/
def Ending.toExcept (e : Failure S → ε) : Ending S → Except ε S :=
  Ending.answer fun failure => .error (e failure)

theorem trace_eq (e : Failure S → ε) (test : List S → S → Except ε Bool) {tolerance : S}
    (positive : 0 < tolerance) (steps : Nat) : trace e test tolerance steps =
      ((visit test tolerance (.raising steps 1) []).1 >>= Ending.toExcept e,
        (visit test tolerance (.raising steps 1) []).2) := by
  unfold trace visit
  rw [search_eq (fun _ _ => rfl) positive]
  simp only [bind, ExceptT.bind, ExceptT.mk, StateT.bind]
  cases (Position.raising steps 1).run (recorded test) tolerance [] with
  | mk ended asked =>
    cases ended with
    | error error => rfl
    | ok ending => cases ending <;> rfl

theorem trace_of_not_pos (e : Failure S → ε) (test : List S → S → Except ε Bool) {tolerance : S}
    (nonpos : ¬ 0 < tolerance) (steps : Nat) :
    trace e test tolerance steps = (.error (e (.tolerance tolerance)), []) := by
  rw [trace, search, if_neg nonpos]
  rfl

/-! ## Tests without a memory -/

theorem visit_fst (test : S → Except ε Bool) (tolerance : S) (p : Position S) (asked : List S) :
    (visit (fun _ => test) tolerance p asked).1 = p.run test tolerance := by
  rw [visit_eq, run_eq]
  cases test p.scale with
  | error error => rfl
  | ok accepted =>
    change _ = proceed test tolerance (p.next tolerance accepted)
    dsimp only
    cases led : p.next tolerance accepted with
    | inr ending => rfl
    | inl q =>
      have less := room_next led
      exact visit_fst test tolerance q _
termination_by p.room

/-- **`trace_fst`**: recording the scales does not change the answer. -/
theorem trace_fst (e : Failure S → ε) (test : S → Except ε Bool) (tolerance : S) (steps : Nat) :
    (trace e (fun _ => test) tolerance steps).1 =
      search (m := Except ε) (fun failure => .error (e failure)) test tolerance steps := by
  by_cases positive : 0 < tolerance
  · rw [trace_eq e _ positive, search_eq (fun _ _ => rfl) positive, visit_fst]
    rfl
  · rw [trace_of_not_pos e _ positive, search, if_neg positive]

/-- **`search_last`**: for a test that does not look back, what every answer keeps from one position
to the next holds at the last test, and the end that this test leads to is the answer of the
search. -/
theorem search_last (e : Failure S → ε) {test : S → Except ε Bool} {tolerance : S} {steps : Nat}
    {I : Position S → Prop}
    (keeps : ∀ {p q : Position S} {accepted : Bool}, I p → test p.scale = .ok accepted →
      Onward tolerance accepted p (.inl q) → I q)
    (start : I (.raising steps 1)) (positive : 0 < tolerance) :
    ∃ last ended, I last ∧ Last (test last.scale) tolerance last ended ∧
      search (m := Except ε) (fun failure => .error (e failure)) test tolerance steps =
        ended >>= Ending.toExcept e := by
  obtain ⟨before, last, kept, -, final⟩ := visit_last (fun _ => test) tolerance
    (I := fun _ p => I p) (fun kept answer onward => keeps kept answer onward) [] _ start
  refine ⟨last, _, kept, final, ?_⟩
  rw [← trace_fst, trace_eq e _ positive]

theorem search_of_not_pos {fail : {α : Type} → Failure S → Except ε α} {test : S → Except ε Bool}
    {tolerance : S} (nonpos : ¬ 0 < tolerance) (steps : Nat) :
    search (m := Except ε) fail test tolerance steps = fail (.tolerance tolerance) := by
  rw [search, if_neg nonpos]

/-! ## The number of tests -/

/-- What is tested and what may still be tested add up to the same, from the first test on. -/
theorem visit_room (test : List S → S → Except ε Bool) (tolerance : S) (asked : List S)
    (p : Position S) : ∃ before last, before.length + last.room = asked.length + p.room ∧
      (visit test tolerance p asked).2 = before ++ [last.scale] ∧
      Last (test before last.scale) tolerance last (visit test tolerance p asked).1 := by
  refine visit_last test tolerance
    (I := fun before q => before.length + q.room = asked.length + p.room)
    (fun {before q r accepted} sum _ onward => ?_) asked p rfl
  rw [room_onward onward] at sum
  rw [List.length_append, List.length_singleton]
  omega

/-- **`search_bounded`**: the search ends after at most two tests more than it has steps, whatever
the answers go by. -/
theorem search_bounded (e : Failure S → ε) (test : List S → S → Except ε Bool) (tolerance : S)
    (steps : Nat) : (trace e test tolerance steps).2.length ≤ steps + 2 := by
  by_cases positive : 0 < tolerance
  · obtain ⟨before, last, sum, tested, -⟩ := visit_room test tolerance [] (.raising steps 1)
    have one : 0 < last.room := by cases last <;> simp [room]
    rw [trace_eq e test positive, tested, List.length_append, List.length_singleton]
    have whole : (Position.raising steps (1 : S)).room = steps + 2 := rfl
    rw [List.length_nil, whole] at sum
    omega
  · rw [trace_of_not_pos e test positive]
    exact Nat.zero_le _

-- Without steps, one is tested and then its half.
example : (trace id (fun _ (_ : Float) => .ok true) 1 0).2.length = 0 + 2 := by decide +kernel

end Calibration

end PrivateQuery
