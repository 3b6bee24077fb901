import PrivateQuery.Proofs.Machine.Moves

/-!
# Runs as moves

A run is a chain of moves whose events the pass observes without an objection, and the chain does
not depend on the pass (`run_eq_ok_iff`); an objection to these events is how the run ends
(`run_objected`). So whatever passes agree on the events of a chain agree on the run;
`Pass.recording` is the one that also keeps a record of what it is called with.
-/
namespace PrivateQuery

variable {σ ε : Type} {terms : Terms}

/-- The moves that operations make one after the other, with all their events. -/
inductive Moves (terms : Terms) : Standing → List Operation → List Event → Standing → Prop where
  | nil {s : Standing} : Moves terms s [] [] s
  | cons {s s' : Standing} {operation : Operation} {operations : List Operation} {move : Move}
      {events : List Event} (accepted : Accepted terms s operation move)
      (rest : Moves terms move.next operations events s') :
      Moves terms s (operation :: operations) (move.events ++ events) s'

theorem moves_single_iff {s s' : Standing} {operation : Operation} {events : List Event} :
    Moves terms s [operation] events s' ↔ Accepted terms s operation ⟨events, s'⟩ := by
  constructor
  · intro moves
    cases moves with
    | cons accepted rest =>
      cases rest
      simpa using accepted
  · intro accepted
    simpa using Moves.cons accepted .nil

theorem moves_append_iff {s s' : Standing} {first second : List Operation} {events : List Event} :
    Moves terms s (first ++ second) events s' ↔
      ∃ middle before after, Moves terms s first before middle ∧
        Moves terms middle second after s' ∧ events = before ++ after := by
  induction first generalizing s events with
  | nil =>
    constructor
    · intro moves
      exact ⟨s, [], events, .nil, moves, rfl⟩
    · rintro ⟨middle, before, after, moves, moves', rfl⟩
      cases moves
      exact moves'
  | cons operation first ih =>
    constructor
    · intro moves
      cases moves with
      | cons accepted rest =>
        obtain ⟨middle, before, after, moves, moves', rfl⟩ := ih.1 rest
        exact ⟨middle, _, after, .cons accepted moves, moves', by simp⟩
    · rintro ⟨middle, before, after, moves, moves', rfl⟩
      cases moves with
      | cons accepted rest =>
        rw [List.append_assoc]
        exact .cons accepted (ih.2 ⟨middle, _, after, rest, moves', rfl⟩)

/-! ## What a pass makes of the events -/

namespace Pass

theorem observeAll_append (pass : Pass σ ε) (events more : List Event) (state : σ) :
    pass.observeAll (events ++ more) state =
      match pass.observeAll events state with
      | (.ok (), state) => pass.observeAll more state
      | (.error e, state) => (.error e, state) := by
  induction events generalizing state with
  | nil => rfl
  | cons event events ih =>
    simp only [List.cons_append, observeAll]
    cases pass.observe event state with
    | mk outcome state' =>
      cases outcome with
      | ok u => exact ih state'
      | error e => rfl

theorem observeAll_append_eq_ok_iff {pass : Pass σ ε} {events more : List Event} {state state' : σ} :
    pass.observeAll (events ++ more) state = (.ok (), state') ↔
      ∃ middle, pass.observeAll events state = (.ok (), middle) ∧
        pass.observeAll more middle = (.ok (), state') := by
  rw [observeAll_append]
  cases pass.observeAll events state with
  | mk outcome middle => cases outcome <;> simp

/-- The pass that also records what it is called with, calls that it objects to included. -/
def recording (pass : Pass σ ε) : Pass (σ × List Event) ε where
  observe event s :=
    match pass.observe event s.1 with
    | (outcome, state) => (outcome, state, s.2 ++ [event])
  ofError := pass.ofError

theorem recording_observe (pass : Pass σ ε) (event : Event) (state : σ) (record : List Event) :
    pass.recording.observe event (state, record) =
      ((pass.observe event state).1, (pass.observe event state).2, record ++ [event]) := rfl

theorem recording_observeAll_eq_ok {pass : Pass σ ε} {events : List Event} {state state' : σ}
    (h : pass.observeAll events state = (.ok (), state')) (record : List Event) :
    pass.recording.observeAll events (state, record) = (.ok (), state', record ++ events) := by
  induction events generalizing state record with
  | nil =>
    cases h
    simp [observeAll]
  | cons event events ih =>
    simp only [observeAll, recording_observe] at h ⊢
    cases seen : pass.observe event state with
    | mk outcome middle =>
      rw [seen] at h
      cases outcome with
      | ok u =>
        have rest := ih h (record ++ [event])
        rw [List.append_assoc] at rest
        exact rest
      | error e => simp at h

end Pass

/-! ## Runs -/

namespace Course

variable {pass : Pass σ ε} {c c' : Course σ}

theorem operate_eq_ok_iff {operation : Operation} :
    c.operate pass terms operation = (.ok (), c') ↔
      ∃ events, Accepted terms c.standing operation ⟨events, c'.standing⟩ ∧
        pass.observeAll events c.state = (.ok (), c'.state) := by
  unfold operate
  constructor
  · intro h
    split at h
    · simp at h
    · rename_i move accepted
      split at h
      · simp at h
      · rename_i state observed
        cases h
        exact ⟨move.events, transition_eq_ok_iff.1 accepted, observed⟩
  · rintro ⟨events, accepted, observed⟩
    rw [transition_eq_ok_iff.2 accepted]
    simp only [observed]

theorem operateAll_eq_ok_iff {operations : List Operation} :
    operateAll pass terms operations c = (.ok (), c') ↔
      ∃ events, Moves terms c.standing operations events c'.standing ∧
        pass.observeAll events c.state = (.ok (), c'.state) := by
  induction operations generalizing c with
  | nil =>
    constructor
    · intro h
      cases h
      exact ⟨[], .nil, rfl⟩
    · rintro ⟨events, moves, observed⟩
      obtain ⟨s, state⟩ := c
      obtain ⟨s', state'⟩ := c'
      cases moves
      cases observed
      rfl
  | cons operation operations ih =>
    unfold operateAll
    constructor
    · intro h
      split at h
      · rename_i middle operated
        obtain ⟨events, accepted, observed⟩ := operate_eq_ok_iff.1 operated
        obtain ⟨more, moves, observed'⟩ := ih.1 h
        exact ⟨events ++ more, .cons accepted moves,
          Pass.observeAll_append_eq_ok_iff.2 ⟨middle.state, observed, observed'⟩⟩
      · simp at h
    · rintro ⟨events, moves, observed⟩
      cases moves with
      | @cons _ _ _ _ move more accepted rest =>
        obtain ⟨state, first, last⟩ := Pass.observeAll_append_eq_ok_iff.1 observed
        have operated : c.operate pass terms operation = (.ok (), ⟨move.next, state⟩) :=
          operate_eq_ok_iff.2 ⟨move.events, accepted, first⟩
        rw [operated]
        exact ih.2 ⟨more, rest, last⟩

/-- **`run_eq_ok_iff`**: a run ends where a chain of moves ends whose events the pass observes
without an objection. -/
theorem run_eq_ok_iff {steps : List Step} :
    run pass terms steps c = .ok c' ↔
      ∃ events, Moves terms c.standing (steps.flatMap Step.operations) events c'.standing ∧
        pass.observeAll events c.state = (.ok (), c'.state) := by
  rw [← operateAll_eq_ok_iff]
  induction steps generalizing c with
  | nil =>
    simp only [run, List.flatMap_nil, operateAll]
    constructor
    · intro h
      cases h
      rfl
    · intro h
      cases h
      rfl
  | cons step steps ih =>
    have both : operateAll pass terms ((step :: steps).flatMap Step.operations) c = (.ok (), c') ↔
        ∃ middle, c.step pass terms step = (.ok (), middle) ∧
          operateAll pass terms (steps.flatMap Step.operations) middle = (.ok (), c') := by
      simp only [List.flatMap_cons, Course.step, operateAll_eq_ok_iff, moves_append_iff]
      constructor
      · rintro ⟨_, ⟨s, before, after, moves, moves', rfl⟩, observed⟩
        obtain ⟨state, first, last⟩ := Pass.observeAll_append_eq_ok_iff.1 observed
        exact ⟨⟨s, state⟩, ⟨before, moves, first⟩, after, moves', last⟩
      · rintro ⟨middle, ⟨before, moves, first⟩, after, moves', last⟩
        exact ⟨before ++ after, ⟨middle.standing, before, after, moves, moves', rfl⟩,
          Pass.observeAll_append_eq_ok_iff.2 ⟨middle.state, first, last⟩⟩
    rw [both]
    unfold run
    constructor
    · intro h
      split at h
      · rename_i middle taken
        exact ⟨middle, taken, ih.1 h⟩
      · simp at h
    · rintro ⟨middle, taken, rest⟩
      rw [taken]
      exact ih.2 rest

/-! ## Runs that end with an objection -/

theorem operateAll_objected {s s' : Standing} {operations : List Operation} {events : List Event}
    {state state' : σ} {e : ε} (moves : Moves terms s operations events s')
    (objected : pass.observeAll events state = (.error e, state')) :
    ∃ c, operateAll pass terms operations ⟨s, state⟩ = (.error e, c) := by
  induction moves generalizing state with
  | nil => cases objected
  | @cons s s' operation operations move events accepted rest ih =>
    have taken := transition_eq_ok_iff.2 accepted
    rw [Pass.observeAll_append] at objected
    cases seen : pass.observeAll move.events state with
    | mk outcome middle =>
      rw [seen] at objected
      cases outcome with
      | ok u =>
        obtain ⟨c, ended⟩ := ih objected
        exact ⟨c, by simp only [operateAll, operate, taken, seen, ended]⟩
      | error e' =>
        cases objected
        exact ⟨⟨s, state'⟩, by simp only [operateAll, operate, taken, seen]⟩

theorem run_objected {s s' : Standing} {steps : List Step} {events : List Event} {state state' : σ}
    {e : ε} (moves : Moves terms s (steps.flatMap Step.operations) events s')
    (objected : pass.observeAll events state = (.error e, state')) :
    run pass terms steps ⟨s, state⟩ = .error e := by
  induction steps generalizing s state events with
  | nil =>
    cases moves
    cases objected
  | cons step steps ih =>
    rw [List.flatMap_cons, moves_append_iff] at moves
    obtain ⟨next, before, after, first, rest, rfl⟩ := moves
    rw [Pass.observeAll_append] at objected
    cases seen : pass.observeAll before state with
    | mk outcome middle =>
      rw [seen] at objected
      cases outcome with
      | ok u =>
        have stepped : (Course.mk s state).step pass terms step = (.ok (), ⟨next, middle⟩) :=
          operateAll_eq_ok_iff.2 ⟨before, first, seen⟩
        simp only [run, stepped]
        exact ih rest objected
      | error e' =>
        cases objected
        obtain ⟨c, stepped⟩ := operateAll_objected first seen
        simp only [run, Course.step, stepped]

end Course

end PrivateQuery
