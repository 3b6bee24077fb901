import PrivateQuery.Fault

/-!
# Answers of composed computations

When a composed computation answers, each of its parts does. One that is done for each element of a
list fails with the error of the first element that has one (`mapM_eq_error_iff`). An attempt returns
when it neither crashes nor stalls (`Attempt.Returns`).
-/
namespace PrivateQuery

section
variable {ε ε' α β : Type}

theorem bind_eq_ok {x : Except ε α} {f : α → Except ε β} {b : β} :
    x >>= f = .ok b ↔ ∃ a, x = .ok a ∧ f a = .ok b := by
  cases x <;> simp [bind, Except.bind]

@[simp] theorem mapError_ok (f : ε → ε') (a : α) : (Except.ok a).mapError f = .ok a := rfl

@[simp] theorem mapError_error (f : ε → ε') (e : ε) :
    (Except.error e : Except ε α).mapError f = .error (f e) := rfl

theorem mapError_eq_ok {x : Except ε α} {f : ε → ε'} {a : α} :
    x.mapError f = .ok a ↔ x = .ok a := by
  cases x <;> simp

theorem map_eq_ok {x : Except ε α} {f : α → β} {b : β} :
    x.map f = .ok b ↔ ∃ a, x = .ok a ∧ f a = b := by
  cases x <;> simp [Except.map]

theorem toOption_eq_some {x : Except ε α} {a : α} : x.toOption = some a ↔ x = .ok a := by
  cases x <;> simp [Except.toOption]

theorem pure_eq_ok {a b : α} : (pure a : Except ε α) = .ok b ↔ a = b := by
  simp [pure, Except.pure]

theorem bind_eq_error {x : Except ε α} {f : α → Except ε β} {e : ε} :
    x >>= f = .error e ↔ x = .error e ∨ ∃ a, x = .ok a ∧ f a = .error e := by
  cases x <;> simp [bind, Except.bind]

theorem pure_ne_error {a : α} {e : ε} : (pure a : Except ε α) ≠ .error e := by
  simp [pure, Except.pure]

end

/-! ## One computation for each element of a list -/

section
variable {ε α β : Type} {f : α → Except ε β} {as : List α}

/-- The error of the first element of a list that has one. -/
inductive FirstError (f : α → Except ε β) : List α → ε → Prop where
  | here {a : α} {as : List α} {e : ε} (failed : f a = .error e) : FirstError f (a :: as) e
  | later {a : α} {as : List α} {b : β} {e : ε} (done : f a = .ok b) (rest : FirstError f as e) :
      FirstError f (a :: as) e

theorem mapM_eq_error_iff {e : ε} : as.mapM f = .error e ↔ FirstError f as e := by
  induction as with
  | nil => exact ⟨fun failed => absurd failed pure_ne_error, nofun⟩
  | cons a as ih =>
    simp only [List.mapM_cons, bind_eq_error, pure_ne_error, and_false, exists_false, or_false, ih]
    constructor
    · rintro (failed | ⟨b, done, rest⟩)
      · exact .here failed
      · exact .later done rest
    · rintro (failed | ⟨done, rest⟩)
      · exact .inl failed
      · exact .inr ⟨_, done, rest⟩

theorem mapM_cons_eq_ok {a : α} {bs : List β} : (a :: as).mapM f = .ok bs ↔
    ∃ b rest, f a = .ok b ∧ as.mapM f = .ok rest ∧ bs = b :: rest := by
  simp only [List.mapM_cons, bind_eq_ok, pure_eq_ok]
  constructor
  · rintro ⟨b, first, rest, others, rfl⟩
    exact ⟨b, rest, first, others, rfl⟩
  · rintro ⟨b, rest, first, others, rfl⟩
    exact ⟨b, first, rest, others, rfl⟩

theorem exists_of_mapM {bs : List β} (done : as.mapM f = .ok bs) {b : β} (mem : b ∈ bs) :
    ∃ a ∈ as, f a = .ok b := by
  induction as generalizing bs with
  | nil =>
    obtain rfl := Except.ok.inj done
    cases mem
  | cons a as ih =>
    obtain ⟨b', rest, first, others, rfl⟩ := mapM_cons_eq_ok.1 done
    rcases List.mem_cons.1 mem with rfl | mem
    · exact ⟨a, List.mem_cons_self, first⟩
    · obtain ⟨a', own, found⟩ := ih others mem
      exact ⟨a', List.mem_cons_of_mem a own, found⟩

theorem exists_mapM (each : ∀ a ∈ as, ∃ b, f a = .ok b) : ∃ bs, as.mapM f = .ok bs := by
  induction as with
  | nil => exact ⟨[], rfl⟩
  | cons a as ih =>
    obtain ⟨b, first⟩ := each a List.mem_cons_self
    obtain ⟨rest, others⟩ := ih fun other mem => each other (List.mem_cons_of_mem a mem)
    exact ⟨b :: rest, mapM_cons_eq_ok.2 ⟨b, rest, first, others, rfl⟩⟩

end

namespace Attempt

variable {ε ε' α β : Type}

theorem ofExcept_eq_ok {x : Except ε α} {a : α} : ofExcept x = .ok a ↔ x = .ok a := by
  cases x <;> simp [ofExcept, raise]

theorem mapError_eq_ok {x : Attempt ε α} {f : ε → ε'} {a : α} :
    mapError f x = .ok a ↔ x = .ok a := by
  cases x <;> simp [mapError]

/-- Whether an attempt crashes can be told without comparing answers or errors. -/
instance decidableCrashed (x : Attempt ε α) : Decidable (x = .error .crashed) :=
  match x with
  | .ok _ => isFalse (by simp)
  | .error (.raised _) => isFalse (by simp)
  | .error .crashed => isTrue rfl
  | .error .stalled => isFalse (by simp)

/-- Whether an attempt ends in an answer or an error. -/
def Returns (x : Attempt ε α) : Prop := x ≠ .error .crashed ∧ x ≠ .error .stalled

theorem returns_ok (a : α) : Returns (.ok a : Attempt ε α) := by simp [Returns]

theorem returns_ofExcept (x : Except ε α) : Returns (ofExcept x) := by
  cases x <;> simp [Returns, ofExcept, raise]

theorem Returns.bind {x : Attempt ε α} {f : α → Attempt ε β} (hx : Returns x)
    (hf : ∀ a, x = .ok a → Returns (f a)) : Returns (x >>= f) := by
  cases x with
  | ok a => exact hf a rfl
  | error fault => simpa [Returns, Bind.bind, Except.bind] using hx

theorem Returns.raised {x : Attempt ε α} {fault : Fault ε} (hx : Returns x)
    (h : x = .error fault) : ∃ e, fault = .raised e := by
  subst h
  cases fault with
  | raised e => exact ⟨e, rfl⟩
  | crashed => exact absurd rfl hx.1
  | stalled => exact absurd rfl hx.2

end Attempt

end PrivateQuery
