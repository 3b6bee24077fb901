import PrivateQuery.Proofs.Binary64.Arithmetic

/-!
# Quotients without a value

What is divided by zero or by an infinity is not rounded: zero by zero and an infinity by an infinity
are no number, anything else by zero is infinite, and a finite double by an infinity is zero.

Of a finite double other than zero it is known how it is unpacked once its place is known, so
numbers that compare as equal have the same quotients and differences (`div_of_place_eq`,
`sub_of_place_eq`).
-/
namespace PrivateQuery.Binary64

open Float.Model (UnpackedFloat Format)
open Float.Model.UnpackedFloat (Sign)

variable {x y : Float}

theorem read_notANumber : read (.ofModel (.pack .notANumber)) = .nan :=
  read_ofModel_pack (u := .notANumber) trivial

/-! ## Infinities -/

theorem IsNumber.infinite_of_nonneg (h : IsNumber x) (nonneg : 0 ≤ place x)
    (infinite : ¬ IsFinite x) : read x = .infinite false := by
  refine read_eq_infinite h (le_antisymm (grid_place x).le_limit ?_)
  by_contra! less
  exact infinite (h.isFinite (by rwa [abs_of_nonneg nonneg]))

theorem infinite_div_infinite {m n : Bool} (hx : read x = .infinite m) (hy : read y = .infinite n) :
    read (x / y) = .nan := by
  change read (.ofModel (.pack (UnpackedFloat.div Format.binary64 _ _))) = _
  obtain ⟨s, ux, -⟩ := unpack_infinite hx
  obtain ⟨s', uy, -⟩ := unpack_infinite hy
  rw [ux, uy]
  exact read_notANumber

theorem div_of_infinite {n : Bool} (hx : IsFinite x) (hy : read y = .infinite n) :
    IsFinite (x / y) ∧ place (x / y) = 0 := by
  have zero : ∃ s, read (x / y) = .finite s 0 (-1074) := by
    change ∃ s, read (.ofModel (.pack (UnpackedFloat.div Format.binary64 _ _))) = _
    obtain ⟨s', uy, -⟩ := unpack_infinite hy
    rcases hx.cases with ⟨s, ux, -⟩ | ⟨s, m, e, positive, ux, -⟩
    · rw [ux, uy]
      exact ⟨_, read_zero _⟩
    · rw [ux, uy]
      exact ⟨_, read_zero _⟩
  obtain ⟨s, reading⟩ := zero
  exact ⟨⟨_, _, _, reading⟩, by simp [place, reading, Reading.place]⟩

theorem sub_infinite {n : Bool} (hx : IsFinite x) (hy : read y = .infinite n) :
    read (x - y) = .infinite (!n) := by
  change read (.ofModel (.pack (UnpackedFloat.sub Format.binary64 _ _))) = _
  obtain ⟨s', uy, rfl⟩ := unpack_infinite hy
  rcases hx.cases with ⟨s, ux, -⟩ | ⟨s, m, e, positive, ux, -⟩
  · rw [ux, uy]
    cases s' <;> exact read_infinity _
  · rw [ux, uy]
    cases s' <;> exact read_infinity _

theorem infinite_add_finite {n : Bool} (hx : read x = .infinite n) (hy : IsFinite y) :
    read (x + y) = .infinite n := by
  change read (.ofModel (.pack (UnpackedFloat.add Format.binary64 _ _))) = _
  obtain ⟨s, ux, rfl⟩ := unpack_infinite hx
  rcases hy.cases with ⟨s', uy, -⟩ | ⟨s', m, e, positive, uy, -⟩ <;> rw [ux, uy]
  · exact read_infinity _
  · exact read_infinity _

theorem mul_self_infinite {n : Bool} (hx : read x = .infinite n) :
    read (x * x) = .infinite false := by
  change read (.ofModel (.pack (UnpackedFloat.mul Format.binary64 _ _))) = _
  obtain ⟨s, ux, -⟩ := unpack_infinite hx
  rw [ux]
  cases s <;> exact read_infinity _

theorem infinite_add {n : Bool} (hx : read x = .infinite n) :
    read (x + y) = .nan ∨ read (x + y) = .infinite n := by
  change read (.ofModel (.pack (UnpackedFloat.add Format.binary64 _ _))) = _ ∨
    read (.ofModel (.pack (UnpackedFloat.add Format.binary64 _ _))) = _
  obtain ⟨s, ux, rfl⟩ := unpack_infinite hx
  rw [ux]
  cases y.toModel.unpack with
  | notANumber => exact .inl read_notANumber
  | infinity s' =>
    cases s <;> cases s'
    · exact .inr (read_infinity _)
    · exact .inl read_notANumber
    · exact .inl read_notANumber
    · exact .inr (read_infinity _)
  | zero s' => exact .inr (read_infinity _)
  | finite s' m e positive => exact .inr (read_infinity _)

theorem isNumber_div (hx : IsNumber x) (nonneg : 0 ≤ place x) (hy : IsNumber y) (pos : 0 < place y)
    (inner : IsFinite x ∨ IsFinite y) : IsNumber (x / y) ∧ 0 ≤ place (x / y) := by
  by_cases finiteY : IsFinite y
  · by_cases finiteX : IsFinite x
    · have quotient := rounds_div finiteX finiteY pos.ne'
      exact ⟨quotient.isNumber, quotient.nonneg (div_nonneg nonneg pos.le)⟩
    · obtain ⟨number, top⟩ :=
        place_infinite (div_infinite (hx.infinite_of_nonneg nonneg finiteX) finiteY pos)
      exact ⟨number, top ▸ limit_pos.le⟩
  · obtain ⟨finite, zero⟩ :=
      div_of_infinite (inner.resolve_right finiteY) (hy.infinite_of_nonneg pos.le finiteY)
    exact ⟨finite.isNumber, zero.ge⟩

/-! ## Zeros -/

theorem unpack_of_place_zero (hx : IsFinite x) (px : place x = 0) :
    ∃ s, x.toModel.unpack = .zero s := by
  rcases hx.cases with ⟨s, ux, -⟩ | ⟨s, m, e, positive, ux, placed, -⟩
  · exact ⟨s, ux⟩
  · have size : (0 : ℝ) < m * 2 ^ e := by positivity
    rw [px, unpackedPlace, Reading.place] at placed
    cases s with
    | positive =>
      rw [signum_positive, one_mul] at placed
      linarith
    | negative =>
      rw [signum_negative, neg_one_mul] at placed
      linarith

theorem zero_div_zero (hx : IsFinite x) (px : place x = 0) (hy : IsFinite y) (py : place y = 0) :
    read (x / y) = .nan := by
  change read (.ofModel (.pack (UnpackedFloat.div Format.binary64 _ _))) = _
  obtain ⟨s, ux⟩ := unpack_of_place_zero hx px
  obtain ⟨s', uy⟩ := unpack_of_place_zero hy py
  rw [ux, uy]
  exact read_notANumber

theorem div_zero (hx : IsFinite x) (px : place x ≠ 0) (hy : IsFinite y) (py : place y = 0) :
    ∃ n, read (x / y) = .infinite n := by
  change ∃ n, read (.ofModel (.pack (UnpackedFloat.div Format.binary64 _ _))) = _
  obtain ⟨s', uy⟩ := unpack_of_place_zero hy py
  rcases hx.cases with ⟨s, -, zero⟩ | ⟨s, m, e, positive, ux, -⟩
  · exact absurd zero px
  · rw [ux, uy]
    exact ⟨_, read_infinity _⟩

/-! ## Equal numbers -/

theorem magnitude_inj {m n : ℕ} {d e : ℤ} {negative negative' : Bool}
    (hm : (Reading.finite negative m d).Canonical) (hn : (Reading.finite negative' n e).Canonical)
    (same : (m : ℝ) * 2 ^ d = n * 2 ^ e) : m = n ∧ d = e := by
  have compared := compare_magnitude hm.1 hn.1 hm.2 hn.2
  rw [(cmp_eq_eq_iff _ _).2 same, Ordering.then_eq_eq] at compared
  exact ⟨compare_eq_iff_eq.1 compared.2, compare_eq_iff_eq.1 compared.1⟩

theorem unpackedPlace_inj {m n : ℕ} {d e : ℤ} {s s' : Sign} (hm : 0 < m) (hn : 0 < n)
    (same : unpackedPlace s m d = unpackedPlace s' n e) :
    s = s' ∧ (m : ℝ) * 2 ^ d = n * 2 ^ e := by
  have sizeM : (0 : ℝ) < m * 2 ^ d := by positivity
  have sizeN : (0 : ℝ) < n * 2 ^ e := by positivity
  cases s <;> cases s' <;>
    simp only [unpackedPlace, Reading.place, signum_positive, signum_negative, one_mul,
      neg_one_mul] at same
  · exact ⟨rfl, neg_inj.1 same⟩
  · linarith
  · linarith
  · exact ⟨rfl, same⟩

theorem unpack_of_place_eq (hx : IsFinite x) (hy : IsFinite y) (same : place x = place y)
    (nonzero : place x ≠ 0) : x.toModel.unpack = y.toModel.unpack := by
  rcases hx.cases with ⟨s, -, zero⟩ | ⟨s, m, d, positive, ux, px, cx⟩
  · exact absurd zero nonzero
  rcases hy.cases with ⟨s', -, zero⟩ | ⟨s', n, e, positive', uy, py, cy⟩
  · exact absurd (same.trans zero) nonzero
  rw [px, py] at same
  obtain ⟨rfl, size⟩ := unpackedPlace_inj positive positive' same
  obtain ⟨rfl, rfl⟩ := magnitude_inj cx cy size
  rw [ux, uy]

theorem div_of_place_eq (hx : IsFinite x) (hy : IsFinite y) (same : place x = place y)
    (nonzero : place x ≠ 0) (z : Float) : x / z = y / z := by
  change Float.ofModel (.pack (UnpackedFloat.div Format.binary64 _ _)) =
    Float.ofModel (.pack (UnpackedFloat.div Format.binary64 _ _))
  rw [unpack_of_place_eq hx hy same nonzero]

theorem sub_of_place_eq (hx : IsFinite x) (hy : IsFinite y) (same : place x = place y)
    (nonzero : place x ≠ 0) (z : Float) : z - x = z - y := by
  change Float.ofModel (.pack (UnpackedFloat.sub Format.binary64 _ _)) =
    Float.ofModel (.pack (UnpackedFloat.sub Format.binary64 _ _))
  rw [unpack_of_place_eq hx hy same nonzero]

end PrivateQuery.Binary64
