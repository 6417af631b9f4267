import Mathlib.Algebra.Order.Field.Basic
import Mathlib.Tactic.FieldSimp
import Mathlib.Tactic.Linarith
import Mathlib.Tactic.Ring

/-!
Symmetric two by two covariances over an ordered field: prediction with constant
velocity and process noise, capping the entries, and the update by a measurement of
the first coordinate. Prediction and update keep a covariance semidefinite. Capping
keeps it so exactly where the cap spares the determinant.
-/

namespace Ccflare.Covariance

-- The proof that all definitions with this numeral share.
instance two_atLeastTwo : Nat.AtLeastTwo 2 := ⟨Nat.le_refl 2⟩

variable {K : Type} [Field K] [LinearOrder K]

/-- The entries on and above the diagonal. -/
structure Symmetric (K : Type) where
  a : K
  b : K
  c : K
  deriving DecidableEq

def Symmetric.Semidefinite (p : Symmetric K) : Prop :=
  0 ≤ p.a ∧ 0 ≤ p.c ∧ p.b ^ 2 ≤ p.a * p.c

/-- What prediction, capping and updates keep even where the determinant is lost. -/
def Symmetric.Nonneg (p : Symmetric K) : Prop :=
  0 ≤ p.a ∧ 0 ≤ p.b ∧ 0 ≤ p.c

/-- `F P Fᵀ + Q` for a step of length `dt` with noise `q` on the velocity. -/
def Symmetric.predict (dt q : K) (p : Symmetric K) : Symmetric K :=
  ⟨p.a + 2 * dt * p.b + dt * dt * p.c, p.b + dt * p.c, p.c + q⟩

def Symmetric.cap (limit : K) (p : Symmetric K) : Symmetric K :=
  ⟨min p.a limit, max (-limit) (min p.b limit), min p.c limit⟩

/-- A cap that takes effect on one variance only has to leave room for the covariance. -/
def Symmetric.Spared (limit : K) (p : Symmetric K) : Prop :=
  (limit < p.a → p.c < limit → p.b ^ 2 ≤ limit * p.c) ∧
    (limit < p.c → p.a < limit → p.b ^ 2 ≤ limit * p.a)

instance (limit : K) (p : Symmetric K) : Decidable (p.Spared limit) := by
  unfold Symmetric.Spared
  infer_instance

/-- The update by a measurement with noise `r`. -/
def Symmetric.update (r : K) (p : Symmetric K) : Symmetric K :=
  let s := p.a + r
  ⟨p.a * (r / s), p.b * (r / s), p.c - p.b / s * p.b⟩

def Symmetric.clip (p : Symmetric K) : Symmetric K := ⟨max p.a 0, p.b, max p.c 0⟩

theorem Symmetric.Nonneg.semidefinite_iff {p : Symmetric K} (nonneg : p.Nonneg) :
    p.Semidefinite ↔ p.b ^ 2 ≤ p.a * p.c :=
  ⟨fun semidefinite => semidefinite.2.2, fun room => ⟨nonneg.1, nonneg.2.2, room⟩⟩

-- The determinant grows by the noise times the predicted variance.
omit [LinearOrder K] in
theorem predict_determinant (p : Symmetric K) (dt q : K) :
    (p.predict dt q).a * (p.predict dt q).c - (p.predict dt q).b ^ 2 =
      (p.a * p.c - p.b ^ 2) + (p.predict dt q).a * q := by
  simp only [Symmetric.predict]
  ring

theorem cap_nonneg {p : Symmetric K} {limit : K} (positive : 0 ≤ limit) (nonneg : p.Nonneg) :
    (p.cap limit).Nonneg :=
  ⟨le_min nonneg.1 positive, le_max_of_le_right (le_min nonneg.2.1 positive),
    le_min nonneg.2.2 positive⟩

theorem clip_nonneg {p : Symmetric K} (nonneg : 0 ≤ p.b) : p.clip.Nonneg :=
  ⟨le_max_right _ _, nonneg, le_max_right _ _⟩

variable [IsStrictOrderedRing K] {p : Symmetric K} {dt q limit r : K}

section Prediction

theorem predict_nonneg (forward : 0 ≤ dt) (noise : 0 ≤ q) (nonneg : p.Nonneg) :
    (p.predict dt q).Nonneg := by
  obtain ⟨a, b, c⟩ := nonneg
  refine ⟨?_, ?_, add_nonneg c noise⟩
  · unfold Symmetric.predict
    positivity
  · unfold Symmetric.predict
    positivity

theorem predict_semidefinite (forward : 0 ≤ dt) (noise : 0 ≤ q) (nonneg : p.Nonneg)
    (semidefinite : p.Semidefinite) : (p.predict dt q).Semidefinite := by
  have predicted := predict_nonneg forward noise nonneg
  rw [predicted.semidefinite_iff]
  have determinant := predict_determinant p dt q
  have grown := mul_nonneg predicted.1 noise
  have room := semidefinite.2.2
  linarith

end Prediction

section Capping

theorem cap_covariance (positive : 0 ≤ limit) (nonneg : p.Nonneg) :
    (p.cap limit).b = min p.b limit := by
  apply max_eq_right
  exact (neg_nonpos.mpr positive).trans (le_min nonneg.2.1 positive)

-- The covariance is capped too, but beside a variance below the limit that makes no difference.
theorem capped_room (positive : 0 < limit) (b variance : K) (small : variance < limit) :
    (min b limit) ^ 2 ≤ limit * variance ↔ b ^ 2 ≤ limit * variance := by
  rcases le_or_gt b limit with below | above
  · rw [min_eq_left below]
  · rw [min_eq_right above.le]
    have narrow : limit * variance < limit ^ 2 := by
      rw [pow_two]
      exact mul_lt_mul_of_pos_left small positive
    have larger : limit ^ 2 < b ^ 2 := pow_lt_pow_left₀ above positive.le two_ne_zero
    constructor
    · intro room
      exact absurd room (not_le.mpr narrow)
    · intro room
      exact absurd room (not_le.mpr (narrow.trans larger))

theorem capped_square (positive : 0 < limit) (nonneg : 0 ≤ p.b) :
    (min p.b limit) ^ 2 ≤ limit * limit := by
  rw [pow_two]
  have low := le_min nonneg positive.le
  exact mul_le_mul (min_le_right _ _) (min_le_right _ _) low positive.le

-- Two variances within the limit bound the covariance, so nothing is capped.
theorem covariance_below (semidefinite : p.Semidefinite) (a : p.a ≤ limit) (c : p.c ≤ limit)
    (positive : 0 < limit) : p.b ≤ limit := by
  apply le_of_sq_le_sq _ positive.le
  calc
    p.b ^ 2 ≤ p.a * p.c := semidefinite.2.2
    _ ≤ limit * limit := mul_le_mul a c semidefinite.2.1 positive.le
    _ = limit ^ 2 := (pow_two limit).symm

theorem cap_semidefinite_iff (positive : 0 < limit) (nonneg : p.Nonneg)
    (semidefinite : p.Semidefinite) : (p.cap limit).Semidefinite ↔ p.Spared limit := by
  rw [(cap_nonneg positive.le nonneg).semidefinite_iff, cap_covariance positive.le nonneg]
  have square := capped_square positive nonneg.2.1
  simp only [Symmetric.cap, Symmetric.Spared]
  rcases le_or_gt p.a limit with a | a <;> rcases le_or_gt p.c limit with c | c
  · have within := covariance_below semidefinite a c positive
    rw [min_eq_left a, min_eq_left c, min_eq_left within]
    simp [not_lt.mpr a, not_lt.mpr c, semidefinite.2.2]
  · rw [min_eq_left a, min_eq_right c.le, mul_comm p.a]
    rcases a.lt_or_eq with small | same
    · simp [not_lt.mpr a, c, small, capped_room positive p.b p.a small]
    · simp [same, square]
  · rw [min_eq_right a.le, min_eq_left c]
    rcases c.lt_or_eq with small | same
    · simp [not_lt.mpr c, a, small, capped_room positive p.b p.c small]
    · simp [same, square]
  · rw [min_eq_right a.le, min_eq_right c.le]
    simp [square, not_lt.mpr a.le, not_lt.mpr c.le]

end Capping

section Measurement

-- A measurement scales the determinant by the share of its noise.
omit [IsStrictOrderedRing K] in
theorem update_determinant (certain : 0 < p.a + r) :
    (p.update r).a * (p.update r).c - (p.update r).b ^ 2 =
      r / (p.a + r) * (p.a * p.c - p.b ^ 2) := by
  have nonzero := certain.ne'
  simp only [Symmetric.update]
  field_simp
  ring

theorem update_first_nonneg (noise : 0 < r) (nonneg : p.Nonneg) :
    0 ≤ (p.update r).a ∧ 0 ≤ (p.update r).b := by
  have share := div_nonneg noise.le (add_nonneg nonneg.1 noise.le)
  exact ⟨mul_nonneg nonneg.1 share, mul_nonneg nonneg.2.1 share⟩

-- Clipping the second variance would cost the determinant, but then it is lost already.
theorem update_clipped (noise : 0 < r) (nonneg : p.Nonneg)
    (room : (p.update r).b ^ 2 ≤ (p.update r).a * max (p.update r).c 0) :
    0 ≤ (p.update r).c := by
  by_contra negative
  rw [max_eq_right (not_le.mp negative).le, mul_zero] at room
  have share := div_pos noise (add_pos_of_nonneg_of_pos nonneg.1 noise)
  have none : (p.update r).b = 0 := pow_eq_zero_iff two_ne_zero |>.mp (le_antisymm room (sq_nonneg _))
  have uncorrelated : p.b = 0 := (mul_eq_zero.mp none).resolve_right share.ne'
  apply negative
  simpa [Symmetric.update, uncorrelated] using nonneg.2.2

theorem update_semidefinite_iff (noise : 0 < r) (nonneg : p.Nonneg) :
    (p.update r).clip.Semidefinite ↔ p.Semidefinite := by
  have certain := add_pos_of_nonneg_of_pos nonneg.1 noise
  have share := div_pos noise certain
  have determinant := update_determinant certain
  obtain ⟨a, b⟩ := update_first_nonneg noise nonneg
  rw [(clip_nonneg b).semidefinite_iff, nonneg.semidefinite_iff]
  simp only [Symmetric.clip, max_eq_left a]
  constructor
  · intro room
    have c := update_clipped noise nonneg room
    rw [max_eq_left c] at room
    have scaled : 0 ≤ r / (p.a + r) * (p.a * p.c - p.b ^ 2) := by linarith
    have kept := nonneg_of_mul_nonneg_right scaled share
    linarith
  · intro room
    have scaled := mul_nonneg share.le (sub_nonneg.mpr room)
    have higher := mul_le_mul_of_nonneg_left (le_max_left (p.update r).c 0) a
    linarith

end Measurement

end Ccflare.Covariance
