import Mathlib.Tactic

/-!
# Diffie and Hellman on a curve

The points of a curve of prime order. Two points with the same first coordinate are equal or
opposite, and an agreement keeps only the first coordinate of the shared point.
-/

/-- A group of prime order whose points, except zero, have coordinates of 32 bytes each. -/
structure CurveGroup (Point : Type) [AddCommGroup Point] where
  base : Point
  order : ℕ
  prime : order.Prime
  order_nsmul : ∀ P : Point, order • P = 0
  base_ne_zero : base ≠ 0
  x : Point → List.Vector UInt8 32
  y : Point → List.Vector UInt8 32
  x_eq_iff : ∀ P Q : Point, P ≠ 0 → Q ≠ 0 → (x P = x Q ↔ P = Q ∨ P = -Q)

namespace CurveGroup

variable {Point : Type} [AddCommGroup Point] (G : CurveGroup Point)

abbrev Scalar := {d : ℕ // 0 < d ∧ d < G.order}

def publicKey (d : ℕ) : Point := d • G.base

/-- What both sides of an agreement keep of the shared point. -/
def agree (d : ℕ) (P : Point) : List.Vector UInt8 32 := G.x (d • P)

variable {G}

lemma Scalar.nsmul_injective (d : G.Scalar) : Function.Injective fun P : Point => d.1 • P := by
  have hcoprime : d.1.Coprime G.order := by
    rw [Nat.coprime_comm]
    exact (Nat.Prime.coprime_iff_not_dvd G.prime).mpr fun hdvd => absurd (Nat.le_of_dvd d.2.1 hdvd) (by omega)
  obtain ⟨k, -, hk⟩ := Nat.exists_mul_mod_eq_one_of_coprime hcoprime G.prime.one_lt
  have hinverse : ∀ P : Point, k • d.1 • P = P := by
    intro P
    calc k • d.1 • P = (d.1 * k) • P := by rw [smul_smul, Nat.mul_comm]
      _ = (G.order * (d.1 * k / G.order) + 1) • P := by rw [← hk, Nat.div_add_mod]
      _ = P := by rw [add_smul, one_smul, Nat.mul_comm, mul_smul, G.order_nsmul, smul_zero, zero_add]
  intro P Q h
  have h' : k • d.1 • P = k • d.1 • Q := congrArg (k • ·) h
  rwa [hinverse, hinverse] at h'

lemma Scalar.nsmul_ne_zero (d : G.Scalar) {P : Point} (hP : P ≠ 0) : d.1 • P ≠ 0 := by
  intro h
  apply hP
  apply d.nsmul_injective
  simpa using h

lemma Scalar.publicKey_ne_zero (d : G.Scalar) : G.publicKey d.1 ≠ 0 := d.nsmul_ne_zero G.base_ne_zero

/-- The two sides agree if the point on one side is the public key on the other, or its opposite,
and only then. -/
theorem agree_iff (d e : G.Scalar) {Q : Point} (hQ : Q ≠ 0) :
    G.agree e.1 Q = G.agree d.1 (G.publicKey e.1) ↔ Q = G.publicKey d.1 ∨ Q = -G.publicKey d.1 := by
  have hshared : d.1 • G.publicKey e.1 = e.1 • G.publicKey d.1 := smul_comm d.1 e.1 G.base
  rw [agree, agree, hshared, G.x_eq_iff _ _ (e.nsmul_ne_zero hQ)
    (e.nsmul_ne_zero d.publicKey_ne_zero), ← smul_neg]
  exact or_congr e.nsmul_injective.eq_iff e.nsmul_injective.eq_iff

end CurveGroup
