import SealedPoll.Curve.Montgomery
import SealedPoll.Proofs.Curve.Field

/-!
# Points of small order on the Montgomery curve

A first coordinate is kept as a quotient `x / z` (`Ratio`), which a common factor does not change
(`Ratio.Along`, with the factors that are allowed); the point at infinity has `z = 0`.

* `Ratio.double`, `Ratio.add` : what one step of the ladder computes;
* `Orbit` : the coordinates of all multiples of a point; `Ladder.At.run` : the ladder arrives at
  those by the scalar and by its successor;
* `IsSmallOrder` : the coordinates of the points whose order divides 8, on the curve or on its twist;
  they are those whose third double is the point at infinity (`isSmallOrder_iff_double`);
* `scalarMul_eq_zero`, `agree_eq_zero` : their multiples by multiples of 8 are zero, and so is every
  secret shared with the holder of such a key.
-/

open scoped Fin.CommRing

namespace SealedPoll.Curve

/-- A first coordinate as a quotient. -/
structure Ratio where
  x : FieldElement
  z : FieldElement

namespace Ratio

/-- The point at infinity. -/
def infinity : Ratio := ⟨1, 0⟩

/-- The coordinate of the double of a point. -/
def double (r : Ratio) : Ratio :=
  let aa := (r.x + r.z) * (r.x + r.z)
  let bb := (r.x - r.z) * (r.x - r.z)
  ⟨aa * bb, (aa - bb) * (aa + 121665 * (aa - bb))⟩

/-- The coordinate of the sum of two points whose difference has coordinate `u`. -/
def add (u : FieldElement) (r s : Ratio) : Ratio :=
  let da := (s.x - s.z) * (r.x + r.z)
  let cb := (s.x + s.z) * (r.x - r.z)
  ⟨(da + cb) * (da + cb), u * ((da - cb) * (da - cb))⟩

/-- The second one with both parts multiplied by a common factor out of `S`. -/
def Along (S : Submonoid FieldElement) (r s : Ratio) : Prop := ∃ c ∈ S, r.x = c * s.x ∧ r.z = c * s.z

variable {S : Submonoid FieldElement} {u : FieldElement} {r s r' s' t : Ratio}

theorem double_eq (r : Ratio) :
    r.double = ⟨(r.x ^ 2 - r.z ^ 2) ^ 2,
      4 * r.x * r.z * (r.x ^ 2 + 486662 * r.x * r.z + r.z ^ 2)⟩ := by
  simp only [double, mk.injEq]
  constructor <;> ring

theorem add_eq (u : FieldElement) (r s : Ratio) :
    add u r s = ⟨4 * (r.x * s.x - r.z * s.z) ^ 2, 4 * u * (r.z * s.x - r.x * s.z) ^ 2⟩ := by
  simp only [add, mk.injEq]
  constructor <;> ring

theorem add_comm (u : FieldElement) (r s : Ratio) : add u r s = add u s r := by
  simp only [add_eq, mk.injEq]
  constructor <;> ring

namespace Along

theorem refl (r : Ratio) : r.Along S r := ⟨1, S.one_mem, by simp, by simp⟩

theorem trans (h : r.Along S s) (h' : s.Along S t) : r.Along S t := by
  obtain ⟨c, hc, hx, hz⟩ := h
  obtain ⟨d, hd, hx', hz'⟩ := h'
  exact ⟨c * d, S.mul_mem hc hd, by rw [hx, hx', mul_assoc], by rw [hz, hz', mul_assoc]⟩

protected theorem double (h : r.Along S s) : r.double.Along S s.double := by
  obtain ⟨c, hc, hx, hz⟩ := h
  refine ⟨c ^ 4, S.pow_mem hc 4, ?_, ?_⟩ <;> simp only [double_eq, hx, hz] <;> ring

protected theorem add (hr : r.Along S r') (hs : s.Along S s') (u : FieldElement) :
    (add u r s).Along S (add u r' s') := by
  obtain ⟨c, hc, hx, hz⟩ := hr
  obtain ⟨d, hd, hx', hz'⟩ := hs
  refine ⟨(c * d) ^ 2, S.pow_mem (S.mul_mem hc hd) 2, ?_, ?_⟩ <;>
    simp only [add_eq, hx, hz, hx', hz'] <;> ring

theorem z_eq_zero (h : r.Along S infinity) : r.z = 0 := by
  obtain ⟨c, -, -, hz⟩ := h
  rw [hz, infinity, mul_zero]

end Along

end Ratio

/-! ## The ladder -/

/-- `m k` is the coordinate of the `k`-th multiple of a point of coordinate `u`, as far as doubling
and adding can tell, up to factors out of `S`. -/
structure Orbit (S : Submonoid FieldElement) (u : FieldElement) (m : Nat → Ratio) : Prop where
  zero : Ratio.infinity.Along S (m 0)
  one : Ratio.Along S ⟨u, 1⟩ (m 1)
  double : ∀ k, (m k).double.Along S (m (2 * k))
  add : ∀ k, (Ratio.add u (m k) (m (k + 1))).Along S (m (2 * k + 1))

namespace Ladder

def first (s : Ladder) : Ratio := ⟨s.x2, s.z2⟩

def second (s : Ladder) : Ratio := ⟨s.x3, s.z3⟩

variable {S : Submonoid FieldElement} {u : FieldElement} {m : Nat → Ratio} {s : Ladder} {k : Nat}

theorem first_step_false (u : FieldElement) (s : Ladder) :
    (s.step u false).first = s.first.double := rfl

theorem second_step_false (u : FieldElement) (s : Ladder) :
    (s.step u false).second = .add u s.first s.second := rfl

theorem first_step_true (u : FieldElement) (s : Ladder) :
    (s.step u true).first = .add u s.second s.first := rfl

theorem second_step_true (u : FieldElement) (s : Ladder) :
    (s.step u true).second = s.second.double := rfl

/-- The ladder holds the multiples `k` and `k + 1`. -/
structure At (S : Submonoid FieldElement) (m : Nat → Ratio) (k : Nat) (s : Ladder) : Prop where
  first : s.first.Along S (m k)
  second : s.second.Along S (m (k + 1))

theorem At.initial (horbit : Orbit S u m) : At S m 0 (initial u) := ⟨horbit.zero, horbit.one⟩

/-- One bit of the scalar. -/
theorem At.step (horbit : Orbit S u m) (h : At S m k s) (bit : Bool) :
    At S m (2 * k + bit.toNat) (s.step u bit) := by
  have hsum := (h.first.add h.second u).trans (horbit.add k)
  cases bit with
  | false =>
    constructor
    · rw [first_step_false]
      exact h.first.double.trans (horbit.double k)
    · rw [second_step_false]
      exact hsum
  | true =>
    -- the multiples change places, and `2 k + 2` is twice the second one
    constructor
    · rw [first_step_true, Ratio.add_comm]
      exact hsum
    · rw [second_step_true]
      exact h.second.double.trans (horbit.double (k + 1))

/-- The ladder arrives at the multiples by a scalar and by its successor. -/
theorem At.run (horbit : Orbit S u m) {n : Nat} (hn : n < 2 ^ 255) : At S m n (run u n) := by
  have hrun := foldl_highBits (P := At S m) (fun _ _ bit h => At.step horbit h bit)
    (At.initial horbit) 255 n
  rwa [Nat.zero_mul, Nat.zero_add, Nat.mod_eq_of_lt hn] at hrun

end Ladder

/-! ## Points whose order divides 8 -/

/-- The coordinates of the points whose order divides 8, on the curve or on its twist. -/
def IsSmallOrder (u : FieldElement) : Prop :=
  u * (u ^ 2 - 1) * ((u ^ 2 - 1) ^ 2 - 4 * u * (u ^ 2 + 486662 * u + 1)) = 0

/-- The coordinates of twice, three times and four times a point of coordinate `u` whose order
divides 8. The multiples by 5, 6 and 7 are opposite to those by 3, 2 and 1. -/
structure Multiples (u : FieldElement) (two three four : Ratio) : Prop where
  double_one : (Ratio.double ⟨u, 1⟩).Along ⊤ two
  double_two : two.double.Along ⊤ four
  double_three : three.double.Along ⊤ two
  double_four : four.double.Along ⊤ .infinity
  add_one_two : (Ratio.add u ⟨u, 1⟩ two).Along ⊤ three
  add_two_three : (Ratio.add u two three).Along ⊤ three
  add_three_four : (Ratio.add u three four).Along ⊤ ⟨u, 1⟩

/-- The coordinate of the `k`-th multiple, given those of the multiples by 2, 3 and 4. -/
def periodic (u : FieldElement) (two three four : Ratio) (k : Nat) : Ratio :=
  match k % 8 with
  | 0 => .infinity
  | 1 | 7 => ⟨u, 1⟩
  | 2 | 6 => two
  | 3 | 5 => three
  | _ => four

namespace Multiples

variable {u : FieldElement} {two three four : Ratio}

theorem double_infinity : Ratio.infinity.double.Along ⊤ .infinity := by
  refine ⟨1, Submonoid.mem_top _, ?_, ?_⟩ <;> simp [Ratio.double_eq, Ratio.infinity]

theorem add_infinity_one (u : FieldElement) : (Ratio.add u .infinity ⟨u, 1⟩).Along ⊤ ⟨u, 1⟩ := by
  refine ⟨4 * u, Submonoid.mem_top _, ?_, ?_⟩ <;> simp only [Ratio.add_eq, Ratio.infinity] <;> ring

protected theorem orbit (h : Multiples u two three four) : Orbit ⊤ u (periodic u two three four) := by
  refine ⟨.refl _, .refl _, fun k => ?_, fun k => ?_⟩
  · have hdouble : 2 * k % 8 = 2 * (k % 8) % 8 := by omega
    have hlt : k % 8 < 8 := by omega
    simp only [periodic, hdouble]
    generalize k % 8 = i at hlt
    interval_cases i
    · exact double_infinity
    · exact h.double_one
    · exact h.double_two
    · exact h.double_three
    · exact h.double_four
    · exact h.double_three
    · exact h.double_two
    · exact h.double_one
  · have hnext : (k + 1) % 8 = (k % 8 + 1) % 8 := by omega
    have hsum : (2 * k + 1) % 8 = (2 * (k % 8) + 1) % 8 := by omega
    have hlt : k % 8 < 8 := by omega
    simp only [periodic, hnext, hsum]
    generalize k % 8 = i at hlt
    -- from the multiple by 4 on the same pairs come again, in the other order
    interval_cases i
    · exact add_infinity_one u
    · exact h.add_one_two
    · exact h.add_two_three
    · exact h.add_three_four
    · exact Ratio.add_comm u _ _ ▸ h.add_three_four
    · exact Ratio.add_comm u _ _ ▸ h.add_two_three
    · exact Ratio.add_comm u _ _ ▸ h.add_one_two
    · exact Ratio.add_comm u _ _ ▸ add_infinity_one u

/-- Three doublings lead to infinity. -/
theorem double_double_double (h : Multiples u two three four) :
    (Ratio.double ⟨u, 1⟩).double.double.Along ⊤ .infinity :=
  (h.double_one.double.trans h.double_two).double.trans h.double_four

/-- The point of order 2. The sums are lost on the ladder, as their difference has coordinate
zero. -/
theorem of_zero : Multiples 0 .infinity ⟨0, 1⟩ .infinity := by
  have hdouble : (Ratio.double ⟨0, 1⟩).Along ⊤ .infinity := by
    refine ⟨1, Submonoid.mem_top _, ?_, ?_⟩ <;> simp [Ratio.double_eq, Ratio.infinity]
  have hadd : ∀ r, (Ratio.add 0 ⟨0, 1⟩ .infinity).Along ⊤ r := by
    intro r
    refine ⟨0, Submonoid.mem_top _, ?_, ?_⟩ <;> simp [Ratio.add_eq, Ratio.infinity]
  exact ⟨hdouble, double_infinity, hdouble, double_infinity, hadd _,
    Ratio.add_comm 0 _ _ ▸ hadd _, hadd _⟩

/-- Points of order 4. -/
theorem of_square (hu : u ^ 2 = 1) : Multiples u ⟨0, 1⟩ ⟨u, 1⟩ .infinity := by
  have hdouble : (Ratio.double ⟨u, 1⟩).Along ⊤ ⟨0, 1⟩ := by
    refine ⟨4 * u * (2 + 486662 * u), Submonoid.mem_top _, ?_, ?_⟩ <;> simp only [Ratio.double_eq]
    · linear_combination (u ^ 2 - 1) * hu
    · linear_combination 4 * u * hu
  have htwo : (Ratio.double ⟨0, 1⟩).Along ⊤ .infinity := by
    refine ⟨1, Submonoid.mem_top _, ?_, ?_⟩ <;> simp [Ratio.double_eq, Ratio.infinity]
  have hadd : (Ratio.add u ⟨u, 1⟩ ⟨0, 1⟩).Along ⊤ ⟨u, 1⟩ := by
    refine ⟨4 * u, Submonoid.mem_top _, ?_, ?_⟩ <;> simp only [Ratio.add_eq]
    · linear_combination -4 * hu
    · linear_combination 4 * u * hu
  exact ⟨hdouble, htwo, hdouble, double_infinity, hadd, Ratio.add_comm u _ _ ▸ hadd,
    Ratio.add_comm u _ _ ▸ add_infinity_one u⟩

/-- Points of order 8. Their multiples by 1 and 3 are inverse to each other. -/
theorem of_quartic (hu : (u ^ 2 - 1) ^ 2 - 4 * u * (u ^ 2 + 486662 * u + 1) = 0) :
    Multiples u ⟨1, 1⟩ ⟨1, u⟩ ⟨0, 1⟩ := by
  constructor
  · refine ⟨(u ^ 2 - 1) ^ 2, Submonoid.mem_top _, ?_, ?_⟩ <;> simp only [Ratio.double_eq]
    · ring
    · linear_combination -hu
  · refine ⟨4 * 486664, Submonoid.mem_top _, ?_, ?_⟩ <;> simp only [Ratio.double_eq] <;> ring
  · refine ⟨(u ^ 2 - 1) ^ 2, Submonoid.mem_top _, ?_, ?_⟩ <;> simp only [Ratio.double_eq]
    · ring
    · linear_combination -hu
  · refine ⟨1, Submonoid.mem_top _, ?_, ?_⟩ <;> simp [Ratio.double_eq, Ratio.infinity]
  · refine ⟨4 * (u - 1) ^ 2, Submonoid.mem_top _, ?_, ?_⟩ <;> simp only [Ratio.add_eq] <;> ring
  · refine ⟨4 * (u - 1) ^ 2, Submonoid.mem_top _, ?_, ?_⟩ <;> simp only [Ratio.add_eq] <;> ring
  · refine ⟨4 * u, Submonoid.mem_top _, ?_, ?_⟩ <;> simp only [Ratio.add_eq] <;> ring

end Multiples

theorem IsSmallOrder.exists_multiples {u : FieldElement} (hu : IsSmallOrder u) :
    ∃ two three four, Multiples u two three four := by
  rcases mul_eq_zero.1 hu with hlow | hquartic
  · rcases mul_eq_zero.1 hlow with rfl | hsquare
    · exact ⟨_, _, _, .of_zero⟩
    · exact ⟨_, _, _, .of_square (sub_eq_zero.1 hsquare)⟩
  · exact ⟨_, _, _, .of_quartic hquartic⟩

/-! ## No other points double to infinity -/

theorem power_discriminant : power (486662 ^ 2 - 4) ((prime - 1) / 2) = -1 := by decide +kernel

theorem power_opposite : power (2 - 486662) ((prime - 1) / 2) = -1 := by decide +kernel

namespace Ratio

variable {r : Ratio}

/-- The points of order 2 other than that of coordinate zero have no coordinates in the field. -/
theorem x_eq_zero_of_quadratic (h : r.x ^ 2 + 486662 * r.x * r.z + r.z ^ 2 = 0) : r.x = 0 := by
  by_cases hz : r.z = 0
  · rw [hz] at h
    have hsquare : r.x ^ 2 = 0 := by linear_combination h
    exact (pow_eq_zero_iff (by decide)).1 hsquare
  · exfalso
    apply mul_self_ne_of_power power_discriminant ((2 * r.x + 486662 * r.z) * r.z⁻¹)
    field_simp
    linear_combination 4 * h

theorem of_z_double (h : r.double.z = 0) : r.x = 0 ∨ r.z = 0 := by
  rw [double_eq] at h
  rcases mul_eq_zero.1 h with hproduct | hquadratic
  · rcases mul_eq_zero.1 hproduct with hx | hz
    · exact Or.inl ((mul_eq_zero.1 hx).resolve_left (by decide))
    · exact Or.inr hz
  · exact Or.inl (x_eq_zero_of_quadratic hquadratic)

theorem of_x_double (h : r.double.x = 0) : r.x = r.z ∨ r.x = -r.z := by
  rw [double_eq] at h
  have hsquares : r.x ^ 2 = r.z ^ 2 := sub_eq_zero.1 ((pow_eq_zero_iff (by decide)).1 h)
  exact sq_eq_sq_iff_eq_or_eq_neg.1 hsquares

end Ratio

/-- No double has coordinate minus one: the points of order 4 of the twist are no doubles. -/
theorem double_ne_opposite (u : FieldElement) :
    (u ^ 2 - 1) ^ 2 ≠ -(4 * u * (u ^ 2 + 486662 * u + 1)) := by
  intro h
  have hu : u ≠ 0 := by
    rintro rfl
    exact absurd h (by decide +kernel)
  apply mul_self_ne_of_power power_opposite ((u + 1) ^ 2 * (2 * u)⁻¹)
  have htwo : (2 : FieldElement) ≠ 0 := two_ne_zero
  field_simp
  linear_combination h

/-- The points of small order are those whose third double is the point at infinity. -/
theorem isSmallOrder_iff_double (u : FieldElement) :
    IsSmallOrder u ↔ (Ratio.double ⟨u, 1⟩).double.double.z = 0 := by
  constructor
  · intro hu
    obtain ⟨two, three, four, hmultiples⟩ := hu.exists_multiples
    exact hmultiples.double_double_double.z_eq_zero
  · intro h
    unfold IsSmallOrder
    -- four times the point is the point of order 2, or twice the point is, or the point itself
    rcases Ratio.of_z_double h with hfour | hfour
    · rcases Ratio.of_x_double hfour with hone | hminus
      · rw [Ratio.double_eq] at hone
        linear_combination u * (u ^ 2 - 1) * hone
      · rw [Ratio.double_eq] at hminus
        exact absurd (by linear_combination hminus) (double_ne_opposite u)
    · rcases Ratio.of_z_double hfour with htwo | htwo
      · rcases Ratio.of_x_double htwo with (hone : u = 1) | (hminus : u = -1)
        · rw [hone]
          ring
        · rw [hminus]
          ring
      · rcases Ratio.of_z_double htwo with (hzero : u = 0) | (hone : (1 : FieldElement) = 0)
        · rw [hzero]
          ring
        · exact absurd hone one_ne_zero

/-! ## Agreement -/

/-- A multiple of 8 takes the points of small order to infinity, which is written as zero. -/
theorem scalarMul_eq_zero {u : FieldElement} (hu : IsSmallOrder u) {n : Nat} (hn : n % 8 = 0)
    (hlt : n < 2 ^ 255) : scalarMul n u = 0 := by
  obtain ⟨two, three, four, hmultiples⟩ := hu.exists_multiples
  have hrun := (Ladder.At.run hmultiples.orbit hlt).first
  have hinfinity : periodic u two three four n = .infinity := by simp only [periodic, hn]
  rw [hinfinity] at hrun
  have hz : (Ladder.run u n).z2 = 0 := hrun.z_eq_zero
  rw [scalarMul, hz, inverse_eq_inv, inv_zero, mul_zero]

theorem clamp_mod (secret : Octets 32) : clamp secret % 8 = 0 := by
  rw [clamp]
  omega

theorem clamp_lt (secret : Octets 32) : clamp secret < 2 ^ 255 := by
  rw [clamp]
  omega

/-- Nothing but zeros is shared with the holder of a key of small order. -/
theorem agree_eq_zero {peer : Octets 32} (h : IsSmallOrder (.ofOctets peer)) (secret : Octets 32) :
    agree secret peer = Octets.zero 32 := by
  rw [agree, scalarMul_eq_zero h (clamp_mod secret) (clamp_lt secret)]
  rfl

end SealedPoll.Curve
