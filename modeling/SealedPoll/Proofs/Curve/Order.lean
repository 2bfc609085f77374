import SealedPoll.Curve.Signature
import SealedPoll.Proofs.Curve.Group

/-!
# The order of the base point

* `prime_groupOrder` : the group order is a prime, by a chain of Lucas's tests;
* `addOrderOf_basePoint` : it is the order of the base point;
* `basePoint_nsmul_inj` : the multiples of the base point by smaller numbers are different.
-/

namespace SealedPoll.Curve

/-! ## A prime -/

namespace Lucas

/-- The last prime of this chain is the largest factor of the predecessor of the group order. -/
theorem prime_of_long_chain : Nat.Prime 276602624281642239937218680557139826668747 := by
  have hfirst : Nat.Prime 1257559732178653 :=
    prime_of_checked (by norm_num)
      (by decide +kernel : Checked 1257559732178653 2 [2, 2, 3, 7, 23, 531581, 1224481])
  have hsecond : Nat.Prime 4434155615661930479 :=
    prime_of_checked (by simp [hfirst]; norm_num)
      (by decide +kernel : Checked 4434155615661930479 17 [2, 41, 43, 1257559732178653])
  have hthird : Nat.Prime 172054593956031949258510691 :=
    prime_of_checked (by simp [hsecond]; norm_num)
      (by decide +kernel :
        Checked 172054593956031949258510691 2 [2, 5, 1361, 2851, 4434155615661930479])
  have hfourth : Nat.Prime 292386187 :=
    prime_of_checked (by norm_num)
      (by decide +kernel : Checked 292386187 2 [2, 3, 3, 3, 3, 307, 5879])
  have hfifth : Nat.Prime 213441916511 :=
    prime_of_checked (by simp [hfourth]; norm_num)
      (by decide +kernel : Checked 213441916511 13 [2, 5, 73, 292386187])
  have hsixth : Nat.Prime 19757330305831588566944191468367130476339 :=
    prime_of_checked (by simp [hthird, hfifth]; norm_num)
      (by decide +kernel :
        Checked 19757330305831588566944191468367130476339 2
          [2, 269, 213441916511, 172054593956031949258510691])
  exact prime_of_checked (by simp [hsixth]; norm_num)
    (by decide +kernel :
      Checked 276602624281642239937218680557139826668747 2
        [2, 7, 19757330305831588566944191468367130476339])

/-- The last prime of this chain is the second largest factor. -/
theorem prime_of_short_chain : Nat.Prime 198211423230930754013084525763697 := by
  have hfirst : Nat.Prime 58964693 :=
    prime_of_checked (by norm_num)
      (by decide +kernel : Checked 58964693 2 [2, 2, 14741173])
  have hsecond : Nat.Prime 3044861653679985063343 :=
    prime_of_checked (by norm_num)
      (by decide +kernel :
        Checked 3044861653679985063343 5 [2, 3, 11, 30703, 82163, 132667, 137849])
  exact prime_of_checked (by simp [hfirst, hsecond]; norm_num)
    (by decide +kernel :
      Checked 198211423230930754013084525763697 5
        [2, 2, 2, 2, 3, 23, 58964693, 3044861653679985063343])

end Lucas

instance : NeZero groupOrder := ⟨by decide⟩

theorem prime_groupOrder : groupOrder.Prime :=
  Lucas.prime_of_checked
    (by simp [Lucas.prime_of_long_chain, Lucas.prime_of_short_chain]; norm_num)
    (by decide +kernel : Lucas.Checked groupOrder 2
      [2, 2, 3, 11, 198211423230930754013084525763697, 276602624281642239937218680557139826668747])

/-! ## The base point -/

/-- The base point. -/
def basePoint : AffinePoint where
  x := Point.base.x
  y := Point.base.y
  onEdwards := by
    unfold OnEdwards
    decide +kernel

theorem represents_base : Point.base.Represents basePoint := by
  have haffine : Point.base.affine = (basePoint.x, basePoint.y) := Point.affine_mk_one _ _
  exact ⟨one_ne_zero, congrArg Prod.fst haffine, congrArg Prod.snd haffine⟩

theorem groupOrder_nsmul_basePoint : groupOrder • basePoint = 0 := by
  have hmul : (Point.mul groupOrder Point.base).Represents (groupOrder • basePoint) :=
    represents_base.mul (by decide)
  rw [← hmul.isIdentity_iff]
  decide +kernel

theorem addOrderOf_basePoint : addOrderOf basePoint = groupOrder := by
  have := Fact.mk prime_groupOrder
  refine addOrderOf_eq_prime groupOrder_nsmul_basePoint fun hzero => ?_
  rw [← represents_base.isIdentity_iff] at hzero
  exact absurd hzero (by decide)

/-- The multiples of the base point by numbers below its order are different. -/
theorem basePoint_nsmul_inj {m n : Nat} (hm : m < groupOrder) (hn : n < groupOrder)
    (h : m • basePoint = n • basePoint) : m = n := by
  rw [nsmul_eq_nsmul_iff_modEq, addOrderOf_basePoint] at h
  exact h.eq_of_lt_of_lt hm hn

end SealedPoll.Curve
