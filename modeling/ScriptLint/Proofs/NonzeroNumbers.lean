import ScriptLint.Proofs.NumberTexts

/-!
# ScriptLint.Proofs.NonzeroNumbers

A number that is not zero stays so on its way to a script: neither its decimal text nor an integer
of any length is read as zero.

A binary number is at least `2 ^ (-1074)` where it is not zero, and what is more than half of that
does not round to zero. The digits of a number are more than half of it, since they round to it.

* `AboveHalf`: more than half of the least positive number
* `ofRatio_cases`: what is more than half of it rounds to a number that is not zero
* `shortest_aboveHalf`: the digits of a number are more than half of it
* `isNonzero_respelled`: the decimal text of a number
* `Numeral.isNonzero_read`: a long integer
-/

namespace ScriptLint

namespace Binary64

/-- Not zero, and a number. -/
def isNonzero : Binary64 → Bool
  | .nan => false
  | .infinite _ => true
  | .finite _ m _ => m != 0

/-- The exponent of a number is one of the format. -/
def inRange : Binary64 → Bool
  | .finite _ _ e => decide (minExponent ≤ e)
  | _ => true

/-- `c * 10 ^ k` is more than half of the least positive number. -/
def AboveHalf (c : Nat) (k : Int) : Prop := tenTo (-k) < c * tenTo k * twoTo 1075

section Powers

theorem twoTo_eq_one {k : Int} (h : k ≤ 0) : twoTo k = 1 := by
  simp [twoTo, Int.toNat_eq_zero.2 h]

theorem tenTo_eq_one {k : Int} (h : k ≤ 0) : tenTo k = 1 := by
  simp [tenTo, Int.toNat_eq_zero.2 h]

theorem twoTo_succ {k : Int} (h : 0 ≤ k) : twoTo (k + 1) = 2 * twoTo k := by
  have hnat : (k + 1).toNat = k.toNat + 1 := by omega
  simp [twoTo, hnat, Nat.pow_succ, Nat.mul_comm]

theorem tenTo_succ {k : Int} (h : 0 ≤ k) : tenTo (k + 1) = 10 * tenTo k := by
  have hnat : (k + 1).toNat = k.toNat + 1 := by omega
  simp [tenTo, hnat, Nat.pow_succ, Nat.mul_comm]

theorem pow_mul_twoTo (n : Nat) (k : Int) : 2 ^ n * twoTo k = 2 ^ (n + k.toNat) :=
  (Nat.pow_add 2 n k.toNat).symm

theorem twoTo_mono {j k : Int} (h : j ≤ k) : twoTo j ≤ twoTo k :=
  Nat.pow_le_pow_right (by omega) (by omega)

theorem ratioLt_iff (a b c : Nat) (k : Int) :
    ratioLt a b c k = true ↔ a * tenTo (-k) < c * tenTo k * b := by
  by_cases h : 0 ≤ k
  · simp [ratioLt, h, tenTo_eq_one (show -k ≤ 0 by omega)]
  · simp [ratioLt, h, tenTo_eq_one (show k ≤ 0 by omega)]

theorem ratioGt_iff (a b c : Nat) (k : Int) :
    ratioGt a b c k = true ↔ c * tenTo k * b < a * tenTo (-k) := by
  by_cases h : 0 ≤ k
  · simp [ratioGt, h, tenTo_eq_one (show -k ≤ 0 by omega)]
  · simp [ratioGt, h, tenTo_eq_one (show k ≤ 0 by omega)]

theorem atLeastPower_iff (num den : Nat) (k : Int) :
    atLeastPower num den k = true ↔ den * twoTo k ≤ num * twoTo (-k) := by
  by_cases h : 0 ≤ k
  · simp [atLeastPower, h, twoTo_eq_one (show -k ≤ 0 by omega)]
  · simp [atLeastPower, h, twoTo_eq_one (show k ≤ 0 by omega)]

theorem scaledRound_eq (num den : Nat) (e : Int) :
    scaledRound num den e = roundHalfEven (num * twoTo (-e)) (den * twoTo e) := by
  by_cases h : 0 ≤ e
  · simp [scaledRound, h, twoTo_eq_one (show -e ≤ 0 by omega)]
  · simp [scaledRound, h, twoTo_eq_one (show e ≤ 0 by omega)]

theorem top_eq : twoTo 1075 = 2 * twoTo (-minExponent) := by
  rw [show (1075 : Int) = -minExponent + 1 by decide, twoTo_succ (by decide)]

theorem two_le_top : 2 ≤ twoTo 1075 := by
  have := twoTo_pos (-minExponent)
  rw [top_eq]
  omega

end Powers

section Rounding

/-- More than one half rounds to one at least. -/
theorem roundHalfEven_pos {a b : Nat} (h : b < 2 * a) : 0 < roundHalfEven a b := by
  unfold roundHalfEven
  by_cases hq : a / b = 0
  · have hr : a % b = a := by
      have hdiv := Nat.div_add_mod a b
      rw [hq] at hdiv
      omega
    simp [hq, hr, h, show ¬ 2 * a < b by omega]
  · have hpos := Nat.pos_of_ne_zero hq
    generalize a / b = q at hpos
    dsimp only
    repeat' split
    all_goals omega

theorem atLeastPower_binaryOrder {num : Nat} (hnum : 0 < num) (den : Nat) :
    atLeastPower num den (binaryOrder num den) = true := by
  unfold binaryOrder
  dsimp only
  split
  · assumption
  · rw [atLeastPower_iff]
    have hlow : 2 ^ num.log2 ≤ num := Nat.log2_self_le (by omega)
    have hhigh : den < 2 ^ (den.log2 + 1) := Nat.lt_log2_self
    have hexp : den.log2 + 1 + ((num.log2 : Int) - den.log2 - 1).toNat =
        num.log2 + (-((num.log2 : Int) - den.log2 - 1)).toNat := by omega
    calc den * twoTo ((num.log2 : Int) - den.log2 - 1)
        ≤ 2 ^ (den.log2 + 1) * twoTo ((num.log2 : Int) - den.log2 - 1) :=
          Nat.mul_le_mul_right _ (Nat.le_of_lt hhigh)
      _ = 2 ^ num.log2 * twoTo (-((num.log2 : Int) - den.log2 - 1)) := by
          simp only [twoTo, Nat.pow_eq]
          rw [← Nat.pow_add, ← Nat.pow_add, hexp]
      _ ≤ num * twoTo (-((num.log2 : Int) - den.log2 - 1)) := Nat.mul_le_mul_right _ hlow

theorem scaledRound_pos {num den : Nat} (hnum : 0 < num)
    (hhalf : den < num * twoTo 1075) :
    0 < scaledRound num den (max (binaryOrder num den - 52) minExponent) := by
  rw [scaledRound_eq]
  refine roundHalfEven_pos ?_
  by_cases h : binaryOrder num den - 52 ≤ minExponent
  · rw [Int.max_eq_right h]
    have hone : twoTo minExponent = 1 := twoTo_eq_one (by decide)
    rw [top_eq, Nat.mul_left_comm] at hhalf
    rwa [hone, Nat.mul_one]
  · rw [Int.max_eq_left (by omega)]
    have horder := (atLeastPower_iff _ _ _).1 (atLeastPower_binaryOrder hnum den)
    have hpos := Nat.mul_pos hnum (twoTo_pos (-(binaryOrder num den - 52)))
    calc den * twoTo (binaryOrder num den - 52)
        ≤ den * twoTo (binaryOrder num den) := Nat.mul_le_mul_left _ (twoTo_mono (by omega))
      _ ≤ num * twoTo (-binaryOrder num den) := horder
      _ ≤ num * twoTo (-(binaryOrder num den - 52)) := Nat.mul_le_mul_left _ (twoTo_mono (by omega))
      _ < 2 * (num * twoTo (-(binaryOrder num den - 52))) := by omega

/-- What is more than half of the least positive number rounds to a number that is not zero, with
53 bits at most before its point. -/
theorem ofRatio_cases {num den : Nat} (negative : Bool) (hhalf : den < num * twoTo 1075) :
    (∃ m e, ofRatio negative num den = .finite negative m e ∧ 0 < m ∧
      binaryOrder num den - 52 ≤ e) ∨ ofRatio negative num den = .infinite negative := by
  have hnum : 0 < num := by
    refine Nat.pos_of_ne_zero ?_
    rintro rfl
    omega
  have hm := scaledRound_pos hnum hhalf
  unfold ofRatio
  rw [if_neg (by omega)]
  dsimp only
  generalize hround : scaledRound num den (max (binaryOrder num den - 52) minExponent) = m at hm
  have hexp : binaryOrder num den - 52 ≤ max (binaryOrder num den - 52) minExponent :=
    Int.le_max_left _ _
  generalize max (binaryOrder num den - 52) minExponent = e at hexp
  by_cases hcarry : m = twoTo precision
  · rw [if_pos hcarry]
    dsimp only
    rw [if_neg (Nat.ne_of_gt (twoTo_pos _))]
    by_cases htop : maxExponent < e + 1
    · exact .inr (if_pos htop)
    · exact .inl ⟨_, _, if_neg htop, twoTo_pos _, by omega⟩
  · rw [if_neg hcarry]
    dsimp only
    rw [if_neg (by omega)]
    by_cases htop : maxExponent < e
    · exact .inr (if_pos htop)
    · exact .inl ⟨_, _, if_neg htop, hm, hexp⟩

theorem isNonzero_ofRatio {num den : Nat} (negative : Bool) (hhalf : den < num * twoTo 1075) :
    (ofRatio negative num den).isNonzero = true := by
  obtain ⟨m, e, heq, hm, _⟩ | heq := ofRatio_cases negative hhalf
  · rw [heq, isNonzero]
    exact bne_iff_ne.2 (by omega)
  · rw [heq]
    rfl

/-- Digits that are more than half of the least positive number are not too small to be looked
at. -/
theorem not_tooSmall {c : Nat} {k : Int} (h : AboveHalf c k) (hk : k < 0) :
    ¬ k + (c.log2 : Int) / 3 + 1 < -400 := by
  intro hsmall
  rw [AboveHalf, tenTo_eq_one (show k ≤ 0 by omega), Nat.mul_one] at h
  obtain ⟨j, hj⟩ : ∃ j : Nat, -k = (402 + c.log2 / 3 + j : Nat) :=
    ⟨(-k).toNat - (402 + c.log2 / 3), by omega⟩
  have hten : tenTo (-k) = 10 ^ (402 + c.log2 / 3 + j) := by rw [tenTo, hj]; rfl
  have height : 2 ^ (3 * (402 + c.log2 / 3)) ≤ 10 ^ (402 + c.log2 / 3 + j) := by
    calc 2 ^ (3 * (402 + c.log2 / 3)) = 8 ^ (402 + c.log2 / 3) := by rw [Nat.pow_mul]
      _ ≤ 10 ^ (402 + c.log2 / 3) := Nat.pow_le_pow_left (by omega) _
      _ ≤ 10 ^ (402 + c.log2 / 3 + j) := Nat.pow_le_pow_right (by omega) (by omega)
  have hlog : c < 2 ^ (c.log2 + 1) := Nat.lt_log2_self
  have hupper : c * twoTo 1075 ≤ 2 ^ (c.log2 + 1) * twoTo 1075 :=
    Nat.mul_le_mul_right _ (Nat.le_of_lt hlog)
  have hpow := pow_mul_twoTo (c.log2 + 1) 1075
  have hmono : 2 ^ (c.log2 + 1 + (1075 : Int).toNat) ≤ 2 ^ (3 * (402 + c.log2 / 3)) :=
    Nat.pow_le_pow_right (by omega) (by omega)
  rw [hten] at h
  rw [hpow] at hupper
  omega

/-- Digits that are more than half of the least positive number are read as a number that is not
zero. -/
theorem isNonzero_ofDecimal {c : Nat} {k : Int} (negative : Bool) (h : AboveHalf c k) :
    (ofDecimal negative c k).isNonzero = true := by
  have hc : 0 < c := by
    refine Nat.pos_of_ne_zero ?_
    rintro rfl
    rw [AboveHalf, Nat.zero_mul, Nat.zero_mul] at h
    omega
  unfold ofDecimal
  rw [if_neg (by omega)]
  dsimp only
  by_cases hk : 0 ≤ k
  · rw [if_pos hk]
    by_cases hlarge : 400 < k
    · rw [if_pos hlarge]
      rfl
    · rw [if_neg hlarge]
      rw [AboveHalf, tenTo_eq_one (show -k ≤ 0 by omega)] at h
      exact isNonzero_ofRatio negative h
  · have hsmall := not_tooSmall h (by omega)
    rw [if_neg hk, if_neg (fun hboth => hsmall hboth.2)]
    rw [AboveHalf, tenTo_eq_one (show k ≤ 0 by omega), Nat.mul_one] at h
    exact isNonzero_ofRatio negative h

end Rounding

section Digits

variable {m : Nat} {e : Int}

/-- The lower end of the numbers that round to a number is half of the least positive number at
least, and more where the end itself belongs to them. -/
theorem interval_low (hm : 0 < m) (he : minExponent ≤ e) :
    (interval m e).2.2 ≤ (interval m e).1 * twoTo 1075 ∧
      (m % 2 = 0 → (interval m e).2.2 < (interval m e).1 * twoTo 1075) := by
  have htop := top_eq
  have hone := twoTo_pos (-e)
  have hstep : twoTo (-e) ≤ twoTo (-minExponent) := twoTo_mono (by omega)
  generalize twoTo (-minExponent) = top at htop hstep
  unfold interval
  dsimp only
  have hlow : 4 * m - 2 ≤
      if m = twoTo (precision - 1) ∧ minExponent < e then 4 * m - 1 else 4 * m - 2 := by
    split <;> omega
  generalize (if m = twoTo (precision - 1) ∧ minExponent < e then 4 * m - 1 else 4 * m - 2) = low
    at hlow
  have hle : 4 * twoTo (-e) ≤ low * twoTo 1075 := by
    have := Nat.mul_le_mul_right (twoTo 1075) (show 2 ≤ low by omega)
    omega
  have hlt : m % 2 = 0 → 4 * twoTo (-e) < low * twoTo 1075 := by
    intro heven
    have := Nat.mul_le_mul_right (twoTo 1075) (show 6 ≤ low by omega)
    omega
  by_cases hsign : 0 ≤ e
  · have hwide : low * twoTo 1075 ≤ low * twoTo e * twoTo 1075 :=
      Nat.mul_le_mul_right _ (Nat.le_mul_of_pos_right _ (twoTo_pos e))
    rw [if_pos hsign]
    dsimp only
    exact ⟨by omega, fun heven => by have := hlt heven; omega⟩
  · rw [if_neg hsign]
    exact ⟨hle, hlt⟩

/-- The value of a number is more than half of the least positive number. -/
theorem ratio_low (hm : 0 < m) (he : minExponent ≤ e) :
    (ratio m e).2 < (ratio m e).1 * twoTo 1075 := by
  unfold ratio
  by_cases hsign : 0 ≤ e
  · rw [if_pos hsign]
    exact Nat.lt_of_lt_of_le two_le_top
      (Nat.le_mul_of_pos_left _ (Nat.mul_pos hm (twoTo_pos e)))
  · rw [if_neg hsign]
    have hstep : twoTo (-e) < twoTo 1075 := by
      have hmono : twoTo (-e) ≤ twoTo (-minExponent) := twoTo_mono (by omega)
      have := twoTo_pos (-e)
      rw [top_eq]
      omega
    exact Nat.lt_of_lt_of_le hstep (Nat.le_mul_of_pos_left _ hm)

variable {low den c : Nat} {k : Int}

theorem gridFloor_lt (num : Nat) {den : Nat} (hden : 0 < den) (k : Int) :
    num * tenTo (-k) < (gridFloor num den k + 1) * tenTo k * den := by
  have hfloor : gridFloor num den k = num * tenTo (-k) / (den * tenTo k) := by
    by_cases hk : 0 ≤ k
    · simp [gridFloor, hk, tenTo_eq_one (show -k ≤ 0 by omega)]
    · simp [gridFloor, hk, tenTo_eq_one (show k ≤ 0 by omega)]
  have hdiv := Nat.lt_mul_div_succ (num * tenTo (-k)) (Nat.mul_pos hden (tenTo_pos k))
  rw [← hfloor] at hdiv
  calc num * tenTo (-k) < den * tenTo k * (gridFloor num den k + 1) := hdiv
    _ = (gridFloor num den k + 1) * tenTo k * den := by
        rw [Nat.mul_comm, Nat.mul_comm den, Nat.mul_assoc]

theorem ratio_den_pos (m : Nat) (e : Int) : 0 < (ratio m e).2 := by
  unfold ratio
  split
  · exact Nat.one_pos
  · exact twoTo_pos _

/-- Digits above an end that is half of the least positive number at least. -/
theorem aboveHalf_of_lt (hle : den ≤ low * twoTo 1075)
    (hlow : low * tenTo (-k) < c * tenTo k * den) : AboveHalf c k := by
  have hscaled : den * tenTo (-k) < den * (c * tenTo k * twoTo 1075) := by
    calc den * tenTo (-k) ≤ low * twoTo 1075 * tenTo (-k) := Nat.mul_le_mul_right _ hle
      _ = low * tenTo (-k) * twoTo 1075 := Nat.mul_right_comm _ _ _
      _ < c * tenTo k * den * twoTo 1075 := Nat.mul_lt_mul_of_pos_right hlow (twoTo_pos _)
      _ = den * (c * tenTo k * twoTo 1075) := by rw [Nat.mul_right_comm, Nat.mul_comm]
  exact Nat.lt_of_mul_lt_mul_left hscaled

/-- Digits not below an end that is more than half of the least positive number. -/
theorem aboveHalf_of_le (hlt : den < low * twoTo 1075)
    (hlow : low * tenTo (-k) ≤ c * tenTo k * den) : AboveHalf c k := by
  have hscaled : den * tenTo (-k) < den * (c * tenTo k * twoTo 1075) := by
    calc den * tenTo (-k) < low * twoTo 1075 * tenTo (-k) :=
          Nat.mul_lt_mul_of_pos_right hlt (tenTo_pos _)
      _ = low * tenTo (-k) * twoTo 1075 := Nat.mul_right_comm _ _ _
      _ ≤ c * tenTo k * den * twoTo 1075 := Nat.mul_le_mul_right _ hlow
      _ = den * (c * tenTo k * twoTo 1075) := by rw [Nat.mul_right_comm, Nat.mul_comm]
  exact Nat.lt_of_mul_lt_mul_left hscaled

theorem aboveHalf_readsBack (hm : 0 < m) (he : minExponent ≤ e) (h : readsBack m e c k = true) :
    AboveHalf c k := by
  obtain ⟨hle, hlt⟩ := interval_low hm he
  unfold readsBack at h
  dsimp only at h
  by_cases heven : m % 2 = 0
  · rw [if_pos heven, Bool.and_eq_true, Bool.not_eq_true'] at h
    have hlow : ¬ c * tenTo k * (interval m e).2.2 < (interval m e).1 * tenTo (-k) := by
      rw [← ratioGt_iff, h.1]
      simp
    exact aboveHalf_of_le (hlt heven) (Nat.le_of_not_lt hlow)
  · rw [if_neg heven, Bool.and_eq_true] at h
    exact aboveHalf_of_lt hle ((ratioLt_iff _ _ _ _).1 h.1)

theorem aboveHalf_carried {s : Scaled} (h : AboveHalf s.digits s.exponent) :
    AboveHalf s.carried.digits s.carried.exponent := by
  obtain ⟨c, k⟩ := s
  unfold Scaled.carried
  dsimp only at h ⊢
  by_cases hzero : c % 10 = 0
  · rw [if_pos hzero]
    obtain ⟨d, rfl⟩ : ∃ d, c = 10 * d := ⟨c / 10, by omega⟩
    have hd : 10 * d / 10 = d := by omega
    rw [AboveHalf] at h
    dsimp only
    rw [hd, AboveHalf]
    by_cases hk : 0 ≤ k
    · rw [tenTo_succ hk, tenTo_eq_one (show -(k + 1) ≤ 0 by omega)]
      rw [tenTo_eq_one (show -k ≤ 0 by omega)] at h
      rwa [Nat.mul_left_comm, ← Nat.mul_assoc]
    · rw [tenTo_eq_one (show k + 1 ≤ 0 by omega), Nat.mul_one]
      rw [tenTo_eq_one (show k ≤ 0 by omega), show -k = -(k + 1) + 1 by omega,
        tenTo_succ (by omega), Nat.mul_one, Nat.mul_assoc] at h
      exact Nat.lt_of_mul_lt_mul_left h
  · rwa [if_neg hzero]

theorem aboveHalf_onGrid {strict : Bool} {order : Int} {n : Nat} {s : Scaled} (hm : 0 < m)
    (he : minExponent ≤ e) (h : onGrid strict m e order n = some s) :
    AboveHalf s.digits s.exponent := by
  -- the digits are those of a neighbour that reads back
  simp only [onGrid] at h
  repeat' split at h
  all_goals cases h
  all_goals exact aboveHalf_readsBack hm he ‹_›

theorem aboveHalf_firstGrid {strict : Bool} {order : Int} (hm : 0 < m) (he : minExponent ≤ e)
    (fuel n : Nat) :
    AboveHalf (firstGrid strict m e order fuel n).digits
      (firstGrid strict m e order fuel n).exponent := by
  induction fuel generalizing n with
  | zero =>
    unfold firstGrid
    dsimp only
    exact aboveHalf_of_lt (Nat.le_of_lt (ratio_low hm he)) (gridFloor_lt _ (ratio_den_pos m e) _)
  | succ fuel ih =>
    rw [firstGrid]
    split
    · rename_i s h
      exact aboveHalf_carried (aboveHalf_onGrid hm he h)
    · exact ih (n + 1)

/-- The digits of a number are more than half of the least positive number. -/
theorem shortest_aboveHalf (strict : Bool) (hm : 0 < m) (he : minExponent ≤ e) :
    AboveHalf (shortest strict m e).digits (shortest strict m e).exponent :=
  aboveHalf_firstGrid hm he 17 1

/-- A number and what its text in a document is read as are both zero or both not. -/
theorem isNonzero_respelled {x : Binary64} (hrange : x.inRange = true) :
    x.respelled.isNonzero = x.isNonzero := by
  cases x with
  | nan => rfl
  | infinite negative => rfl
  | finite negative m e =>
    cases m with
    | zero => rfl
    | succ m =>
      have hm : 0 < m + 1 := Nat.succ_pos m
      have hdigits := shortest_aboveHalf document.strict hm (of_decide_eq_true hrange)
      have hne : isNonzero (.finite negative (m + 1) e) = true := by simp [isNonzero]
      rw [hne]
      simp only [respelled]
      split
      · refine isNonzero_ofDecimal negative ?_
        have hpos := Nat.mul_pos (shortest_pos document.strict hm e)
          (tenTo_pos (shortest document.strict (m + 1) e).exponent)
        have hten : tenTo 1 = 10 := rfl
        have hwide := Nat.mul_le_mul (Nat.mul_le_mul_right 10 hpos) two_le_top
        rw [AboveHalf, tenTo_eq_one (show (-1 : Int) ≤ 0 by decide), Int.neg_neg, hten, Nat.mul_one]
        omega
      · exact isNonzero_ofDecimal negative hdigits

end Digits

end Binary64

namespace Engine.Numeral

open Binary64

theorem binaryOrder_nonneg {n : Nat} (h : 0 < n) : 0 ≤ binaryOrder n 1 := by
  have hlow : 2 ^ n.log2 ≤ n := Nat.log2_self_le (by omega)
  have hlog : Nat.log2 1 = 0 := by decide
  unfold binaryOrder
  dsimp only
  rw [hlog]
  split
  · omega
  · rename_i hnot
    refine absurd ((atLeastPower_iff _ _ _).2 ?_) hnot
    rw [twoTo_eq_one (show -((n.log2 : Int) - (0 : Nat)) ≤ 0 by omega)]
    simpa [twoTo] using hlow

/-- A whole number that is not zero is at least one, so its mantissa reaches 52 places behind the
point at most. -/
theorem ofRatio_whole (negative : Bool) {n : Nat} (h : 0 < n) :
    (∃ m e, ofRatio negative n 1 = .finite negative m e ∧ 0 < m ∧ -52 ≤ e) ∨
      ofRatio negative n 1 = .infinite negative := by
  have hhalf : 1 < n * twoTo 1075 :=
    Nat.lt_of_lt_of_le two_le_top (Nat.le_mul_of_pos_left _ h)
  have horder := binaryOrder_nonneg h
  obtain ⟨m, e, heq, hm, he⟩ | heq := ofRatio_cases negative hhalf
  · exact .inl ⟨m, e, heq, hm, by omega⟩
  · exact .inr heq

theorem power_cases (k : Nat) :
    (∃ m e, power k = .finite false m e ∧ 0 < m ∧ -52 ≤ e) ∨ power k = .infinite false := by
  have hten : ofDecimal false 1 k =
      if 400 < (k : Int) then .infinite false else ofRatio false (1 * tenTo k) 1 := by
    simp [ofDecimal]
  unfold power
  rw [hten]
  by_cases hlarge : 400 < (k : Int)
  · rw [if_pos hlarge]
    exact .inr rfl
  · rw [if_neg hlarge]
    obtain ⟨m, e, heq, hm, he⟩ | heq := ofRatio_whole false (Nat.mul_pos Nat.one_pos (tenTo_pos k))
    · rw [heq]
      refine .inl ⟨_, e, rfl, ?_, he⟩
      split <;> omega
    · rw [heq]
      exact .inr rfl

theorem keep_pos {s : Nat × Nat} (h : 0 < s.1) (c : Char) : 0 < (keep s c).1 := by
  unfold keep
  split
  · show 0 < s.1 * 10 + _
    omega
  · exact h

theorem foldl_keep_pos (cs : List Char) : ∀ {s : Nat × Nat}, 0 < s.1 → 0 < (cs.foldl keep s).1 := by
  induction cs with
  | nil => intro s h; exact h
  | cons c cs ih => intro s h; exact ih (keep_pos h c)

/-- The digits that are kept of a number that is not zero are not zero. -/
theorem split_decimal_pos {n : Nat} (h : 0 < n) : 0 < (split (Digits.decimal n)).1 := by
  obtain ⟨c, cs, hdigits, hc⟩ := (Digits.decimal_spells n).head_ne_zero (by omega) h
  obtain ⟨d, hd, rfl⟩ := (Digits.decimal_spells n).digits c (hdigits ▸ List.mem_cons_self)
  have hzero : d ≠ 0 := by
    rintro rfl
    exact hc rfl
  have hdigit : ∀ d < 10, Digits.digit? (Digits.digitChar d) = some d := by decide
  rw [hdigits, split, List.foldl_cons]
  refine foldl_keep_pos cs ?_
  simp only [keep, Nat.zero_le, if_true, hdigit d hd, Option.getD_some]
  omega

/-- An integer that is not zero is not read as zero, whatever digits are left out. -/
theorem isNonzero_read {i : Int} (h : i ≠ 0) : (read i).isNonzero = true := by
  have hfront := split_decimal_pos (show 0 < i.natAbs by omega)
  unfold read
  generalize split (Digits.decimal i.natAbs) = parts at hfront
  obtain ⟨front, left⟩ := parts
  dsimp only at hfront ⊢
  obtain ⟨m, e, heq, hm, he⟩ | heq := ofRatio_whole (decide (i < 0)) hfront
  · rw [heq]
    obtain ⟨n, f, hpower, hn, hf⟩ | hpower := power_cases left
    · rw [hpower, scaled]
      have hprod := Nat.mul_pos hm hn
      have hlow := ratio_low hprod (show minExponent ≤ e + f by rw [minExponent]; omega)
      exact isNonzero_ofRatio _ hlow
    · rw [hpower]
      rfl
  · rw [heq]
    rfl

end Engine.Numeral

end ScriptLint
