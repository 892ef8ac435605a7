import Mathlib.Algebra.Group.Nat.Defs
import Mathlib.Data.List.Induction
import ScriptLint.Decimal.Digits

/-!
# ScriptLint.Proofs.Digits

The digits that are written for a number, against the value that is read from digits.

* `Spells`: digits of a number, most significant first, without leading zeros
* `decimal_spells`, `hexDigits_spells`: what is written spells the number
* `Spells.value_eq`, `Spells.length_le`: reading it back, and how long it gets
* `value_hex`, `length_hex`: digits filled up to a width
* `isWritable_iff`: the integers that are written
-/

namespace ScriptLint.Digits

/-- `ds` spells `n` in base `b`. -/
inductive Spells (b : Nat) : Nat → List Char → Prop where
  | digit {d : Nat} (hd : d < b) : Spells b d [digitChar d]
  | more {n d : Nat} {ds : List Char} (h : Spells b n ds) (hn : 0 < n) (hd : d < b) :
      Spells b (b * n + d) (ds ++ [digitChar d])

theorem hexDigit?_digitChar {d : Nat} (h : d < 16) : hexDigit? (digitChar d) = some d := by
  revert d
  decide

theorem isDigit_digitChar {d : Nat} (h : d < 10) : (digitChar d).isDigit = true := by
  revert d
  decide

theorem digitChar_ne_zero {d : Nat} (h : d < 16) (hd : 0 < d) : digitChar d ≠ '0' := by
  revert d
  decide

theorem inBase_spells {b : Nat} (hb : 2 ≤ b) :
    ∀ (fuel n : Nat) (acc : List Char), n < 2 ^ fuel → 0 < fuel →
      ∃ ds, Spells b n ds ∧ inBase b fuel n acc = ds ++ acc := by
  intro fuel
  induction fuel with
  | zero => intro n acc _ h; omega
  | succ fuel ih =>
    intro n acc hn _
    rw [inBase]
    split
    · rename_i hlt
      exact ⟨[digitChar n], .digit hlt, rfl⟩
    · rename_i hge
      -- every digit halves the number at least, so the fuel lasts for what is left of it
      have hhalf : n / b ≤ n / 2 := Nat.div_le_div_left hb (by omega)
      have hpow : 2 ^ (fuel + 1) = 2 * 2 ^ fuel := by rw [Nat.pow_succ, Nat.mul_comm]
      have hquot : 0 < n / b := Nat.div_pos (by omega) (by omega)
      have hfuel : 0 < fuel := by
        cases fuel with
        | zero => omega
        | succ k => omega
      obtain ⟨ds, hds, heq⟩ := ih (n / b) (digitChar (n % b) :: acc) (by omega) hfuel
      refine ⟨ds ++ [digitChar (n % b)], ?_, ?_⟩
      · have h := Spells.more hds hquot (Nat.mod_lt n (by omega : 0 < b))
        rwa [Nat.div_add_mod] at h
      · rw [heq]
        simp

theorem decimal_spells (n : Nat) : Spells 10 n (decimal n) := by
  obtain ⟨ds, hds, heq⟩ := inBase_spells (by omega : 2 ≤ 10) _ n [] Nat.lt_log2_self (by omega)
  rw [decimal, heq, List.append_nil]
  exact hds

/-- The digits that `hex` fills up. -/
theorem hexDigits_spells (n : Nat) : Spells 16 n (inBase 16 (Nat.log2 n + 1) n []) := by
  obtain ⟨ds, hds, heq⟩ := inBase_spells (by omega : 2 ≤ 16) _ n [] Nat.lt_log2_self (by omega)
  rw [heq, List.append_nil]
  exact hds

theorem value_append_digit {b d : Nat} (hd : d < 16) (ds : List Char) :
    value b (ds ++ [digitChar d]) = value b ds * b + d := by
  simp only [value, List.foldl_append, List.foldl_cons, List.foldl_nil, hexDigit?_digitChar hd]

namespace Spells

variable {b n : Nat} {ds : List Char}

theorem ne_nil (h : Spells b n ds) : ds ≠ [] := by
  cases h with
  | digit => simp
  | more => simp

theorem digits (h : Spells b n ds) : ∀ c ∈ ds, ∃ d, d < b ∧ c = digitChar d := by
  induction h with
  | digit hd =>
    intro c hc
    exact ⟨_, hd, List.mem_singleton.1 hc⟩
  | more _ _ hd ih =>
    intro c hc
    rcases List.mem_append.1 hc with hc | hc
    · exact ih c hc
    · exact ⟨_, hd, List.mem_singleton.1 hc⟩

theorem value_eq (h : Spells b n ds) (hb : b ≤ 16) : value b ds = n := by
  induction h with
  | @digit d hd =>
    have hd' : d < 16 := by omega
    have h := value_append_digit (b := b) hd' []
    simpa [value] using h
  | more _ _ hd ih =>
    rw [value_append_digit (by omega), ih, Nat.mul_comm]

/-- As many digits are written as the power of the base needs that bounds the number. -/
theorem length_le (h : Spells b n ds) : ∀ k, 0 < k → n < b ^ k → ds.length ≤ k := by
  induction h with
  | digit =>
    intro k hk _
    exact hk
  | @more n d ds _ hn hd ih =>
    intro k hk hlt
    obtain _ | k := k
    · omega
    obtain _ | k := k
    · have : b * 1 ≤ b * n := Nat.mul_le_mul_left b hn
      simp only [Nat.zero_add, Nat.pow_one] at hlt
      omega
    · have hn' : n < b ^ (k + 1) := by
        refine Nat.lt_of_mul_lt_mul_left (a := b) ?_
        rw [Nat.pow_succ, Nat.mul_comm _ b] at hlt
        omega
      have := ih (k + 1) (by omega) hn'
      simp only [List.length_append, List.length_singleton]
      omega

/-- No more digits are written than the number needs. -/
theorem lt_pow_length (h : Spells b n ds) : n < b ^ ds.length := by
  induction h with
  | digit hd => simpa using hd
  | @more n d ds _ _ hd ih =>
    have hstep : b * n + b ≤ b ^ ds.length * b := by
      calc b * n + b = b * (n + 1) := (Nat.mul_succ b n).symm
        _ ≤ b * b ^ ds.length := Nat.mul_le_mul_left b ih
        _ = b ^ ds.length * b := Nat.mul_comm _ _
    simp only [List.length_append, List.length_singleton, Nat.pow_succ]
    omega

/-- A number that is not zero starts with another digit than zero. -/
theorem head_ne_zero (h : Spells b n ds) (hb : b ≤ 16) (hn : 0 < n) :
    ∃ c cs, ds = c :: cs ∧ c ≠ '0' := by
  induction h with
  | digit hd => exact ⟨_, [], rfl, digitChar_ne_zero (by omega) hn⟩
  | more _ hpos _ ih =>
    obtain ⟨c, cs, rfl, hc⟩ := ih hpos
    exact ⟨c, _, rfl, hc⟩

end Spells

theorem decimal_zero : decimal 0 = ['0'] := by decide

theorem decimal_isDigit (n : Nat) : ∀ c ∈ decimal n, c.isDigit = true := by
  intro c hc
  obtain ⟨d, hd, rfl⟩ := (decimal_spells n).digits c hc
  exact isDigit_digitChar hd

theorem value_decimal (n : Nat) : value 10 (decimal n) = n :=
  (decimal_spells n).value_eq (by omega)

theorem length_decimal_le {n k : Nat} (hk : 0 < k) (h : n < 10 ^ k) : (decimal n).length ≤ k :=
  (decimal_spells n).length_le k hk h

theorem isWritable_iff {i : Int} : isWritable i = true ↔ i.natAbs < 10 ^ limit := by
  have hlimit : 0 < limit := by decide
  rw [isWritable, decide_eq_true_eq]
  constructor
  · intro h
    exact Nat.lt_of_lt_of_le (decimal_spells _).lt_pow_length
      (Nat.pow_le_pow_right (by omega) h)
  · exact length_decimal_le hlimit

theorem hexDigit?_isDigit {c : Char} (h : c.isDigit = true) :
    ∃ d, d < 10 ∧ hexDigit? c = some d := by
  have hrange : 48 ≤ c.toNat ∧ c.toNat ≤ 57 := by
    simpa [Char.isDigit, UInt32.le_iff_toNat_le] using h
  exact ⟨c.toNat - 48, by omega, if_pos hrange⟩

theorem value_lt_pow (ds : List Char) : (∀ c ∈ ds, c.isDigit = true) →
    value 10 ds < 10 ^ ds.length := by
  induction ds using List.reverseRecOn with
  | nil => simp [value]
  | append_singleton ds c ih =>
    intro hds
    obtain ⟨d, hd, hc⟩ := hexDigit?_isDigit (hds c (by simp))
    have hlt := ih fun x hx => hds x (List.mem_append_left [c] hx)
    have hstep : value 10 (ds ++ [c]) = value 10 ds * 10 + d := by
      simp only [value, List.foldl_append, List.foldl_cons, List.foldl_nil, hc]
    rw [hstep, List.length_append, List.length_singleton, Nat.pow_succ]
    omega

/-- What is read from digits that are no more than an integer may have is written. -/
theorem isWritable_value {ds : List Char} (hds : ∀ c ∈ ds, c.isDigit = true)
    (hlimit : ds.length ≤ limit) (negative : Bool) :
    isWritable (if negative then -(value 10 ds : Int) else (value 10 ds : Int)) = true := by
  have hlt : value 10 ds < 10 ^ limit :=
    Nat.lt_of_lt_of_le (value_lt_pow ds hds) (Nat.pow_le_pow_right (by omega) hlimit)
  cases negative <;> exact isWritable_iff.2 (by simpa using hlt)

/-- The least integer that is not written. -/
@[irreducible]
def overlong : Int := ((10 ^ limit : Nat) : Int)

theorem isWritable_overlong : isWritable overlong = false := by
  refine eq_false_of_ne_true fun h => Nat.lt_irrefl (10 ^ limit) ?_
  have hlt := isWritable_iff.1 h
  rwa [overlong, Int.natAbs_natCast] at hlt

/-- Zeros in front do not change the value. -/
theorem value_zeros (b k : Nat) (ds : List Char) :
    value b (List.replicate k '0' ++ ds) = value b ds := by
  induction k with
  | zero => rfl
  | succ k ih =>
    rw [List.replicate_succ, List.cons_append]
    have h : hexDigit? '0' = some 0 := by decide
    simp only [value, List.foldl_cons, h] at ih ⊢
    simpa using ih

/-- Zeros behind digits are factors of the base. -/
theorem value_append_zeros (b : Nat) (ds : List Char) (k : Nat) :
    value b (ds ++ List.replicate k '0') = value b ds * b ^ k := by
  induction k with
  | zero => simp
  | succ k ih =>
    have h := value_append_digit (b := b) (by omega : 0 < 16) (ds ++ List.replicate k '0')
    rw [List.replicate_succ', ← List.append_assoc]
    rw [show digitChar 0 = '0' from rfl, ih, Nat.mul_assoc, ← Nat.pow_succ] at h
    exact h

theorem value_hex (k n : Nat) : value 16 (hex k n) = n := by
  rw [hex, padLeft, value_zeros]
  exact (hexDigits_spells n).value_eq (by omega)

theorem length_hex {k n : Nat} (hk : 0 < k) (h : n < 16 ^ k) : (hex k n).length = k := by
  have hlen := (hexDigits_spells n).length_le k hk h
  simp only [hex, padLeft, List.length_append, List.length_replicate]
  omega

theorem hex_hexDigit (k n : Nat) : ∀ c ∈ hex k n, ∃ d, d < 16 ∧ c = digitChar d := by
  intro c hc
  rcases List.mem_append.1 hc with hc | hc
  · exact ⟨0, by omega, List.eq_of_mem_replicate hc⟩
  · exact (hexDigits_spells n).digits c hc

end ScriptLint.Digits
