import ScriptLint.Proofs.FiniteNumbers
import ScriptLint.Proofs.NonzeroNumbers

/-!
# ScriptLint.Proofs.Truth

What counts as true for a script: the truth of an option is that of the value that was stored.

* `Value.isOrdinary`: values that a script can be handed
* `Value.isTrue`: their truth
* `Datum.truthy_ofInt`, `Datum.truthy_ofFloat`: numbers
* `Value.truthy_parse`: a value keeps its truth on its way to a script
-/

namespace ScriptLint

theorem map_eq_ok {ε α β : Type} {f : α → β} {r : Except ε α} {b : β} (h : r.map f = .ok b) :
    ∃ a, r = .ok a ∧ f a = b := by
  cases r with
  | ok a => cases h; exact ⟨a, rfl, rfl⟩
  | error e => cases h

namespace Datum

theorem truthy_real (x : Binary64) : (Datum.real x).truthy = x.isNonzero := by
  cases x with
  | nan => rfl
  | infinite negative => rfl
  | finite negative m e => cases m <;> rfl

/-- An integer is equal to zero only if its number is. -/
theorem toInt?_ne_zero {x : Binary64} {i : Int} (h : x.toInt? = some i) :
    (i != 0) = x.isNonzero := by
  cases x with
  | nan => cases h
  | infinite negative => cases h
  | finite negative m e =>
    have hnum : (Binary64.ratio m e).1 = 0 ↔ m = 0 := by
      have := Binary64.twoTo_pos e
      unfold Binary64.ratio
      by_cases hsign : 0 ≤ e
      · rw [if_pos hsign, Nat.mul_eq_zero]
        omega
      · rw [if_neg hsign]
    simp only [Binary64.toInt?] at h
    split at h
    · rename_i hmod
      have hdiv := Nat.div_add_mod (Binary64.ratio m e).1 (Binary64.ratio m e).2
      have hquot : (Binary64.ratio m e).1 / (Binary64.ratio m e).2 = 0 ↔ m = 0 := by
        rw [← hnum]
        constructor
        · intro hzero
          rw [hzero, hmod] at hdiv
          omega
        · intro hzero
          rw [hzero, Nat.zero_div]
      generalize (Binary64.ratio m e).1 / (Binary64.ratio m e).2 = q at h hquot
      cases h
      rw [Binary64.isNonzero, Bool.eq_iff_iff, bne_iff_ne, bne_iff_ne, ne_eq, ne_eq, ← hquot]
      split <;> omega
    · cases h

theorem truthy_ofFloat (x : Binary64) : (ofFloat x).truthy = x.isNonzero := by
  unfold ofFloat
  split
  · rename_i i hint
    split
    · exact toInt?_ne_zero hint
    · exact truthy_real x
  · exact truthy_real x

theorem truthy_ofInt (i : Int) : (ofInt i).truthy = (i != 0) := by
  unfold ofInt
  split
  · rfl
  · rename_i hlarge
    have hne : i ≠ 0 := by
      rintro rfl
      exact hlarge (Nat.zero_le _)
    rw [truthy_real, Engine.Numeral.isNonzero_read hne]
    exact (bne_iff_ne.2 hne).symm

end Datum

namespace Value

/-- A value that a script can be handed: no number in it is special, and as a number it is one of
the format. -/
def isOrdinary : Value → Bool
  | .float x => x.isFinite && x.inRange
  | v => v.isFinite

theorem isFinite_of_isOrdinary {v : Value} (h : v.isOrdinary = true) : v.isFinite = true := by
  cases v with
  | float x => exact (Bool.and_eq_true_iff.1 h).1
  | _ => exact h

/-- What counts as true for a script: no null, zero or empty text, but every list and mapping. -/
def isTrue : Value → Bool
  | .null => false
  | .bool b => b
  | .int i => i != 0
  | .float x => x.isNonzero
  | .str s => s != ""
  | .list _ => true
  | .tuple _ => true
  | .dict _ => true
  | .choice c => c.text != ""
  | .path p => p.text != ""
  | .moment m => m.shown != ""

/-- A value keeps its truth on its way to a script. -/
theorem truthy_parse {v : Value} (h : v.isOrdinary = true) :
    ∃ d, Datum.parse v.toJson.encode = .ok d ∧ d.truthy = v.isTrue := by
  obtain ⟨j, hj⟩ : ∃ j, Json.reread .script v.toJson = .ok j := by
    rw [← isOk_iff, Json.isOk_reread_script, isFinite_toJson v (isFinite_of_isOrdinary h)]
  refine ⟨Datum.ofJson j, by rw [Engine.parse_encode, hj], ?_⟩
  cases v with
  | int i =>
    cases hj
    exact Datum.truthy_ofInt i
  | float x =>
    obtain ⟨hfinite, hrange⟩ := Bool.and_eq_true_iff.1 h
    have hrespelled : j = .float x.respelled := by
      cases x with
      | finite negative m e =>
        cases hj
        rfl
      | _ => cases hfinite
    rw [hrespelled, Datum.ofJson, Datum.truthy_ofFloat, isTrue]
    exact Binary64.isNonzero_respelled hrange
  | list xs =>
    rw [toJson, Json.reread] at hj
    obtain ⟨js, _, rfl⟩ := map_eq_ok hj
    rfl
  | tuple xs =>
    rw [toJson, Json.reread] at hj
    obtain ⟨js, _, rfl⟩ := map_eq_ok hj
    rfl
  | dict es =>
    rw [toJson, Json.reread] at hj
    obtain ⟨fs, _, rfl⟩ := map_eq_ok hj
    rfl
  | _ =>
    cases hj
    rfl

end Value

end ScriptLint
