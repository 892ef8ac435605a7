import ScriptLint.Json.Reader
import ScriptLint.Proofs.Digits
import ScriptLint.Proofs.Trimming

/-!
# ScriptLint.Proofs.NumberTokens

A written number is read back as far as it goes: whole part, fraction and exponent.

* `Stops`: what may stand behind a number
* `Whole`: digits of a whole part
* `Exponent`: the spellings of an exponent
* `readNumber_whole`: an integer
* `readNumber_spelled`: a number with a fraction or an exponent
* `readWhole_some`, `readFraction_eq`, `readExponent_eq`: what the parts of a number are taken from
-/

namespace ScriptLint.Json

open Digits

/-- A document ends here: white space, the next token of a list or mapping, or nothing follows. -/
def Stops (rest : List Char) : Prop :=
  ∀ c, rest.head? = some c → isGap c = true ∨ c = ',' ∨ c = ']' ∨ c = '\x7d'

/-- No digit follows. -/
def NoDigit (rest : List Char) : Prop := ∀ c, rest.head? = some c → c.isDigit = false

/-- Digits of a whole part: a zero alone, or digits that start with another one. -/
def Whole (ds : List Char) : Prop :=
  ds = ['0'] ∨ ∃ c cs, ds = c :: cs ∧ c ≠ '0' ∧ ∀ x ∈ ds, x.isDigit = true

theorem stops_nil : Stops [] := by
  intro c h
  cases h

theorem stops_cons {c : Char} {rest : List Char}
    (h : isGap c = true ∨ c = ',' ∨ c = ']' ∨ c = '\x7d') : Stops (c :: rest) := by
  intro c' h'
  cases h'
  exact h

theorem isGap_cases {c : Char} (h : isGap c = true) :
    c = ' ' ∨ c = '\t' ∨ c = '\n' ∨ c = '\r' := by
  simpa [isGap, or_assoc] using h

/-- The characters behind a number are none that belong to numbers. -/
theorem Stops.noNumber {rest : List Char} (h : Stops rest) :
    ∀ c, rest.head? = some c → c.isDigit = false ∧ c ≠ '.' ∧ c ≠ 'e' ∧ c ≠ 'E' := by
  intro c hc
  rcases h c hc with hgap | rfl | rfl | rfl
  · rcases isGap_cases hgap with rfl | rfl | rfl | rfl <;> decide
  · decide
  · decide
  · decide

theorem Stops.noDigit {rest : List Char} (h : Stops rest) : NoDigit rest :=
  fun c hc => (h.noNumber c hc).1

theorem span_digits {ds rest : List Char} (hds : ∀ x ∈ ds, x.isDigit = true) (h : NoDigit rest) :
    (ds ++ rest).takeWhile Char.isDigit = ds ∧ (ds ++ rest).dropWhile Char.isDigit = rest := by
  induction ds with
  | nil =>
    cases rest with
    | nil => exact ⟨rfl, rfl⟩
    | cons c rest =>
      have hc := h c rfl
      simp [hc]
  | cons d ds ih =>
    have hd := hds d (by simp)
    obtain ⟨htake, hdrop⟩ := ih fun x hx => hds x (by simp [hx])
    simp [hd, htake, hdrop]

theorem Whole.digits {ds : List Char} (h : Whole ds) : ∀ x ∈ ds, x.isDigit = true := by
  rcases h with rfl | ⟨c, cs, rfl, _, h⟩
  · intro x hx
    rw [List.mem_singleton.1 hx]
    rfl
  · exact h

theorem decimal_whole (n : Nat) : Whole (decimal n) := by
  by_cases hn : n = 0
  · subst hn
    exact .inl decimal_zero
  · obtain ⟨c, cs, hds, hc⟩ := (decimal_spells n).head_ne_zero (by omega) (by omega)
    exact .inr ⟨c, cs, hds, hc, decimal_isDigit n⟩

theorem readWhole_append {ds rest : List Char} (h : Whole ds) (hrest : NoDigit rest) :
    readWhole (ds ++ rest) = some (ds, rest) := by
  rcases h with rfl | ⟨c, cs, rfl, hc, hds⟩
  · rfl
  · obtain ⟨htake, hdrop⟩ := span_digits hds hrest
    rw [List.cons_append] at htake hdrop ⊢
    unfold readWhole
    split
    · rename_i h'; cases h'; exact absurd rfl hc
    · rename_i h'; cases h'; rw [if_pos (hds c (by simp)), htake, hdrop]
    · rename_i h'; cases h'

/-- The written form of a fraction; without digits there is no point. -/
def pointed (ds : List Char) : List Char := if ds = [] then [] else '.' :: ds

/-- The written form of an exponent: its sign and its digits. -/
def raised : Option (Bool × List Char) → List Char
  | none => []
  | some (negative, ds) => 'e' :: (if negative then '-' else '+') :: ds

/-- The value of an exponent. -/
def raisedValue : Option (Bool × List Char) → Option Int
  | none => none
  | some (negative, ds) => some (if negative then -(value 10 ds : Int) else (value 10 ds : Int))

theorem readFraction_append {ds rest : List Char} (hds : ∀ x ∈ ds, x.isDigit = true)
    (hrest : NoDigit rest) (hpoint : rest.head? ≠ some '.') :
    readFraction (pointed ds ++ rest) = (ds, rest) := by
  rw [pointed]
  split
  · rename_i hnil
    subst hnil
    unfold readFraction
    split
    · rename_i h; exact absurd (congrArg List.head? h) hpoint
    · rfl
  · rename_i hne
    obtain ⟨htake, hdrop⟩ := span_digits hds hrest
    rw [List.cons_append, readFraction, htake, hdrop]
    cases ds with
    | nil => exact absurd rfl hne
    | cons d ds => rfl

theorem readExponent_none {rest : List Char} (h : ∀ c, rest.head? = some c → c ≠ 'e' ∧ c ≠ 'E') :
    readExponent rest = (none, rest) := by
  cases rest with
  | nil => rfl
  | cons c rest =>
    obtain ⟨he, hE⟩ := h c rfl
    unfold readExponent
    exact if_neg (by simp [he, hE])

/-- An exponent as a document may spell it, with its value. -/
inductive Exponent : List Char → Option Int → Prop
  | absent : Exponent [] none
  | plain {e : Char} {ds : List Char} (he : e = 'e' ∨ e = 'E') (hne : ds ≠ [])
    (hds : ∀ x ∈ ds, x.isDigit = true) : Exponent (e :: ds) (some (value 10 ds))
  | plus {e : Char} {ds : List Char} (he : e = 'e' ∨ e = 'E') (hne : ds ≠ [])
    (hds : ∀ x ∈ ds, x.isDigit = true) : Exponent (e :: '+' :: ds) (some (value 10 ds))
  | minus {e : Char} {ds : List Char} (he : e = 'e' ∨ e = 'E') (hne : ds ≠ [])
    (hds : ∀ x ∈ ds, x.isDigit = true) : Exponent (e :: '-' :: ds) (some (-(value 10 ds : Int)))

theorem Exponent.head {es : List Char} {x : Option Int} (h : Exponent es x) :
    ∀ c, es.head? = some c → c = 'e' ∨ c = 'E' := by
  intro c hc
  cases h with
  | absent => cases hc
  | plain he _ _ => cases hc; exact he
  | plus he _ _ => cases hc; exact he
  | minus he _ _ => cases hc; exact he

theorem exponent_raised {e : Option (Bool × List Char)}
    (h : ∀ p, e = some p → p.2 ≠ [] ∧ ∀ x ∈ p.2, x.isDigit = true) :
    Exponent (raised e) (raisedValue e) := by
  cases e with
  | none => exact .absent
  | some p =>
    obtain ⟨negative, ds⟩ := p
    obtain ⟨hne, hds⟩ := h _ rfl
    cases negative with
    | false => exact .plus (.inl rfl) hne hds
    | true => exact .minus (.inl rfl) hne hds

/-- The digits of an exponent, behind its letter and its sign. -/
theorem readExponent_digits (negative : Bool) {ds rest : List Char} (hne : ds ≠ [])
    (hds : ∀ x ∈ ds, x.isDigit = true) (hrest : NoDigit rest) (cs : List Char) :
    (match (ds ++ rest).takeWhile Char.isDigit with
      | [] => ((none : Option Int), cs)
      | es =>
        let n : Int := value 10 es
        (some (if negative then -n else n), (ds ++ rest).dropWhile Char.isDigit)) =
      (some (if negative then -(value 10 ds : Int) else (value 10 ds : Int)), rest) := by
  obtain ⟨htake, hdrop⟩ := span_digits hds hrest
  obtain ⟨d, ds', rfl⟩ := List.exists_cons_of_ne_nil hne
  rw [htake, hdrop]

theorem readExponent_append {es rest : List Char} {x : Option Int} (h : Exponent es x)
    (hrest : Stops rest) : readExponent (es ++ rest) = (x, rest) := by
  cases h with
  | absent => exact readExponent_none fun c hc => (hrest.noNumber c hc).2.2
  | plain he hne hds =>
    obtain ⟨d, ds', rfl⟩ := List.exists_cons_of_ne_nil hne
    have hd : d.isDigit = true := hds d List.mem_cons_self
    have hread := readExponent_digits false hne hds hrest.noDigit
    rw [List.cons_append] at hread
    rw [List.cons_append, List.cons_append, readExponent, if_pos he]
    · exact hread _
    · intro r h
      cases h
      cases hd
    · intro r h
      cases h
      cases hd
  | plus he hne hds =>
    rw [List.cons_append, List.cons_append, readExponent, if_pos he]
    exact readExponent_digits false hne hds hrest.noDigit _
  | minus he hne hds =>
    rw [List.cons_append, List.cons_append, readExponent, if_pos he]
    exact readExponent_digits true hne hds hrest.noDigit _

/-- The integer that digits are read as. -/
def wholeNumber (negative : Bool) (ds : List Char) : Json :=
  .int (if negative then -(value 10 ds : Int) else (value 10 ds : Int))

theorem readNumber_whole (d : Dialect) (start : List Char) (negative : Bool) {ds rest : List Char}
    (hds : Whole ds) (hrest : Stops rest) :
    readNumber d start negative (ds ++ rest) =
      if d.refusesDigits ds.length then .error (.tooManyDigits ds.length)
      else .ok (wholeNumber negative ds, rest) := by
  have hnone : ∀ x ∈ ([] : List Char), x.isDigit = true := by simp
  have hfraction : readFraction rest = ([], rest) :=
    readFraction_append hnone hrest.noDigit fun h => (hrest.noNumber '.' h).2.1 rfl
  have hexponent : readExponent rest = (none, rest) :=
    readExponent_none fun c hc => (hrest.noNumber c hc).2.2
  simp only [readNumber, readWhole_append hds hrest.noDigit, hfraction, hexponent, and_self,
    if_true, wholeNumber]

/-- A number with a fraction or an exponent is binary: the one nearest to its digits. -/
theorem readNumber_spelled (d : Dialect) (start : List Char) (negative : Bool)
    {whole fraction es rest : List Char} {exponent : Option Int} (hwhole : Whole whole)
    (hfraction : ∀ x ∈ fraction, x.isDigit = true) (hexponent : Exponent es exponent)
    (hparts : fraction ≠ [] ∨ exponent ≠ none) (hrest : Stops rest) :
    readNumber d start negative (whole ++ (pointed fraction ++ (es ++ rest))) =
      .ok (.float (Binary64.ofDecimal negative (value 10 (whole ++ fraction))
        (exponent.getD 0 - fraction.length)), rest) := by
  have hhead : ∀ c, (es ++ rest).head? = some c → c.isDigit = false ∧ c ≠ '.' := by
    intro c hc
    cases es with
    | nil => exact ⟨(hrest.noNumber c hc).1, (hrest.noNumber c hc).2.1⟩
    | cons e es =>
      cases hc
      rcases hexponent.head _ rfl with rfl | rfl <;> decide
  have hpointed : readFraction (pointed fraction ++ (es ++ rest)) = (fraction, es ++ rest) :=
    readFraction_append hfraction (fun c hc => (hhead c hc).1) (fun h => (hhead '.' h).2 rfl)
  have hstart : NoDigit (pointed fraction ++ (es ++ rest)) := by
    intro c hc
    rw [pointed] at hc
    split at hc
    · exact (hhead c hc).1
    · cases hc; decide
  have hnot : ¬(fraction = [] ∧ exponent = none) := by
    rintro ⟨hf, he⟩
    rcases hparts with h | h
    · exact h hf
    · exact h he
  simp only [readNumber, readWhole_append hwhole hstart, hpointed,
    readExponent_append hexponent hrest, if_neg hnot]

theorem readNumber_parts (d : Dialect) (start : List Char) (negative : Bool)
    {whole fraction rest : List Char} {exponent : Option (Bool × List Char)} (hwhole : Whole whole)
    (hfraction : ∀ x ∈ fraction, x.isDigit = true)
    (hexponent : ∀ e, exponent = some e → e.2 ≠ [] ∧ ∀ x ∈ e.2, x.isDigit = true)
    (hparts : fraction ≠ [] ∨ exponent ≠ none) (hrest : Stops rest) :
    readNumber d start negative (whole ++ (pointed fraction ++ (raised exponent ++ rest))) =
      .ok (.float (Binary64.ofDecimal negative (value 10 (whole ++ fraction))
        ((raisedValue exponent).getD 0 - fraction.length)), rest) := by
  refine readNumber_spelled d start negative hwhole hfraction (exponent_raised hexponent) ?_ hrest
  refine hparts.imp id fun h hnone => h ?_
  cases exponent with
  | none => rfl
  | some e => cases hnone

section Taken

theorem takeWhile_digits (cs : List Char) :
    (∀ x ∈ cs.takeWhile Char.isDigit, x.isDigit = true) ∧
      cs = cs.takeWhile Char.isDigit ++ cs.dropWhile Char.isDigit :=
  ⟨fun _ => Text.mem_takeWhile, List.takeWhile_append_dropWhile.symm⟩

theorem readWhole_some {cs ds rest : List Char} (h : readWhole cs = some (ds, rest)) :
    cs = ds ++ rest ∧ Whole ds := by
  unfold readWhole at h
  split at h
  · cases h
    exact ⟨rfl, .inl rfl⟩
  · rename_i c cs hzero
    split at h
    · rename_i hc
      obtain ⟨hdigits, hsplit⟩ := takeWhile_digits (c :: cs)
      cases h
      refine ⟨hsplit, .inr ⟨c, cs.takeWhile Char.isDigit, ?_, ?_, hdigits⟩⟩
      · rw [List.takeWhile_cons_of_pos hc]
      · rintro rfl
        exact hzero rfl
    · cases h
  · cases h

theorem readFraction_eq {cs ds rest : List Char} (h : readFraction cs = (ds, rest)) :
    cs = pointed ds ++ rest ∧ ∀ x ∈ ds, x.isDigit = true := by
  unfold readFraction at h
  split at h
  · rename_i more
    obtain ⟨hdigits, hsplit⟩ := takeWhile_digits more
    split at h
    · cases h
      exact ⟨rfl, by simp⟩
    · rename_i hne
      cases h
      refine ⟨?_, hdigits⟩
      rw [pointed, if_neg hne, List.cons_append, ← hsplit]
  · cases h
    exact ⟨rfl, by simp⟩

/-- Digits behind the letter and the sign of an exponent, or no exponent at all. -/
theorem digits_readExponent {negative : Bool} {ds cs rest : List Char} {x : Option Int}
    (h : (match ds.takeWhile Char.isDigit with
      | [] => ((none : Option Int), cs)
      | es =>
        let n : Int := value 10 es
        (some (if negative then -n else n), ds.dropWhile Char.isDigit)) = (x, rest)) :
    (x = none ∧ rest = cs) ∨ ∃ es, es ≠ [] ∧ (∀ c ∈ es, c.isDigit = true) ∧ ds = es ++ rest ∧
      x = some (if negative then -(value 10 es : Int) else (value 10 es : Int)) := by
  obtain ⟨hdigits, hsplit⟩ := takeWhile_digits ds
  split at h
  · cases h
    exact .inl ⟨rfl, rfl⟩
  · rename_i hne
    cases h
    exact .inr ⟨_, hne, hdigits, hsplit, rfl⟩

theorem readExponent_eq {cs rest : List Char} {x : Option Int} (h : readExponent cs = (x, rest)) :
    ∃ es, cs = es ++ rest ∧ Exponent es x := by
  unfold readExponent at h
  split at h
  · rename_i c more
    split at h
    · rename_i hc
      split at h
      rename_i negative ds hsign
      obtain ⟨rfl, rfl⟩ | ⟨es, hne, hdigits, rfl, rfl⟩ := digits_readExponent h
      · exact ⟨[], rfl, .absent⟩
      · split at hsign
        · cases hsign
          exact ⟨c :: '-' :: es, rfl, .minus hc hne hdigits⟩
        · cases hsign
          exact ⟨c :: '+' :: es, rfl, .plus hc hne hdigits⟩
        · cases hsign
          exact ⟨c :: es, rfl, .plain hc hne hdigits⟩
    · cases h
      exact ⟨[], rfl, .absent⟩
  · cases h
    exact ⟨[], rfl, .absent⟩

end Taken

end ScriptLint.Json
