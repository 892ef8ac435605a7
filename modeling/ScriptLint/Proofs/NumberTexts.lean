import ScriptLint.Engine.Datum
import ScriptLint.Proofs.Reading

/-!
# ScriptLint.Proofs.NumberTexts

The text of a binary number is the text of a number of a document, in either layout.

* `shortest_pos`: the digits of a number that is not zero are not zero
* `spell_whole`, `spell_parts`: the parts of a spelled number
* `Binary64.respelled`, `Binary64.scriptDocument`: the numbers that the two layouts read as
* `reads_writeNumber`, `reads_numberText`: reading them
-/

namespace ScriptLint

namespace Binary64

theorem twoTo_pos (k : Int) : 0 < twoTo k := Nat.pow_pos (by omega)

theorem tenTo_pos (k : Int) : 0 < tenTo k := Nat.pow_pos (by omega)

theorem interval_low_pos {m : Nat} (hm : 0 < m) (e : Int) : 0 < (interval m e).1 := by
  have h : 0 < (if m = twoTo (precision - 1) ∧ minExponent < e then 4 * m - 1 else 4 * m - 2) := by
    split <;> omega
  simp only [interval]
  split
  · exact Nat.mul_pos h (twoTo_pos e)
  · exact h

theorem ratioGt_zero {a : Nat} (ha : 0 < a) (b : Nat) (k : Int) : ratioGt a b 0 k = true := by
  simp only [ratioGt, Nat.zero_mul]
  split
  · exact decide_eq_true ha
  · exact decide_eq_true (Nat.mul_pos ha (tenTo_pos _))

theorem ratioLt_zero (a b : Nat) (k : Int) : ratioLt a b 0 k = false := by
  simp only [ratioLt, Nat.zero_mul]
  split <;> rfl

/-- Zero is none of the numbers that round to a number above it. -/
theorem readsBack_zero {m : Nat} (hm : 0 < m) (e k : Int) : readsBack m e 0 k = false := by
  have hlow := interval_low_pos hm e
  simp only [readsBack, ratioGt_zero hlow, ratioLt_zero, Bool.not_true, Bool.false_and, ite_self]

theorem onGrid_pos {strict : Bool} {m n : Nat} {e order : Int} {s : Scaled} (hm : 0 < m)
    (h : onGrid strict m e order n = some s) : 0 < s.digits := by
  have hpos : ∀ c k, readsBack m e c k = true → 0 < c := by
    intro c k hback
    refine Nat.pos_of_ne_zero ?_
    rintro rfl
    rw [readsBack_zero hm] at hback
    cases hback
  -- the digits are those of a neighbour that reads back, or of the one above some grid number
  simp only [onGrid] at h
  repeat' split at h
  all_goals cases h
  all_goals first
    | exact Nat.succ_pos _
    | exact hpos _ _ ‹_›

theorem Scaled.carried_pos {s : Scaled} (h : 0 < s.digits) : 0 < s.carried.digits := by
  rw [carried]
  split
  · show 0 < s.digits / 10
    omega
  · exact h

theorem firstGrid_pos {strict : Bool} {m : Nat} {e order : Int} (hm : 0 < m) (fuel n : Nat) :
    0 < (firstGrid strict m e order fuel n).digits := by
  induction fuel generalizing n with
  | zero => exact Nat.succ_pos _
  | succ fuel ih =>
    rw [firstGrid]
    split
    · rename_i s h
      exact Scaled.carried_pos (onGrid_pos hm h)
    · exact ih (n + 1)

/-- A number that is not zero has digits that are not zero. -/
theorem shortest_pos (strict : Bool) {m : Nat} (hm : 0 < m) (e : Int) :
    0 < (shortest strict m e).digits :=
  firstGrid_pos hm 17 1

section Spelling

open Digits Json

variable {l : Layout} {s : Scaled}

/-- The exponent of the first digit. -/
def Scaled.first (s : Scaled) : Int := s.exponent + ((decimal s.digits).length : Int) - 1

/-- Whether a layout writes a number without exponent and without digits behind the point. -/
def Layout.isWhole (l : Layout) (s : Scaled) : Prop :=
  (l.positionalFrom ≤ s.first ∧ s.first ≤ l.positionalTo) ∧ 0 ≤ s.exponent

instance (l : Layout) (s : Scaled) : Decidable (l.isWhole s) :=
  inferInstanceAs (Decidable ((_ ∧ _) ∧ _))

theorem spell_whole (h : l.isWhole s) :
    l.spell s =
      decimal s.digits ++ List.replicate s.exponent.toNat '0' ++ l.wholeMark.toList := by
  obtain ⟨hfirst, hexp⟩ := h
  rw [Scaled.first] at hfirst
  simp only [Layout.spell, if_pos hfirst, if_pos hexp]

theorem decimal_head (h : 0 < s.digits) : ∃ c cs, decimal s.digits = c :: cs ∧ c ≠ '0' :=
  (decimal_spells s.digits).head_ne_zero (by omega) h

/-- The digits of a number that is not zero, cut anywhere, start with a whole part. -/
theorem whole_take (h : 0 < s.digits) {k : Nat} (hk : 0 < k) :
    Whole ((decimal s.digits).take k) := by
  obtain ⟨c, cs, hds, hc⟩ := decimal_head h
  obtain ⟨k, rfl⟩ : ∃ j, k = j + 1 := ⟨k - 1, by omega⟩
  refine .inr ⟨c, cs.take k, by rw [hds, List.take_succ_cons], hc, ?_⟩
  intro x hx
  exact decimal_isDigit _ x (List.mem_of_mem_take hx)

theorem whole_zeros (h : 0 < s.digits) (k : Nat) :
    Whole (decimal s.digits ++ List.replicate k '0') := by
  obtain ⟨c, cs, hds, hc⟩ := decimal_head h
  refine .inr ⟨c, cs ++ List.replicate k '0', by rw [hds, List.cons_append], hc, ?_⟩
  intro x hx
  rcases List.mem_append.1 hx with hx | hx
  · exact decimal_isDigit _ x hx
  · rw [List.eq_of_mem_replicate hx]
    rfl

theorem isDigit_padLeft {k : Nat} {ds : List Char} (h : ∀ x ∈ ds, x.isDigit = true) :
    ∀ x ∈ padLeft '0' k ds, x.isDigit = true := by
  intro x hx
  rcases List.mem_append.1 hx with hx | hx
  · rw [List.eq_of_mem_replicate hx]
    rfl
  · exact h x hx

theorem value_padLeft (b k : Nat) (ds : List Char) : value b (padLeft '0' k ds) = value b ds :=
  value_zeros b _ ds

/-- `cs` has a whole part and a fraction or an exponent, and spells the digits and the power of ten
of `s`. -/
def InParts (s : Scaled) (cs : List Char) : Prop :=
  ∃ whole fraction exponent, cs = whole ++ (pointed fraction ++ raised exponent) ∧
    Whole whole ∧ (∀ x ∈ fraction, x.isDigit = true) ∧
    (∀ e, exponent = some e → e.2 ≠ [] ∧ ∀ x ∈ e.2, x.isDigit = true) ∧
    (fraction ≠ [] ∨ exponent ≠ none) ∧ value 10 (whole ++ fraction) = s.digits ∧
    (raisedValue exponent).getD 0 - fraction.length = s.exponent

theorem inParts_among (hs : 0 < s.digits)
    (hfirst : l.positionalFrom ≤ s.first ∧ s.first ≤ l.positionalTo) (hexp : ¬0 ≤ s.exponent)
    (hzero : 0 ≤ s.first) : InParts s (l.spell s) := by
  have hlen : s.first.toNat + 1 < (decimal s.digits).length := by
    rw [Scaled.first] at hzero ⊢
    omega
  have hne : (decimal s.digits).drop (s.first.toNat + 1) ≠ [] := by
    rw [ne_eq, List.drop_eq_nil_iff]
    omega
  refine ⟨(decimal s.digits).take (s.first.toNat + 1),
    (decimal s.digits).drop (s.first.toNat + 1), none, ?_, whole_take hs (by omega), ?_, ?_,
    .inl hne, ?_, ?_⟩
  · rw [Scaled.first] at hfirst hzero hne ⊢
    simp only [Layout.spell, if_pos hfirst, if_neg hexp, if_pos hzero, pointed, if_neg hne,
      raised, List.append_nil]
  · intro x hx
    exact decimal_isDigit s.digits x (List.mem_of_mem_drop hx)
  · intro e he
    cases he
  · rw [List.take_append_drop, value_decimal]
  · simp only [raisedValue, Option.getD_none, List.length_drop]
    rw [Scaled.first] at hlen hzero ⊢
    omega

theorem inParts_behind (hfirst : l.positionalFrom ≤ s.first ∧ s.first ≤ l.positionalTo)
    (hexp : ¬0 ≤ s.exponent) (hzero : ¬0 ≤ s.first) : InParts s (l.spell s) := by
  have hpos := List.length_pos_iff.2 (decimal_spells s.digits).ne_nil
  refine ⟨['0'], List.replicate ((-s.first).toNat - 1) '0' ++ decimal s.digits, none, ?_,
    .inl rfl, ?_, ?_, .inl (by simp [(decimal_spells s.digits).ne_nil]), ?_, ?_⟩
  · rw [Scaled.first] at hfirst hzero ⊢
    simp only [Layout.spell, if_pos hfirst, if_neg hexp, if_neg hzero, pointed, raised,
      List.append_eq_nil_iff, (decimal_spells s.digits).ne_nil, and_false, if_false,
      List.append_nil, List.cons_append, List.nil_append]
  · intro x hx
    rcases List.mem_append.1 hx with hx | hx
    · rw [List.eq_of_mem_replicate hx]
      rfl
    · exact decimal_isDigit s.digits x hx
  · intro e he
    cases he
  · have hzeros := value_zeros 10 ((-s.first).toNat - 1 + 1) (decimal s.digits)
    rw [List.replicate_succ, value_decimal] at hzeros
    exact hzeros
  · simp only [raisedValue, Option.getD_none, List.length_append, List.length_replicate]
    rw [Scaled.first] at hzero ⊢
    omega

theorem inParts_raised (hs : 0 < s.digits)
    (hfirst : ¬(l.positionalFrom ≤ s.first ∧ s.first ≤ l.positionalTo)) :
    InParts s (l.spell s) := by
  have hpos := List.length_pos_iff.2 (decimal_spells s.digits).ne_nil
  refine ⟨(decimal s.digits).take 1, (decimal s.digits).drop 1,
    some (decide (s.first < 0), padLeft '0' l.exponentSize (decimal s.first.natAbs)), ?_,
    whole_take hs (by omega), ?_, ?_, .inr (by simp), ?_, ?_⟩
  · rw [Scaled.first] at hfirst ⊢
    have hdrop : ((decimal s.digits).length = 1) ↔ (decimal s.digits).drop 1 = [] := by
      rw [List.drop_eq_nil_iff]
      omega
    simp only [Layout.spell, if_neg hfirst, pointed, raised, decide_eq_true_eq, hdrop,
      List.append_assoc]
  · intro x hx
    exact decimal_isDigit s.digits x (List.mem_of_mem_drop hx)
  · intro e he
    cases he
    refine ⟨?_, isDigit_padLeft (decimal_isDigit _)⟩
    simp [padLeft, (decimal_spells s.first.natAbs).ne_nil]
  · rw [List.take_append_drop, value_decimal]
  · simp only [raisedValue, Option.getD_some, List.length_drop, value_padLeft, value_decimal,
      decide_eq_true_eq]
    rw [Scaled.first]
    split <;> omega

/-- What is not written as a whole number has a fraction or an exponent. -/
theorem spell_parts (hs : 0 < s.digits) (h : ¬l.isWhole s) : InParts s (l.spell s) := by
  by_cases hfirst : l.positionalFrom ≤ s.first ∧ s.first ≤ l.positionalTo
  · have hexp : ¬0 ≤ s.exponent := fun hexp => h ⟨hfirst, hexp⟩
    -- the point stands among the digits, or before all of them
    by_cases hzero : 0 ≤ s.first
    · exact inParts_among hs hfirst hexp hzero
    · exact inParts_behind hfirst hexp hzero
  · exact inParts_raised hs hfirst

/-- A number with a fraction or an exponent reads as the binary number nearest to its digits. -/
theorem reads_parts {d : Dialect} {negative : Bool} (hs : 0 < s.digits) (h : ¬l.isWhole s) :
    Reads d (signed negative (l.spell s))
      (.ok (.float (ofDecimal negative s.digits s.exponent))) := by
  obtain ⟨whole, fraction, exponent, hspell, hwhole, hfraction, hexponent, hparts, hvalue, hpower⟩ :=
    spell_parts hs h
  rw [hspell]
  refine Reads.number hwhole ?_
  intro start rest hrest
  rw [List.append_assoc,
    readNumber_parts d start negative hwhole hfraction hexponent hparts hrest, hvalue, hpower]
  rfl

theorem value_decimal_zeros (s : Scaled) :
    value 10 (decimal s.digits ++ List.replicate s.exponent.toNat '0') =
      s.digits * tenTo s.exponent := by
  rw [value_append_zeros, value_decimal]
  rfl

/-- The number that a text in the layout of documents reads as. -/
def respelled : Binary64 → Binary64
  | .finite negative 0 _ => zero negative
  | .finite negative m e =>
    let s := shortest document.strict m e
    if document.isWhole s then ofDecimal negative (s.digits * tenTo s.exponent * 10) (-1)
    else ofDecimal negative s.digits s.exponent
  | x => x

/-- What a reader makes of a number in the layout of documents: special numbers are refused where
the dialect has none. -/
def reread (d : Dialect) : Binary64 → Except ReadError Json
  | .nan => if d.special then .ok (.float .nan) else .error (.refused "NaN")
  | .infinite true => if d.special then .ok (.float (.infinite true)) else .error (.refused "-")
  | .infinite false =>
    if d.special then .ok (.float (.infinite false)) else .error (.refused "Infinity")
  | x => .ok (.float x.respelled)

theorem reads_pointZero {d : Dialect} {negative : Bool} {whole : List Char}
    (hwhole : Whole whole) :
    Reads d (signed negative (whole ++ ['.', '0']))
      (.ok (.float (ofDecimal negative (value 10 whole * 10) (-1)))) := by
  refine Reads.number hwhole ?_
  intro start rest hrest
  have hfraction : ∀ x ∈ ['0'], x.isDigit = true := by simp
  have hexponent : ∀ e, (none : Option (Bool × List Char)) = some e →
      e.2 ≠ [] ∧ ∀ x ∈ e.2, x.isDigit = true := by simp
  have h := readNumber_parts d start negative hwhole hfraction hexponent (.inl (by simp)) hrest
  have hvalue : value 10 (whole ++ ['0']) = value 10 whole * 10 :=
    value_append_digit (b := 10) (by omega : 0 < 16) whole
  rw [hvalue] at h
  exact h

theorem reads_spell_document {d : Dialect} {negative : Bool} {m : Nat} {e : Int} (hm : 0 < m) :
    Reads d (signed negative (document.spell (shortest document.strict m e)))
      (.ok (.float (respelled (.finite negative m e)))) := by
  have hs := shortest_pos document.strict hm e
  obtain ⟨m, rfl⟩ : ∃ n, m = n + 1 := ⟨m - 1, by omega⟩
  simp only [respelled]
  split
  · rename_i hwhole
    rw [spell_whole hwhole, ← value_decimal_zeros]
    exact reads_pointZero (whole_zeros hs _)
  · rename_i hparts
    exact reads_parts hs hparts

theorem writeNumber_zero (negative : Bool) (e : Int) :
    writeNumber (.finite negative 0 e) = signed negative (['0'] ++ ['.', '0']) := by
  cases negative with
  | false =>
    have h : ("0" ++ ".0").toList = ['0', '.', '0'] := by decide
    exact h
  | true =>
    have h : ("-0" ++ ".0").toList = ['-', '0', '.', '0'] := by decide
    exact h

theorem writeNumber_pos {negative : Bool} {m : Nat} {e : Int} (hm : 0 < m) :
    writeNumber (.finite negative m e) =
      signed negative (document.spell (shortest document.strict m e)) := by
  obtain ⟨m, rfl⟩ : ∃ n, m = n + 1 := ⟨m - 1, by omega⟩
  rw [writeNumber, Layout.text, String.toList_ofList]
  · cases negative with
    | false => rfl
    | true => rfl
  · simp

/-- The written form of a number of a document is read back in every dialect. -/
theorem reads_writeNumber (d : Dialect) (x : Binary64) : Reads d (writeNumber x) (x.reread d) := by
  cases x with
  | nan =>
    exact Reads.special (w := "NaN") rfl rfl (by decide) (fun _ => rfl) (fun _ => rfl)
  | infinite negative =>
    cases negative with
    | false =>
      exact Reads.special (w := "Infinity") rfl rfl (by decide) (fun _ => rfl)
        (fun _ => rfl)
    | true =>
      exact Reads.special (w := "-Infinity") rfl rfl (by decide) (fun _ => rfl)
        (fun _ => rfl)
  | finite negative m e =>
    cases m with
    | zero =>
      have h : Reads d (signed negative (['0'] ++ ['.', '0']))
          (.ok (.float (ofDecimal negative (value 10 ['0'] * 10) (-1)))) :=
        reads_pointZero (.inl rfl)
      rw [show value 10 ['0'] * 10 = 0 by decide,
        show ofDecimal negative 0 (-1) = zero negative from if_pos rfl] at h
      rw [writeNumber_zero]
      exact h
    | succ m =>
      rw [writeNumber_pos (Nat.succ_pos m)]
      exact reads_spell_document (Nat.succ_pos m)

/-- The document of a number that a script writes: an integer where no point is written. Numbers
without digits are written as null. -/
def scriptDocument : Binary64 → Json
  | .finite _ 0 _ => .int 0
  | .finite negative m e =>
    let s := shortest script.strict m e
    if script.isWhole s then
      .int (if negative then -(s.digits * tenTo s.exponent : Nat) else (s.digits * tenTo s.exponent : Nat))
    else .float (ofDecimal negative s.digits s.exponent)
  | _ => .null

theorem reads_spell_script {negative : Bool} {m : Nat} {e : Int} (hm : 0 < m) :
    Reads .host (signed negative (script.spell (shortest script.strict m e)))
      (.ok (scriptDocument (.finite negative m e))) := by
  have hs := shortest_pos script.strict hm e
  obtain ⟨m, rfl⟩ : ∃ n, m = n + 1 := ⟨m - 1, by omega⟩
  simp only [scriptDocument]
  split
  · rename_i hwhole
    have hfirst : (shortest script.strict (m + 1) e).first ≤ 20 := hwhole.1.2
    have hexp := hwhole.2
    rw [Scaled.first] at hfirst
    rw [spell_whole hwhole, ← value_decimal_zeros, show script.wholeMark.toList = [] from rfl]
    refine Reads.number (whole_zeros hs _) ?_
    intro start rest hrest
    have hlen : Dialect.host.refusesDigits (decimal (shortest script.strict (m + 1) e).digits
        ++ List.replicate (shortest script.strict (m + 1) e).exponent.toNat '0').length = false := by
      simp only [Dialect.refusesDigits, Dialect.host, Option.any_some, decide_eq_false_iff_not,
        List.length_append, List.length_replicate, limit]
      omega
    rw [List.nil_append, readNumber_whole .host start negative (whole_zeros hs _) hrest, hlen]
    rfl
  · rename_i hparts
    exact reads_parts hs hparts

theorem numberText_zero (negative : Bool) (e : Int) :
    (Datum.numberText (.finite negative 0 e)).toList = ['0'] := by
  cases negative with
  | false =>
    have h : ("0" ++ "").toList = ['0'] := by decide
    exact h
  | true =>
    have h : ("0" ++ "").toList = ['0'] := by decide
    exact h

theorem numberText_pos {negative : Bool} {m : Nat} {e : Int} (hm : 0 < m) :
    (Datum.numberText (.finite negative m e)).toList =
      signed negative (script.spell (shortest script.strict m e)) := by
  obtain ⟨m, rfl⟩ : ∃ n, m = n + 1 := ⟨m - 1, by omega⟩
  rw [Datum.numberText, Layout.text, String.toList_ofList]
  · cases negative with
    | false => rfl
    | true => rfl
  · simp

/-- The text that a script writes for a number is read back by the library. -/
theorem reads_numberText {x : Binary64} (hx : x.isFinite = true) :
    Reads .host (Datum.numberText x).toList (.ok x.scriptDocument) := by
  cases x with
  | nan => cases hx
  | infinite negative => cases hx
  | finite negative m e =>
    cases m with
    | zero =>
      have h : Reads .host (signed false (['0'] ++ [])) (.ok (wholeNumber false ['0'])) :=
        Reads.number (.inl rfl) fun start rest hrest =>
          readNumber_whole .host start false (.inl rfl) hrest
      rw [numberText_zero]
      exact h
    | succ m =>
      rw [numberText_pos (Nat.succ_pos m)]
      exact reads_spell_script (Nat.succ_pos m)

end Spelling

end Binary64

end ScriptLint
