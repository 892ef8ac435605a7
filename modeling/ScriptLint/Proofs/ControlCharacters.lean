import ScriptLint.Proofs.Writing

/-!
# ScriptLint.Proofs.ControlCharacters

A document on one line holds no control character, whatever the strings in it are: it is one line to
everything that reads it, and nothing cuts it short.

* `NoControl`: texts without control characters
* `noControl_writeChar`: one character of a string, escaped or not
* `noControl_write`, `noControl_encode`: a document that is not laid out over lines
-/

namespace ScriptLint.Json

open Digits

/-- No character is below the first that is printed. -/
def NoControl (cs : List Char) : Prop := ∀ c ∈ cs, 0x20 ≤ c.toNat

instance (cs : List Char) : Decidable (NoControl cs) :=
  List.decidableBAll (fun c : Char => 0x20 ≤ c.toNat) cs

theorem NoControl.not_mem {cs : List Char} (h : NoControl cs) {c : Char} (hc : c.toNat < 0x20) :
    c ∉ cs := by
  intro hmem
  have := h c hmem
  omega

section Parts

variable {c : Char} {cs xs ys : List Char}

theorem noControl_nil : NoControl [] := by
  intro c h
  cases h

theorem noControl_cons (hc : 0x20 ≤ c.toNat) (h : NoControl cs) : NoControl (c :: cs) :=
  List.forall_mem_cons.2 ⟨hc, h⟩

theorem noControl_append (hx : NoControl xs) (hy : NoControl ys) : NoControl (xs ++ ys) :=
  List.forall_mem_append.2 ⟨hx, hy⟩

theorem noControl_replicate (hc : 0x20 ≤ c.toNat) (k : Nat) : NoControl (List.replicate k c) := by
  intro x hx
  rw [List.eq_of_mem_replicate hx]
  exact hc

theorem noControl_digits (h : ∀ x ∈ cs, x.isDigit = true) : NoControl cs := by
  intro c hc
  have hdigit := h c hc
  simp only [Char.isDigit, Bool.and_eq_true, decide_eq_true_eq] at hdigit
  have hlow : 48 ≤ c.toNat := hdigit.1
  omega

end Parts

section Strings

theorem noControl_hex (k n : Nat) : NoControl (hex k n) := by
  intro c hc
  obtain ⟨d, hd, rfl⟩ := hex_hexDigit k n c hc
  have hall : ∀ d, d < 16 → 0x20 ≤ (digitChar d).toNat := by decide
  exact hall d hd

theorem noControl_unitEscape (n : Nat) : NoControl (unitEscape n) :=
  noControl_cons (by decide) (noControl_cons (by decide) (noControl_hex 4 n))

theorem noControl_unitEscapes (c : Char) : NoControl (unitEscapes c) := by
  rw [unitEscapes]
  split
  · exact noControl_unitEscape _
  · exact noControl_append (noControl_unitEscape _) (noControl_unitEscape _)

theorem noControl_shortEscape {c : Char} {e : List Char} (h : shortEscape? c = some e) :
    NoControl e := by
  obtain ⟨l, rfl, hl⟩ := shortEscape?_letter h
  have hletters : ∀ p ∈ escapedLetters, 0x20 ≤ p.1.toNat := by decide
  exact noControl_cons (by decide) (noControl_cons (hletters _ hl) noControl_nil)

theorem noControl_writeChar (ascii : Bool) (c : Char) : NoControl (writeChar ascii c) := by
  rw [writeChar]
  split
  · rename_i e he
    exact noControl_shortEscape he
  · split
    · exact noControl_unitEscape _
    · rename_i hcontrol
      split
      · exact noControl_unitEscapes c
      · exact noControl_cons (by omega) noControl_nil

theorem noControl_writeString (ascii : Bool) (s : String) : NoControl (writeString ascii s) := by
  refine noControl_cons (by decide) (noControl_append ?_ (noControl_cons (by decide) noControl_nil))
  intro c hc
  obtain ⟨x, _, hx⟩ := List.mem_flatMap.1 hc
  exact noControl_writeChar ascii x c hx

end Strings

section Numbers

theorem noControl_signed {negative : Bool} {cs : List Char} (h : NoControl cs) :
    NoControl (signed negative cs) := by
  cases negative with
  | false => exact h
  | true => exact noControl_cons (by decide) h

theorem noControl_ofInt (i : Int) : NoControl (Digits.ofInt i) := by
  rw [ofInt_signed]
  exact noControl_signed (noControl_digits (decimal_isDigit _))

theorem noControl_pointed {cs : List Char} (h : ∀ x ∈ cs, x.isDigit = true) :
    NoControl (pointed cs) := by
  rw [pointed]
  split
  · exact noControl_nil
  · exact noControl_cons (by decide) (noControl_digits h)

theorem noControl_raised {e : Option (Bool × List Char)}
    (h : ∀ p, e = some p → p.2 ≠ [] ∧ ∀ x ∈ p.2, x.isDigit = true) : NoControl (raised e) := by
  cases e with
  | none => exact noControl_nil
  | some p =>
    refine noControl_cons (by decide) (noControl_cons ?_ (noControl_digits (h p rfl).2))
    split <;> decide

theorem noControl_spell {l : Binary64.Layout} {s : Binary64.Scaled} (hs : 0 < s.digits)
    (hmark : NoControl l.wholeMark.toList) : NoControl (l.spell s) := by
  by_cases h : l.isWhole s
  · rw [Binary64.spell_whole h]
    exact noControl_append (noControl_append (noControl_digits (decimal_isDigit _))
      (noControl_replicate (by decide) _)) hmark
  · obtain ⟨whole, fraction, exponent, hspell, hwhole, hfraction, hexponent, _⟩ :=
      Binary64.spell_parts hs h
    rw [hspell]
    exact noControl_append (noControl_digits hwhole.digits)
      (noControl_append (noControl_pointed hfraction) (noControl_raised hexponent))

theorem noControl_writeNumber (x : Binary64) : NoControl (writeNumber x) := by
  cases x with
  | nan => exact (by decide : NoControl "NaN".toList)
  | infinite negative =>
    cases negative with
    | false => exact (by decide : NoControl "Infinity".toList)
    | true => exact (by decide : NoControl "-Infinity".toList)
  | finite negative m e =>
    cases m with
    | zero =>
      rw [Binary64.writeNumber_zero]
      exact noControl_signed (by decide)
    | succ m =>
      rw [Binary64.writeNumber_pos (Nat.succ_pos m)]
      have h : NoControl Binary64.document.wholeMark.toList := by decide
      exact noControl_signed (noControl_spell (Binary64.shortest_pos _ (Nat.succ_pos m) e) h)

end Numbers

section Documents

variable {st : Style}

theorem newline_oneLine (hst : st.indent = none) (level : Nat) : st.newline level = [] := by
  rw [Style.newline, hst]

theorem noControl_separator (hst : st.indent = none) (level : Nat) :
    NoControl (st.separator level) := by
  rw [Style.separator, hst]
  exact (by decide : NoControl [',', ' '])

theorem noControl_field {n : String} {ascii : Bool} {cs : List Char} (h : NoControl cs) :
    NoControl (writeString ascii n ++ ':' :: ' ' :: cs) :=
  noControl_append (noControl_writeString ascii n)
    (noControl_cons (by decide) (noControl_cons (by decide) h))

mutual

/-- A document on one line holds no control character. -/
theorem noControl_write (hst : st.indent = none) : ∀ (j : Json) (level : Nat),
    NoControl (write st level j)
  | .null, level => by
    rw [write]
    exact (by decide : NoControl "null".toList)
  | .bool b, level => by
    rw [write]
    cases b with
    | false => exact (by decide : NoControl "false".toList)
    | true => exact (by decide : NoControl "true".toList)
  | .int i, level => by
    rw [write]
    exact noControl_ofInt i
  | .float x, level => by
    rw [write]
    exact noControl_writeNumber x
  | .str s, level => by
    rw [write]
    exact noControl_writeString st.ascii s
  | .arr [], level => by
    rw [write]
    exact (by decide : NoControl ['[', ']'])
  | .arr (x :: xs), level => by
    have hitem := noControl_write hst x (level + 1)
    have hitems := noControl_writeItems hst xs (level + 1)
    rw [write, newline_oneLine hst, newline_oneLine hst, List.append_nil]
    exact noControl_append (noControl_append (noControl_append (by decide : NoControl ['['])
      hitem) hitems) (by decide)
  | .obj [], level => by
    rw [write]
    exact (by decide : NoControl ['\x7b', '\x7d'])
  | .obj ((n, x) :: fs), level => by
    have hfield : NoControl (writeString st.ascii n ++ ':' :: ' ' :: write st (level + 1) x) :=
      noControl_field (noControl_write hst x (level + 1))
    have hfields := noControl_writeFields hst fs (level + 1)
    have h := noControl_append (noControl_append (noControl_append (by decide : NoControl ['\x7b'])
      hfield) hfields) (by decide : NoControl ['\x7d'])
    rw [write, newline_oneLine hst, newline_oneLine hst, List.append_nil]
    simpa only [List.cons_append, List.append_assoc] using h

theorem noControl_writeItems (hst : st.indent = none) : ∀ (xs : List Json) (level : Nat),
    NoControl (writeItems st level xs)
  | [], level => by
    rw [writeItems]
    exact noControl_nil
  | x :: xs, level => by
    rw [writeItems]
    exact noControl_append (noControl_append (noControl_separator hst level)
      (noControl_write hst x level)) (noControl_writeItems hst xs level)

theorem noControl_writeFields (hst : st.indent = none) :
    ∀ (fs : List (String × Json)) (level : Nat), NoControl (writeFields st level fs)
  | [], level => by
    rw [writeFields]
    exact noControl_nil
  | (n, x) :: fs, level => by
    have hfield : NoControl (writeString st.ascii n ++ ':' :: ' ' :: write st level x) :=
      noControl_field (noControl_write hst x level)
    have h := noControl_append (noControl_append (noControl_separator hst level) hfield)
      (noControl_writeFields hst fs level)
    rw [writeFields]
    simpa only [List.cons_append, List.append_assoc] using h

end

theorem noControl_encode (j : Json) : NoControl j.encode.toList := by
  rw [encode, String.toList_ofList]
  exact noControl_write rfl j 0

end Documents

end ScriptLint.Json
