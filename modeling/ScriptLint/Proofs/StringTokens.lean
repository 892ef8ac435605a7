import ScriptLint.Json.Reader
import ScriptLint.Json.Writer
import ScriptLint.Proofs.Digits

/-!
# ScriptLint.Proofs.StringTokens

Strings of documents. What may stand between two quotes is given by a grammar; the reader takes
exactly that, and what is written is some of it, whichever characters are escaped.

* `UnitDigits`, `Quoted`: code units, and what stands between quotes for the characters of a string
* `readString_eq_ok_iff`: the reader takes what is quoted and nothing else
* `quoted_written`, `readString_written`: a written string is read back
* `literal_append`: a text is told by the literal that something starts with
-/

namespace ScriptLint.Json

open Digits

section Units

/-- Four hexadecimal digits spell the code unit `n`. -/
structure UnitDigits (ds : List Char) (n : Nat) : Prop where
  length : ds.length = 4
  digits : ∀ x ∈ ds, (hexDigit? x).isSome = true
  value : value 16 ds = n

theorem hexDigit?_lt {c : Char} {d : Nat} (h : hexDigit? c = some d) : d < 16 := by
  simp only [hexDigit?] at h
  repeat' split at h
  all_goals cases h
  all_goals omega

/-- Four digits that are read as a code unit spell it, and it has sixteen bits. -/
theorem unit?_eq_some_iff {a b c d : Char} {n : Nat} :
    unit? a b c d = some n ↔ UnitDigits [a, b, c, d] n := by
  constructor
  · intro h
    unfold unit? at h
    split at h
    · rename_i w x y z hw hx hy hz
      cases h
      refine ⟨rfl, ?_, ?_⟩
      · simp [hw, hx, hy, hz]
      · simp [value, hw, hx, hy, hz]
    · cases h
  · rintro ⟨_, hdigits, rfl⟩
    simp only [List.forall_mem_cons, Option.isSome_iff_exists] at hdigits
    obtain ⟨⟨w, hw⟩, ⟨x, hx⟩, ⟨y, hy⟩, ⟨z, hz⟩, _⟩ := hdigits
    simp [unit?, value, hw, hx, hy, hz]

variable {ds ds' : List Char} {n high low : Nat}

theorem UnitDigits.four (h : UnitDigits ds n) : ∃ a b c d, ds = [a, b, c, d] := by
  match ds, h.length with
  | [a, b, c, d], _ => exact ⟨a, b, c, d, rfl⟩

theorem UnitDigits.lt (h : UnitDigits ds n) : n < 0x10000 := by
  obtain ⟨a, b, c, d, rfl⟩ := h.four
  have hunit := unit?_eq_some_iff.2 h
  unfold unit? at hunit
  split at hunit
  · rename_i w x y z hw hx hy hz
    cases hunit
    have := hexDigit?_lt hw
    have := hexDigit?_lt hx
    have := hexDigit?_lt hy
    have := hexDigit?_lt hz
    omega
  · cases hunit

theorem unitDigits_hex (h : n < 0x10000) : UnitDigits (hex 4 n) n := by
  refine ⟨length_hex (by omega) (by omega), ?_, value_hex 4 n⟩
  intro x hx
  obtain ⟨d, hd, rfl⟩ := hex_hexDigit 4 n x hx
  rw [hexDigit?_digitChar hd]
  rfl

theorem toNat_not_surrogate (c : Char) : ¬(0xD800 ≤ c.toNat ∧ c.toNat ≤ 0xDFFF) := by
  have h := c.valid
  simp only [UInt32.isValidChar, Nat.isValidChar] at h
  have : c.toNat = c.val.toNat := rfl
  omega

theorem toNat_le (c : Char) : c.toNat ≤ 0x10FFFF := by
  have h := c.valid
  simp only [UInt32.isValidChar, Nat.isValidChar] at h
  have : c.toNat = c.val.toNat := rfl
  omega

theorem toNat_ofNat {n : Nat} (h : n < 0xD800 ∨ 0xDFFF < n ∧ n < 0x110000) :
    (Char.ofNat n).toNat = n := by
  have hvalid : n.isValidChar := h
  rw [Char.ofNat, dif_pos hvalid]
  rfl

theorem isHighSurrogate_iff : isHighSurrogate n = true ↔ 0xD800 ≤ n ∧ n ≤ 0xDBFF := by
  simp [isHighSurrogate]

theorem isLowSurrogate_iff : isLowSurrogate n = true ↔ 0xDC00 ≤ n ∧ n ≤ 0xDFFF := by
  simp [isLowSurrogate]

theorem unitChar_toNat (c : Char) : unitChar c.toNat = c := by
  rw [unitChar, if_neg (toNat_not_surrogate c), Char.ofNat_toNat]

theorem not_isHighSurrogate (c : Char) : isHighSurrogate c.toNat = false := by
  rw [Bool.eq_false_iff, ne_eq, isHighSurrogate_iff]
  have := toNat_not_surrogate c
  omega

/-- The character that two halves of a pair stand for. -/
theorem toNat_pairChar (hhigh : isHighSurrogate high = true) (hlow : isLowSurrogate low = true) :
    (pairChar high low).toNat = 0x10000 + (high - 0xD800) * 0x400 + (low - 0xDC00) := by
  rw [isHighSurrogate_iff] at hhigh
  rw [isLowSurrogate_iff] at hlow
  exact toNat_ofNat (by omega)

theorem pairChar_eq {c : Char} (hc : c.toNat = 0x10000 + (high - 0xD800) * 0x400 + (low - 0xDC00)) :
    pairChar high low = c := by
  rw [pairChar, ← hc, Char.ofNat_toNat]

end Units

section Grammar

/-- Letters that stand for a character behind a backslash. -/
def escapedLetters : List (Char × Char) :=
  [('"', '"'), ('\\', '\\'), ('/', '/'), ('b', '\x08'), ('f', '\x0c'), ('n', '\n'), ('r', '\r'),
    ('t', '\t')]

/-- What stands between the quotes of a string, and the characters of the string. A half of a pair
of code units is no character and is replaced, unless the other half comes right behind it. -/
inductive Quoted : List Char → List Char → Prop
  | nil : Quoted [] []
  | plain {c : Char} {cs s : List Char} (hquote : c ≠ '"') (hslash : c ≠ '\\')
    (hcontrol : 0x20 ≤ c.toNat) (h : Quoted cs s) : Quoted (c :: cs) (c :: s)
  | letter {l c : Char} {cs s : List Char} (hl : (l, c) ∈ escapedLetters) (h : Quoted cs s) :
    Quoted ('\\' :: l :: cs) (c :: s)
  | unit {ds cs s : List Char} {c : Char} (hds : UnitDigits ds c.toNat) (h : Quoted cs s) :
    Quoted ('\\' :: 'u' :: (ds ++ cs)) (c :: s)
  | pair {ds ds' cs s : List Char} {c : Char} {high low : Nat} (hds : UnitDigits ds high)
    (hds' : UnitDigits ds' low) (hhigh : isHighSurrogate high = true)
    (hlow : isLowSurrogate low = true)
    (hc : c.toNat = 0x10000 + (high - 0xD800) * 0x400 + (low - 0xDC00)) (h : Quoted cs s) :
    Quoted ('\\' :: 'u' :: (ds ++ '\\' :: 'u' :: (ds' ++ cs))) (c :: s)
  | half {ds cs s : List Char} {n : Nat} (hds : UnitDigits ds n)
    (hn : isHighSurrogate n = true ∨ isLowSurrogate n = true)
    (halone : isHighSurrogate n = true → ∀ ds' low more, UnitDigits ds' low →
      cs = '\\' :: 'u' :: (ds' ++ more) → isLowSurrogate low = false) (h : Quoted cs s) :
    Quoted ('\\' :: 'u' :: (ds ++ cs)) ('\uFFFD' :: s)

theorem escapedLetters_iff {l c : Char} : (l, c) ∈ escapedLetters ↔ letterEscape? l = some c := by
  constructor
  · intro h
    simp only [escapedLetters, List.mem_cons, Prod.mk.injEq, List.not_mem_nil, or_false] at h
    rcases h with ⟨rfl, rfl⟩ | ⟨rfl, rfl⟩ | ⟨rfl, rfl⟩ | ⟨rfl, rfl⟩ | ⟨rfl, rfl⟩ | ⟨rfl, rfl⟩ |
      ⟨rfl, rfl⟩ | ⟨rfl, rfl⟩ <;> rfl
  · intro h
    unfold letterEscape? at h
    repeat' split at h
    all_goals cases h
    all_goals subst_vars
    all_goals decide

theorem letter_ne_u {l c : Char} (h : (l, c) ∈ escapedLetters) : l ≠ 'u' := by
  rintro rfl
  rw [escapedLetters_iff] at h
  cases h

/-- A backslash is never the last character between quotes, and behind `u` there are the digits of
a code unit. -/
theorem Quoted.escape {cs s : List Char} (h : Quoted ('\\' :: cs) s) :
    ∃ l more, cs = l :: more ∧ (l = 'u' → ∃ ds n more', UnitDigits ds n ∧ more = ds ++ more') := by
  cases h with
  | plain _ hslash _ _ => exact absurd rfl hslash
  | letter hl _ => exact ⟨_, _, rfl, fun heq => absurd heq (letter_ne_u hl)⟩
  | unit hds _ => exact ⟨_, _, rfl, fun _ => ⟨_, _, _, hds, rfl⟩⟩
  | pair hds _ _ _ _ _ => exact ⟨_, _, rfl, fun _ => ⟨_, _, _, hds, rfl⟩⟩
  | half hds _ _ _ => exact ⟨_, _, rfl, fun _ => ⟨_, _, _, hds, rfl⟩⟩

end Grammar

section Pieces

variable {start mark cs tail ds ds' : List Char} {c : Char} {n high low : Nat}

theorem readUnits_single (hds : UnitDigits ds n) (hn : isHighSurrogate n = false)
    (htail : tail ≠ []) : readUnits mark (ds ++ tail) = .ok (unitChar n, tail) := by
  obtain ⟨w, x, y, z, rfl⟩ := hds.four
  simp only [List.cons_append, List.nil_append, readUnits, if_neg htail,
    unit?_eq_some_iff.2 hds, hn, Bool.false_eq_true, if_false]

theorem readUnits_pair (hds : UnitDigits ds high) (hds' : UnitDigits ds' low)
    (hhigh : isHighSurrogate high = true) (hlow : isLowSurrogate low = true) (htail : tail ≠ []) :
    readUnits mark (ds ++ '\\' :: 'u' :: (ds' ++ tail)) = .ok (pairChar high low, tail) := by
  obtain ⟨w, x, y, z, rfl⟩ := hds.four
  obtain ⟨w', x', y', z', rfl⟩ := hds'.four
  simp only [List.cons_append, List.nil_append, readUnits, unit?_eq_some_iff.2 hds, hhigh, if_true,
    htail, if_false, unit?_eq_some_iff.2 hds', hlow, reduceCtorEq]

/-- The first half of a pair with something else behind it. -/
theorem readUnits_half (hds : UnitDigits ds n) (hn : isHighSurrogate n = true) (htail : tail ≠ [])
    (halone : ∀ ds' more, ds'.length = 4 → tail = '\\' :: 'u' :: (ds' ++ more) →
      ∃ low, UnitDigits ds' low ∧ isLowSurrogate low = false) :
    readUnits mark (ds ++ tail) = .ok (unitChar n, tail) := by
  obtain ⟨w, x, y, z, rfl⟩ := hds.four
  simp only [List.cons_append, List.nil_append, readUnits, if_neg htail,
    unit?_eq_some_iff.2 hds, hn, if_true]
  split
  · rename_i e f g h rest
    obtain ⟨low, hlow, hfalse⟩ := halone [e, f, g, h] rest rfl rfl
    simp only [unit?_eq_some_iff.2 hlow, hfalse, Bool.false_eq_true, if_false, ite_self]
  · rfl

/-- What is read behind the letter of a code unit: a unit alone, or both halves of a pair. -/
theorem readUnits_ok (h : readUnits mark cs = .ok (c, tail)) :
    ∃ ds n, UnitDigits ds n ∧
      ((isHighSurrogate n = false ∧ cs = ds ++ tail ∧ c = unitChar n) ∨
      (∃ ds' low, UnitDigits ds' low ∧ isHighSurrogate n = true ∧ isLowSurrogate low = true ∧
        cs = ds ++ '\\' :: 'u' :: (ds' ++ tail) ∧ c = pairChar n low) ∨
      (isHighSurrogate n = true ∧ cs = ds ++ tail ∧ c = unitChar n ∧
        ∀ ds' low more, UnitDigits ds' low → more ≠ [] → tail = '\\' :: 'u' :: (ds' ++ more) →
          isLowSurrogate low = false)) := by
  unfold readUnits at h
  split at h
  case h_2 => cases h
  case h_1 w x y z rest =>
    split at h
    · cases h
    · split at h
      · cases h
      · rename_i n hunit
        refine ⟨[w, x, y, z], n, unit?_eq_some_iff.1 hunit, ?_⟩
        split at h
        · rename_i hn
          split at h
          · rename_i e f g k rest' _
            split at h
            · -- nothing follows the digits that could be the other half
              rename_i hnil
              cases h
              refine .inr (.inr ⟨hn, rfl, rfl, ?_⟩)
              intro ds' low more hds' hmore heq
              obtain ⟨e', f', g', k', rfl⟩ := hds'.four
              cases heq
              exact absurd hnil hmore
            · split at h
              · cases h
              · rename_i low hunit'
                split at h
                · rename_i hlow
                  simp only [Except.ok.injEq, Prod.mk.injEq] at h
                  obtain ⟨hc, rfl⟩ := h
                  exact .inr (.inl ⟨[e, f, g, k], low, unit?_eq_some_iff.1 hunit', hn, hlow, rfl,
                    hc.symm⟩)
                · rename_i hlow
                  cases h
                  refine .inr (.inr ⟨hn, rfl, rfl, ?_⟩)
                  intro ds' low' more hds' _ heq
                  obtain ⟨e', f', g', k', rfl⟩ := hds'.four
                  cases heq
                  rw [unit?_eq_some_iff.2 hds'] at hunit'
                  cases hunit'
                  exact Bool.eq_false_iff.2 hlow
          · rename_i hother
            cases h
            refine .inr (.inr ⟨hn, rfl, rfl, ?_⟩)
            intro ds' low more hds' _ heq
            obtain ⟨e', f', g', k', rfl⟩ := hds'.four
            exact absurd heq (hother e' f' g' k' more)
        · rename_i hn
          cases h
          exact .inl ⟨Bool.eq_false_iff.2 hn, rfl, rfl⟩

theorem readPiece_unit (h : readUnits ('u' :: cs) cs = .ok (c, tail)) :
    readPiece start ('\\' :: 'u' :: cs) = .char c tail := by
  simp only [readPiece, h]

theorem readPiece_letter {l : Char} (hl : (l, c) ∈ escapedLetters) :
    readPiece start ('\\' :: l :: tail) = .char c tail := by
  unfold readPiece
  split
  · rename_i h'; cases h'
  · rename_i h'; cases h'
  · rename_i h'; cases h'
  · rename_i h'; cases h'; exact absurd rfl (letter_ne_u hl)
  · rename_i h'; cases h'; rw [escapedLetters_iff.1 hl]
  · rename_i hne h'; cases h'; exact (hne l tail rfl rfl).elim

theorem readPiece_plain (hq : c ≠ '"') (hb : c ≠ '\\') (h : 0x20 ≤ c.toNat) :
    readPiece start (c :: tail) = .char c tail := by
  unfold readPiece
  split
  · rename_i h'; cases h'
  · rename_i h'; cases h'; exact absurd rfl hq
  · rename_i h'; cases h'; exact absurd rfl hb
  · rename_i h'; cases h'; exact absurd rfl hb
  · rename_i h'; cases h'; exact absurd rfl hb
  · rename_i h'; cases h'; rw [if_neg (by omega)]

theorem readPiece_closed (h : readPiece start cs = .closed tail) : cs = '"' :: tail := by
  unfold readPiece at h
  repeat' split at h
  all_goals cases h
  rfl

/-- One piece of a string is a character, a letter or code units behind a backslash. -/
theorem readPiece_char (h : readPiece start cs = .char c tail) :
    (cs = c :: tail ∧ c ≠ '"' ∧ c ≠ '\\' ∧ 0x20 ≤ c.toNat) ∨
    (∃ l, cs = '\\' :: l :: tail ∧ (l, c) ∈ escapedLetters) ∨
    ∃ more, cs = '\\' :: 'u' :: more ∧ readUnits ('u' :: more) more = .ok (c, tail) := by
  unfold readPiece at h
  split at h
  case h_1 => cases h
  case h_2 => cases h
  case h_3 => cases h
  case h_4 more =>
    split at h
    · rename_i hunits
      cases h
      exact .inr (.inr ⟨more, rfl, hunits⟩)
    · cases h
  case h_5 l more hu =>
    split at h
    · rename_i hl
      cases h
      exact .inr (.inl ⟨l, rfl, escapedLetters_iff.2 hl⟩)
    · cases h
  case h_6 x more hquote hlast _ hslash =>
    split at h
    · cases h
    · cases h
      refine .inl ⟨rfl, fun heq => hquote heq, ?_, by omega⟩
      rintro rfl
      cases tail with
      | nil => exact hlast rfl rfl
      | cons l more => exact hslash l more rfl rfl

end Pieces

section Strings

variable {start cs s rest : List Char}

theorem readChars_closed (h : readPiece start cs = .closed rest) :
    readChars start cs = .ok ([], rest) := by
  rw [readChars]
  split
  · rename_i h'; rw [h] at h'; cases h'; rfl
  · rename_i h'; rw [h] at h'; cases h'
  · rename_i h'; rw [h] at h'; cases h'

theorem readChars_char {tail : List Char} {c : Char} (h : readPiece start cs = .char c tail)
    (htail : readChars start tail = .ok (s, rest)) : readChars start cs = .ok (c :: s, rest) := by
  rw [readChars]
  split
  · rename_i h'; rw [h] at h'; cases h'
  · rename_i h'; rw [h] at h'; cases h'
  · rename_i h'; rw [h] at h'; cases h'; rw [htail]

/-- What is quoted is read up to the closing quote. -/
theorem Quoted.readChars (h : Quoted cs s) (start rest : List Char) :
    Json.readChars start (cs ++ '"' :: rest) = .ok (s, rest) := by
  have htail : ∀ more : List Char, more ++ '"' :: rest ≠ [] := fun more => by simp
  induction h with
  | nil => exact readChars_closed rfl
  | plain hquote hslash hcontrol _ ih =>
    exact readChars_char (readPiece_plain hquote hslash hcontrol) ih
  | letter hl _ ih => exact readChars_char (readPiece_letter hl) ih
  | @unit ds cs s c hds _ ih =>
    rw [List.cons_append, List.cons_append, List.append_assoc]
    refine readChars_char (readPiece_unit ?_) ih
    have hread : readUnits ('u' :: (ds ++ (cs ++ '"' :: rest))) (ds ++ (cs ++ '"' :: rest)) =
        .ok (unitChar c.toNat, cs ++ '"' :: rest) :=
      readUnits_single hds (not_isHighSurrogate c) (htail cs)
    rwa [unitChar_toNat] at hread
  | @pair ds ds' cs s c high low hds hds' hhigh hlow hc _ ih =>
    simp only [List.cons_append, List.append_assoc]
    refine readChars_char (readPiece_unit ?_) ih
    rw [readUnits_pair hds hds' hhigh hlow (htail cs), pairChar_eq hc]
  | @half ds cs s n hds hn halone hquoted ih =>
    have hreplaced : unitChar n = '\uFFFD' := by
      rw [isHighSurrogate_iff, isLowSurrogate_iff] at hn
      exact if_pos (by omega)
    rw [List.cons_append, List.cons_append, List.append_assoc]
    refine readChars_char (readPiece_unit ?_) ih
    rw [← hreplaced]
    cases hhigh : isHighSurrogate n with
    | false => exact readUnits_single hds hhigh (htail cs)
    | true =>
      refine readUnits_half hds hhigh (htail cs) ?_
      intro ds' more hlength heq
      -- digits behind another code unit are among what is quoted, and not beyond its end
      cases cs with
      | nil => cases heq
      | cons x cs =>
        rw [List.cons_append, List.cons.injEq] at heq
        obtain ⟨rfl, heq⟩ := heq
        obtain ⟨l, cs', rfl, hu⟩ := hquoted.escape
        rw [List.cons_append, List.cons.injEq] at heq
        obtain ⟨rfl, heq⟩ := heq
        obtain ⟨digits, low, more', hdigits, rfl⟩ := hu rfl
        rw [List.append_assoc] at heq
        obtain ⟨rfl, _⟩ := List.append_inj heq (hdigits.length.trans hlength.symm)
        exact ⟨low, hdigits, halone hhigh _ low more' hdigits rfl⟩

/-- A piece that is read extends what is quoted behind it. -/
theorem Quoted.of_readPiece {tail : List Char} {c : Char} (h : readPiece start cs = .char c tail)
    {body : List Char} (htail : tail = body ++ '"' :: rest) (hbody : Quoted body s) :
    ∃ front, cs = front ++ tail ∧ Quoted (front ++ body) (c :: s) := by
  have halone : ∀ {ds' more : List Char}, body = '\\' :: 'u' :: (ds' ++ more) →
      more ++ '"' :: rest ≠ [] ∧ tail = '\\' :: 'u' :: (ds' ++ (more ++ '"' :: rest)) := by
    rintro ds' more rfl
    exact ⟨by simp, by rw [htail]; simp⟩
  obtain ⟨rfl, hquote, hslash, hcontrol⟩ | ⟨l, rfl, hl⟩ | ⟨more, rfl, hunits⟩ := readPiece_char h
  · exact ⟨[c], rfl, .plain hquote hslash hcontrol hbody⟩
  · exact ⟨['\\', l], rfl, .letter hl hbody⟩
  · obtain ⟨ds, n, hds, ⟨hn, rfl, rfl⟩ | ⟨ds', low, hds', hn, hlow, rfl, hc⟩ |
      ⟨hn, rfl, rfl, hother⟩⟩ := readUnits_ok hunits
    · refine ⟨'\\' :: 'u' :: ds, rfl, ?_⟩
      rw [unitChar]
      split
      · rename_i hsurrogate
        have hlow : isLowSurrogate n = true := by
          rw [isLowSurrogate_iff]
          rw [Bool.eq_false_iff, ne_eq, isHighSurrogate_iff] at hn
          omega
        have hnot : isHighSurrogate n ≠ true := by
          rw [hn]
          exact Bool.false_ne_true
        exact .half hds (.inr hlow) (fun hhigh => absurd hhigh hnot) hbody
      · rename_i hplain
        have hlt := hds.lt
        have hc : (Char.ofNat n).toNat = n := toNat_ofNat (by omega)
        exact .unit (hc.symm ▸ hds) hbody
    · refine ⟨'\\' :: 'u' :: (ds ++ '\\' :: 'u' :: ds'), by simp, ?_⟩
      have hvalue := toNat_pairChar hn hlow
      rw [← hc] at hvalue
      have hpair := Quoted.pair hds hds' hn hlow hvalue hbody
      simpa using hpair
    · refine ⟨'\\' :: 'u' :: ds, rfl, ?_⟩
      have hreplaced : unitChar n = '\uFFFD' := by
        rw [isHighSurrogate_iff] at hn
        exact if_pos (by omega)
      rw [hreplaced]
      refine .half hds (.inl hn) (fun _ ds' low more hds' heq => ?_) hbody
      obtain ⟨hne, heq⟩ := halone heq
      exact hother ds' low _ hds' hne heq

theorem Quoted.of_readChars (h : Json.readChars start cs = .ok (s, rest)) :
    ∃ body, cs = body ++ '"' :: rest ∧ Quoted body s := by
  induction hlength : cs.length using Nat.strongRecOn generalizing cs s with
  | ind k ih =>
    rw [Json.readChars] at h
    split at h
    · rename_i hpiece
      cases h
      exact ⟨[], readPiece_closed hpiece, .nil⟩
    · cases h
    · rename_i c tail hpiece
      split at h
      · rename_i s' rest' htail
        cases h
        have hshorter := readPiece_shorter hpiece
        obtain ⟨body, hbody, hquoted⟩ := ih tail.length (by omega) htail rfl
        obtain ⟨front, rfl, hfront⟩ := Quoted.of_readPiece hpiece hbody hquoted
        exact ⟨front ++ body, by rw [hbody, List.append_assoc], hfront⟩
      · cases h

/-- A string is read exactly if it is quoted, up to its closing quote. -/
theorem readString_eq_ok_iff {cs rest : List Char} {s : String} :
    readString cs = .ok (s, rest) ↔ ∃ body, cs = body ++ '"' :: rest ∧ Quoted body s.toList := by
  rw [readString]
  constructor
  · intro h
    split at h
    · rename_i s' rest' hchars
      cases h
      rw [String.toList_ofList]
      exact Quoted.of_readChars hchars
    · cases h
  · rintro ⟨body, rfl, hbody⟩
    rw [hbody.readChars]
    simp only [String.ofList_toList]

theorem readString_quoted {cs : List Char} {s : String} (h : Quoted cs s.toList)
    (rest : List Char) : readString (cs ++ '"' :: rest) = .ok (s, rest) :=
  readString_eq_ok_iff.2 ⟨cs, rfl, h⟩

end Strings

section Written

theorem shortEscape?_letter {c : Char} {e : List Char} (h : shortEscape? c = some e) :
    ∃ l, e = ['\\', l] ∧ (l, c) ∈ escapedLetters := by
  unfold shortEscape? at h
  repeat' split at h
  all_goals cases h
  all_goals subst_vars
  all_goals exact ⟨_, rfl, by decide⟩

theorem shortEscape?_none {c : Char} (h : shortEscape? c = none) : c ≠ '"' ∧ c ≠ '\\' := by
  constructor
  · rintro rfl; cases h
  · rintro rfl; cases h

theorem unitEscape_append (n : Nat) (cs : List Char) :
    unitEscape n ++ cs = '\\' :: 'u' :: (hex 4 n ++ cs) :=
  rfl

/-- The halves of a character beyond sixteen bits make it up again. -/
theorem halves_toNat {n : Nat} (h : 0x10000 ≤ n) :
    n = 0x10000 + (0xD800 + (n - 0x10000) / 0x400 - 0xD800) * 0x400 +
      (0xDC00 + (n - 0x10000) % 0x400 - 0xDC00) := by
  omega

theorem quoted_unitEscapes {cs s : List Char} (c : Char) (h : Quoted cs s) :
    Quoted (unitEscapes c ++ cs) (c :: s) := by
  rw [unitEscapes]
  split
  · rename_i hc
    exact .unit (unitDigits_hex hc) h
  · rename_i hc
    have hle := toNat_le c
    rw [List.append_assoc, unitEscape_append, unitEscape_append]
    refine .pair (unitDigits_hex ?_) (unitDigits_hex ?_) ?_ ?_ (halves_toNat (by omega)) h
    · omega
    · omega
    · rw [isHighSurrogate_iff]
      omega
    · rw [isLowSurrogate_iff]
      omega

/-- One written character, escaped or not. -/
theorem quoted_writeChar (ascii : Bool) {cs s : List Char} (c : Char) (h : Quoted cs s) :
    Quoted (writeChar ascii c ++ cs) (c :: s) := by
  rw [writeChar]
  split
  · rename_i e he
    obtain ⟨l, rfl, hl⟩ := shortEscape?_letter he
    exact .letter hl h
  · rename_i hnone
    obtain ⟨hquote, hslash⟩ := shortEscape?_none hnone
    split
    · rename_i hcontrol
      exact .unit (unitDigits_hex (by omega)) h
    · split
      · exact quoted_unitEscapes c h
      · exact .plain hquote hslash (by omega) h

theorem quoted_written (ascii : Bool) (cs : List Char) :
    Quoted (cs.flatMap (writeChar ascii)) cs := by
  induction cs with
  | nil => exact .nil
  | cons c cs ih =>
    rw [List.flatMap_cons]
    exact quoted_writeChar ascii c ih

/-- Reading what was written after the opening quote gives the string and what follows it. -/
theorem readString_written (ascii : Bool) (s : String) (rest : List Char) :
    readString (s.toList.flatMap (writeChar ascii) ++ '"' :: rest) = .ok (s, rest) :=
  readString_quoted (quoted_written ascii s.toList) rest

theorem writeString_append (ascii : Bool) (s : String) (rest : List Char) :
    writeString ascii s ++ rest = '"' :: (s.toList.flatMap (writeChar ascii) ++ '"' :: rest) := by
  simp [writeString]

/-- A text is read back from the start of what goes on after its literal. -/
theorem literal_append {m n s t : String} (h : literal m ++ s = literal n ++ t) : m = n := by
  have hchars := congrArg String.toList h
  simp only [literal, String.toList_append, String.toList_ofList, writeString_append,
    List.cons.injEq, true_and] at hchars
  have hread := readString_written true m s.toList
  rw [hchars, readString_written, Except.ok.injEq, Prod.mk.injEq] at hread
  exact hread.1.symm

end Written

end ScriptLint.Json
