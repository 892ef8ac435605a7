import ScriptLint.Engine.Glue
import ScriptLint.Proofs.Codes
import ScriptLint.Proofs.Digits

/-!
# ScriptLint.Proofs.AccessorNames

The names under which options lie in the interpreter. Whatever an option is called, a script can use
the name of its accessor, and no other option has it: an escape starts with a character that is
never kept as it is, and all escapes are of one width.

* `IsIdentifier`: names that a script can use
* `identifier_bindingOf`: names of accessors are such names
* `readable_bindingPoint`: a code point is read back from the start of what is written of a name
* `optionBinding_injective`: different options have different accessors
* `accessor_names`: what the names of accessors are like
-/

namespace ScriptLint.Engine

open Digits

section Identifiers

/-- Words of the script language that are no names. -/
def reservedWords : List String :=
  ["await", "break", "case", "catch", "class", "const", "continue", "debugger", "default", "delete",
    "do", "else", "enum", "export", "extends", "false", "finally", "for", "function", "if",
    "implements", "import", "in", "instanceof", "interface", "let", "new", "null", "package",
    "private", "protected", "public", "return", "static", "super", "switch", "this", "throw",
    "true", "try", "typeof", "var", "void", "while", "with", "yield"]

/-- An ASCII character that a name can start with. -/
def isIdentifierStart (c : Char) : Bool := c.isAlpha || c == '$' || c == '_'

def isIdentifierPart (c : Char) : Bool := isIdentifierStart c || c.isDigit

/-- A name in ASCII that a script can use. -/
structure IsIdentifier (s : String) : Prop where
  start : ∃ c cs, s.toList = c :: cs ∧ isIdentifierStart c = true
  parts : ∀ c ∈ s.toList, isIdentifierPart c = true
  free : s ∉ reservedWords

theorem isIdentifierPart_plain {c : Char} (h : isPlainNameChar c = true) :
    isIdentifierPart c = true := by
  simp only [isPlainNameChar, Char.isAlphanum, Bool.or_eq_true] at h
  simp only [isIdentifierPart, isIdentifierStart, Bool.or_eq_true]
  tauto

theorem isIdentifierPart_hex (k n : Nat) : ∀ c ∈ hex k n, isIdentifierPart c = true := by
  intro c hc
  obtain ⟨d, hd, rfl⟩ := hex_hexDigit k n c hc
  have hall : ∀ d, d < 16 → isIdentifierPart (digitChar d) = true := by decide
  exact hall d hd

theorem isIdentifierPart_bindingPoint (p : CodePoint) :
    ∀ c ∈ bindingPoint p, isIdentifierPart c = true := by
  intro c hc
  rw [bindingPoint] at hc
  split at hc
  · rename_i hplain
    rw [List.mem_singleton.1 hc]
    exact isIdentifierPart_plain hplain
  · rcases List.mem_cons.1 hc with rfl | hc
    · rfl
    · exact isIdentifierPart_hex 6 p c hc

theorem toList_bindingOf (name : List CodePoint) :
    (bindingOf name).toList = optionPrefixText.toList ++ name.flatMap bindingPoint := by
  rw [bindingOf, String.toList_append, String.toList_ofList]

/-- A script can use the name of an accessor. -/
theorem identifier_bindingOf (name : List CodePoint) : IsIdentifier (bindingOf name) where
  start := ⟨'j', _, toList_bindingOf name, rfl⟩
  parts := by
    have hfront : ∀ c ∈ optionPrefixText.toList, isIdentifierPart c = true :=
      List.all_eq_true.1 (by decide)
    rw [toList_bindingOf, List.forall_mem_append]
    refine ⟨hfront, ?_⟩
    intro c hc
    obtain ⟨p, _, hp⟩ := List.mem_flatMap.1 hc
    exact isIdentifierPart_bindingPoint p c hp
  free := by
    -- the prefix alone is longer than every such word
    have hshort : ∀ word ∈ reservedWords, word.toList.length < optionPrefixText.toList.length := by
      decide
    intro hmem
    have hlength := hshort _ hmem
    rw [toList_bindingOf, List.length_append] at hlength
    omega

end Identifiers

section Names

theorem isPlainNameChar_dollar : isPlainNameChar '$' = false := by decide

theorem length_hex_point (p : CodePoint) : (hex 6 p).length = 6 := by
  have h := p.isLt
  exact length_hex (by omega) (by omega)

/-- A code point that stands for itself is told by its character. -/
theorem toNat_plain {p : CodePoint} (h : isPlainNameChar (Char.ofNat p) = true) :
    (Char.ofNat p).toNat = p := by
  by_cases hvalid : p.val.isValidChar
  · rw [Char.ofNat, dif_pos hvalid]
    rfl
  · rw [Char.ofNat, dif_neg hvalid] at h
    cases h

/-- A code point is read back from the start of what is written of a name. -/
theorem readable_bindingPoint : ReadableOn (fun _ => True) bindingPoint := by
  intro p q xs ys _ _ h
  rw [bindingPoint, bindingPoint] at h
  -- a plain character is no dollar sign, and six digits follow every dollar sign
  split at h
  · rename_i hp
    split at h
    · rename_i hq
      rw [List.singleton_append, List.singleton_append, List.cons.injEq] at h
      refine ⟨Fin.ext ?_, h.2⟩
      rw [← toNat_plain hp, h.1, toNat_plain hq]
    · rw [List.singleton_append, List.cons_append, List.cons.injEq] at h
      rw [h.1, isPlainNameChar_dollar] at hp
      cases hp
  · split at h
    · rename_i hq
      rw [List.singleton_append, List.cons_append, List.cons.injEq] at h
      rw [← h.1, isPlainNameChar_dollar] at hq
      cases hq
    · rw [List.cons_append, List.cons_append, List.cons.injEq] at h
      obtain ⟨hhex, hrest⟩ := List.append_inj h.2
        ((length_hex_point p).trans (length_hex_point q).symm)
      refine ⟨Fin.ext ?_, hrest⟩
      rw [← value_hex 6 p, hhex, value_hex]

theorem bindingPoint_ne_nil (p : CodePoint) (rest : List Char) : bindingPoint p ++ rest ≠ [] := by
  rw [bindingPoint]
  split <;> exact List.cons_ne_nil _ _

theorem bindingOf_injective : Function.Injective bindingOf := by
  intro m n h
  have hchars := congrArg String.toList h
  rw [toList_bindingOf, toList_bindingOf, List.append_cancel_left_eq] at hchars
  refine (flatMap_readable readable_bindingPoint bindingPoint_ne_nil bindingPoint_ne_nil m
    (fun _ _ => trivial) (fun _ _ => trivial) ?_).1
  rw [List.append_nil, List.append_nil, hchars]

theorem codePoints_injective : Function.Injective codePoints := by
  have hchar : Function.Injective fun c : Char => (⟨c.toNat, codePoint_bound c⟩ : CodePoint) := by
    intro c d h
    have hval : c.toNat = d.toNat := congrArg (fun p : CodePoint => p.val) h
    rw [← Char.ofNat_toNat c, hval, Char.ofNat_toNat]
  intro s t h
  exact String.toList_inj.1 (List.map_injective_iff.2 hchar h)

/-- Different options have different accessors. -/
theorem optionBinding_injective {m n : String} (h : optionBinding m = optionBinding n) : m = n :=
  codePoints_injective (bindingOf_injective h)

/-- No option has the accessor of the text under check. -/
theorem bindingOf_ne_input (name : List CodePoint) : bindingOf name ≠ inputBinding := by
  intro h
  have hchars := congrArg (fun s => s.toList.take 8) h
  simp only [toList_bindingOf] at hchars
  rw [List.take_append_of_le_length (by decide)] at hchars
  exact absurd hchars (by decide)

theorem optionBinding_ne_input (n : String) : optionBinding n ≠ inputBinding :=
  bindingOf_ne_input (codePoints n)

end Names

/-- Names of accessors. Whatever text names an option, its accessor has a name in ASCII that a
script can use and that is not the name under which the text under check lies; and different texts
give different names. The same holds of names that are no texts because they have halves of
surrogate pairs among their code points. -/
theorem accessor_names :
    (∀ name : String, IsIdentifier (optionBinding name) ∧ optionBinding name ≠ inputBinding) ∧
    Function.Injective optionBinding ∧
    (∀ name : List CodePoint, IsIdentifier (bindingOf name) ∧ bindingOf name ≠ inputBinding) ∧
    Function.Injective bindingOf := by
  have hnames : ∀ name, IsIdentifier (bindingOf name) ∧ bindingOf name ≠ inputBinding :=
    fun name => ⟨identifier_bindingOf name, bindingOf_ne_input name⟩
  refine ⟨fun name => hnames (codePoints name), ?_, hnames, bindingOf_injective⟩
  exact fun _ _ h => optionBinding_injective h

end ScriptLint.Engine
