import ScriptLint.Proofs.Findings
import ScriptLint.Proofs.HandOver

/-!
# ScriptLint.Proofs.GlueLines

The code that hands options over, line by line. Whatever an option is called, its name cannot leave
the literal that it is written as, nor the line of that literal: a literal is printable ASCII, and
it is read back from the start of what follows it.

* `Unbroken`, `HasLines`: a text in which no line ends, and a code whose lines end at LF alone
* `LiteralFor`: a literal that stands for a name
* `literalFor_literal`: what a name is written as
* `lines_glue`, `lines_accessors`: where the lines of the two codes end
* `framed_item`: the line of a name, in both codes
* `glue_injective`: the entry point and the names are read back from the code
* `code_lines`: what the lines are
-/

namespace ScriptLint.Engine

open Json
open Analysis (Printable)

section Literals

theorem printable_hex (k n : Nat) : Printable (Digits.hex k n) := by
  intro c hc
  obtain ⟨d, hd, rfl⟩ := Digits.hex_hexDigit k n c hc
  have hall : ∀ d, d < 16 →
      0x20 ≤ (Digits.digitChar d).toNat ∧ (Digits.digitChar d).toNat ≤ 0x7E := by decide
  exact hall d hd

theorem printable_unitEscape (n : Nat) : Printable (unitEscape n) :=
  .cons (by decide) (.cons (by decide) (printable_hex 4 n))

theorem printable_shortEscape {c : Char} {e : List Char} (h : shortEscape? c = some e) :
    Printable e := by
  unfold shortEscape? at h
  repeat' split at h
  all_goals cases h
  all_goals decide

theorem printable_writeChar (c : Char) : Printable (writeChar true c) := by
  rw [writeChar]
  split
  · exact printable_shortEscape ‹_›
  · split
    · exact printable_unitEscape _
    · rename_i hcontrol
      split
      · rw [unitEscapes]
        split
        · exact printable_unitEscape _
        · exact (printable_unitEscape _).append (printable_unitEscape _)
      · rename_i hbeyond
        rw [Bool.true_and, decide_eq_true_eq] at hbeyond
        exact .cons ⟨by omega, by omega⟩ (List.forall_mem_nil _)

theorem printable_literal (n : String) : Printable (literal n).toList := by
  rw [literal, String.toList_ofList]
  refine .cons (by decide) (.append ?_ (by decide))
  intro c hc
  obtain ⟨x, _, hx⟩ := List.mem_flatMap.1 hc
  exact printable_writeChar x c hx

/-- A literal in printable ASCII that stands for a name, in a document as in a script. -/
structure LiteralFor (l name : String) : Prop where
  printable : Printable l.toList
  document : ∀ d, readAs d l = .ok (.str name)
  script : literalName l = .ok name

theorem literalFor_literal (n : String) : LiteralFor (literal n) n where
  printable := printable_literal n
  document := fun _ => (Reads.str true n).readAs_eq
  script := literalName_literal n

end Literals

section Lines

/-- The characters at which a script ends a line. -/
def lineEnds : List Char := ['\n', '\r', '\u2028', '\u2029']

/-- A text in which no line ends. -/
def Unbroken (s : String) : Prop := ∀ c ∈ s.toList, c ∉ lineEnds

instance (s : String) : Decidable (Unbroken s) :=
  List.decidableBAll (fun c : Char => c ∉ lineEnds) s.toList

theorem Unbroken.append {s t : String} (hs : Unbroken s) (ht : Unbroken t) : Unbroken (s ++ t) := by
  rw [Unbroken, String.toList_append, List.forall_mem_append]
  exact ⟨hs, ht⟩

theorem unbroken_printable {s : String} (h : Printable s.toList) : Unbroken s := by
  have hends : lineEnds.all (fun c => !(0x20 ≤ c.toNat && c.toNat ≤ 0x7E)) = true := by decide
  intro c hc hend
  have hout := List.all_eq_true.1 hends c hend
  have hin := h c hc
  simp only [Bool.not_eq_true', Bool.and_eq_false_iff, decide_eq_false_iff_not] at hout
  omega

/-- No line ends in a name that a script can use. -/
theorem IsIdentifier.unbroken {s : String} (h : IsIdentifier s) : Unbroken s := by
  have hends : lineEnds.all (fun c => !isIdentifierPart c) = true := by decide
  intro c hc hend
  have hother := List.all_eq_true.1 hends c hend
  rw [h.parts c hc] at hother
  cases hother

/-- A code with these lines. They end at LF, and nothing else in it ends a line. -/
structure HasLines (code : String) (lines : List String) : Prop where
  split : code.toList.splitOn '\n' = lines.map String.toList
  noOther : ∀ c ∈ code.toList, c ≠ '\r' ∧ c ≠ '\u2028' ∧ c ≠ '\u2029'

theorem HasLines.unique {code : String} {ls ls' : List String} (h : HasLines code ls)
    (h' : HasLines code ls') : ls = ls' :=
  List.map_injective_iff.2 (fun _ _ => String.toList_inj.1) (h.split.symm.trans h'.split)

theorem mem_intercalate {c : Char} {ls : List String} :
    c ∈ (String.intercalate "\n" ls).toList → c = '\n' ∨ ∃ l ∈ ls, c ∈ l.toList := by
  induction ls with
  | nil => nofun
  | cons l ls ih =>
    cases ls with
    | nil =>
      intro h
      rw [String.intercalate_singleton] at h
      exact .inr ⟨l, List.mem_cons_self, h⟩
    | cons l' ls =>
      rw [String.intercalate_cons_cons, String.toList_append, String.toList_append,
        List.mem_append, List.mem_append]
      rintro ((h | h) | h)
      · exact .inr ⟨l, List.mem_cons_self, h⟩
      · exact .inl (List.mem_singleton.1 h)
      · obtain heq | ⟨x, hx, hc⟩ := ih h
        · exact .inl heq
        · exact .inr ⟨x, List.mem_cons_of_mem _ hx, hc⟩

theorem hasLines_intercalate {ls : List String} (h : ∀ l ∈ ls, Unbroken l) (hls : ls ≠ []) :
    HasLines (String.intercalate "\n" ls) ls where
  split := by
    refine splitOn_intercalate_lines ?_ hls
    intro l hl hmem
    exact h l hl '\n' hmem (by decide)
  noOther := by
    intro c hc
    obtain rfl | ⟨l, hl, hmem⟩ := mem_intercalate hc
    · decide
    · have hends := h l hl c hmem
      simp only [lineEnds, List.mem_cons, not_or] at hends
      exact ⟨hends.2.1, hends.2.2.1, hends.2.2.2.1⟩

end Lines

section Codes

variable {entry : String} {names : List String}

theorem optionBindings_nodup (h : names.Nodup) :
    optionBindings names = names.map fun n => (n, optionBinding n) := by
  refine Mapping.ofPairs_nodup ?_
  rw [Mapping.keys, List.map_map, show (Prod.fst ∘ fun n => (n, optionBinding n)) = id from rfl,
    List.map_id]
  exact h

/-- What the code of an option is: its literal names the option, and its accessor is called. -/
def lineOf (name : String) : String := optionLine (literal name) (optionBinding name)

theorem glueLines_eq (entry : String) (h : names.Nodup) :
    glueLines entry (optionBindings names) =
      "(function () \x7b" :: "  var options = \x7b\x7d;" :: (names.map lineOf ++
        ["  " ++ entry ++ "(" ++ inputBinding ++ "(), options);",
          "  return JSON.stringify(" ++ entry ++ ".errors || []);", "\x7d());"]) := by
  rw [optionBindings_nodup h, glueLines, List.map_map]
  rfl

theorem unbroken_lineOf (name : String) : Unbroken (lineOf name) := by
  have hfront : Unbroken "  options[" := by decide
  have hmiddle : Unbroken "] = JSON.parse(" := by decide
  have hback : Unbroken "());" := by decide
  have hliteral := unbroken_printable (printable_literal name)
  have hbinding := (identifier_bindingOf (codePoints name)).unbroken
  exact (((hfront.append hliteral).append hmiddle).append hbinding).append hback

theorem unbroken_accessorLine (name : String) : Unbroken (accessorLine (literal name)) := by
  have hfront : Unbroken "  global[" := by decide
  have hmiddle : Unbroken "] = accessor(global[" := by decide
  have hback : Unbroken "]);" := by decide
  have hliteral := unbroken_printable (printable_literal name)
  exact (((hfront.append hliteral).append hmiddle).append hliteral).append hback

theorem lines_glue (hentry : Unbroken entry) (h : names.Nodup) :
    HasLines (glue entry (optionBindings names)) (glueLines entry (optionBindings names)) := by
  have hopen : Unbroken "(function () \x7b" := by decide
  have hoptions : Unbroken "  var options = \x7b\x7d;" := by decide
  have hcall : Unbroken ("  " ++ entry ++ "(" ++ inputBinding ++ "(), options);") := by
    have hfront : Unbroken "  " := by decide
    have hmiddle : Unbroken "(" := by decide
    have hinput : Unbroken inputBinding := by decide
    have hback : Unbroken "(), options);" := by decide
    exact (((hfront.append hentry).append hmiddle).append hinput).append hback
  have hreturn : Unbroken ("  return JSON.stringify(" ++ entry ++ ".errors || []);") := by
    have hfront : Unbroken "  return JSON.stringify(" := by decide
    have hback : Unbroken ".errors || []);" := by decide
    exact (hfront.append hentry).append hback
  have hclose : Unbroken "\x7d());" := by decide
  rw [glue, glueLines_eq entry h]
  refine hasLines_intercalate ?_ (List.cons_ne_nil _ _)
  rw [List.forall_mem_cons, List.forall_mem_cons, List.forall_mem_append, List.forall_mem_map]
  refine ⟨hopen, hoptions, fun name _ => unbroken_lineOf name, ?_⟩
  rw [List.forall_mem_cons, List.forall_mem_cons, List.forall_mem_singleton]
  exact ⟨hcall, hreturn, hclose⟩

theorem lines_accessors (names : List String) :
    HasLines (accessors names) (accessorLines names) := by
  have hopen : Unbroken "(function (global) \x7b" := by decide
  have hmaker : Unbroken
      "  function accessor(value) \x7b return function () \x7b return value; \x7d; \x7d" := by
    decide
  have hclose : Unbroken "\x7d(globalThis));" := by decide
  refine hasLines_intercalate ?_ (List.cons_ne_nil _ _)
  rw [accessorLines, List.forall_mem_append, List.forall_mem_append, List.forall_mem_cons,
    List.forall_mem_singleton, List.forall_mem_map, List.forall_mem_singleton]
  exact ⟨⟨⟨hopen, hmaker⟩, fun name _ => unbroken_accessorLine name⟩, hclose⟩

/-- Behind the two lines in front, there is one line for each name. -/
theorem framed_item {f : String → String} {a b : String} {tail : List String} {k : Nat}
    {name : String} (h : names[k]? = some name) :
    (a :: b :: (names.map f ++ tail))[2 + k]? = some (f name) := by
  have hk : k < (names.map f).length := by
    rw [List.length_map]
    exact (List.getElem?_eq_some_iff.1 h).1
  rw [Nat.add_comm, List.getElem?_cons_succ, List.getElem?_cons_succ,
    List.getElem?_append_left hk, List.getElem?_map, h, Option.map_some]

theorem lineOf_injective : Function.Injective lineOf := by
  intro m n h
  simp only [lineOf, optionLine, String.append_assoc] at h
  exact literal_append ((String.append_right_inj _).1 h)

theorem accessorLine_injective : Function.Injective fun n => accessorLine (literal n) := by
  intro m n h
  simp only [accessorLine, String.append_assoc] at h
  exact literal_append ((String.append_right_inj _).1 h)

/-- The entry point and the names are read back from the code that calls an engine. -/
theorem glue_injective {entry' : String} {names' : List String} (hentry : Unbroken entry)
    (hentry' : Unbroken entry') (h : names.Nodup) (h' : names'.Nodup)
    (heq : glue entry (optionBindings names) = glue entry' (optionBindings names')) :
    entry = entry' ∧ names = names' := by
  have hlines := (lines_glue hentry h).unique (heq ▸ lines_glue hentry' h')
  rw [glueLines_eq entry h, glueLines_eq entry' h', List.cons.injEq, List.cons.injEq] at hlines
  obtain ⟨hitems, htail⟩ := List.append_inj' hlines.2.2 rfl
  refine ⟨?_, List.map_injective_iff.2 lineOf_injective hitems⟩
  simp only [List.cons.injEq, String.append_assoc] at htail
  exact (String.append_left_inj _).1 ((String.append_right_inj _).1 htail.1)

/-- The names are read back from the code that makes accessors. -/
theorem accessors_injective : Function.Injective accessors := by
  intro names names' heq
  have hlines := (lines_accessors names).unique (heq ▸ lines_accessors names')
  obtain ⟨hitems, _⟩ := List.append_inj' hlines rfl
  exact List.map_injective_iff.2 accessorLine_injective (List.append_cancel_left hitems)

end Codes

/-- The lines of the code that hands options over, whatever the options are called. All that is
asked of the entry point is that no line ends in it, as none does in an identifier. The code that
calls the engine has five lines besides those of the options, and each of these names its option by
a literal in printable ASCII that stands for the name, and calls the accessor of that option. The
code that makes accessors has three lines besides those of the stored values, and each of these
takes one value and puts its accessor in its place, both under the name that the value has. In
neither code does a line end anywhere else, and the entry point and the names are read back from
it. -/
theorem code_lines (entry : String) (names : List String) (hentry : Unbroken entry)
    (hnames : names.Nodup) :
    (∃ lines, HasLines (glue entry (optionBindings names)) lines ∧
      lines.length = names.length + 5 ∧
      (∀ k name, names[k]? = some name → ∃ l, LiteralFor l name ∧
        IsIdentifier (optionBinding name) ∧
        lines[2 + k]? = some ("  options[" ++ l ++ "] = JSON.parse(" ++ optionBinding name
          ++ "());")) ∧
      lines[2 + names.length]? = some ("  " ++ entry ++ "(" ++ inputBinding ++ "(), options);")) ∧
    (∀ stored : List String, ∃ lines, HasLines (accessors stored) lines ∧
      lines.length = stored.length + 3 ∧
      ∀ k name, stored[k]? = some name → ∃ l, LiteralFor l name ∧
        lines[2 + k]? = some ("  global[" ++ l ++ "] = accessor(global[" ++ l ++ "]);")) ∧
    (∀ entry' names', Unbroken entry' → names'.Nodup →
      glue entry (optionBindings names) = glue entry' (optionBindings names') →
        entry = entry' ∧ names = names') ∧
    Function.Injective accessors := by
  refine ⟨⟨_, lines_glue hentry hnames, ?_, ?_, ?_⟩, ?_, ?_, accessors_injective⟩
  · simp [glueLines_eq entry hnames]
  · intro k name hname
    refine ⟨literal name, literalFor_literal name, identifier_bindingOf _, ?_⟩
    rw [glueLines_eq entry hnames]
    exact framed_item hname
  · rw [glueLines_eq entry hnames, Nat.add_comm, List.getElem?_cons_succ, List.getElem?_cons_succ,
      List.getElem?_append_right (Nat.le_of_eq (List.length_map lineOf)), List.length_map,
      Nat.sub_self]
    rfl
  · intro stored
    refine ⟨_, lines_accessors stored, by simp [accessorLines], ?_⟩
    intro k name hname
    exact ⟨literal name, literalFor_literal name, framed_item hname⟩
  · intro entry' names' hentry' hnames'
    exact glue_injective hentry hentry' hnames hnames'

/-- Names that would leave a literal or its line if they were written as they are. -/
def roughNames : List String := ["max\"] = 0; //", "back\\", "two\nlines", "\u2028\u2029\r", "😀"]

theorem code_lines_rough : Unbroken "JSHINT" ∧ roughNames.Nodup ∧
    ∃ lines, HasLines (glue "JSHINT" (optionBindings roughNames)) lines ∧ lines.length = 10 ∧
      ∃ l, LiteralFor l "\u2028\u2029\r" ∧
        lines[5]? = some ("  options[" ++ l ++ "] = JSON.parse("
          ++ optionBinding "\u2028\u2029\r" ++ "());") := by
  have hentry : Unbroken "JSHINT" := by decide
  have hnames : roughNames.Nodup := by decide
  obtain ⟨lines, hlines, hlength, hitems, _⟩ := (code_lines "JSHINT" roughNames hentry hnames).1
  obtain ⟨l, hl, _, hline⟩ := hitems 3 "\u2028\u2029\r" rfl
  exact ⟨hentry, hnames, lines, hlines, hlength, l, hl, hline⟩

end ScriptLint.Engine
