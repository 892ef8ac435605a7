import ScriptLint.Proofs.AccessorNames
import ScriptLint.Proofs.ControlCharacters
import ScriptLint.Proofs.Mappings
import ScriptLint.Proofs.WrittenValues

/-!
# ScriptLint.Proofs.HandOver

Handing options and text to a script. Every option arrives under its own name with its own value,
whatever the names are: accessors of different options never share a name, and a literal stands for
the name it was made of.

* `literalName_literal`: a literal stands for its name
* `nul_notMem_encode`: the interpreter sees the whole text of a value
* `optionTexts_eq`: the texts of the options, if all of them are written
* `handOver_eq`: the options and the text that a script is called with
-/

namespace ScriptLint

open Digits Json

section Characters

/-- The interpreter sees the whole of a text that holds no null character. -/
theorem untilNul_of_not_mem {cs : List Char} (h : '\x00' ∉ cs) : Text.untilNul cs = cs := by
  have h' : (cs ++ []).takeWhile (· != '\x00') = cs ++ [].takeWhile (· != '\x00') :=
    List.takeWhile_append_of_pos fun c hc => bne_iff_ne.2 fun heq => h (heq ▸ hc)
  simpa [Text.untilNul] using h'

/-- The text of a value holds no character at which the interpreter would cut it. -/
theorem nul_notMem_encode (v : Value) : '\x00' ∉ v.toJson.encode.toList :=
  (noControl_encode v.toJson).not_mem (by decide)

end Characters

namespace Engine

section Names

/-- A literal stands for the name it was made of. -/
theorem literalName_literal (n : String) : literalName (Json.literal n) = .ok n := by
  have h : (Json.literal n).toList = '"' :: (n.toList.flatMap (writeChar true) ++ '"' :: []) := by
    rw [Json.literal, String.toList_ofList]
    rfl
  rw [literalName, h]
  simp only [readString_written]

end Names

section Values

/-- A value arrives as the document that the script's reader makes of its text. -/
theorem parse_encode (v : Value) :
    Datum.parse v.toJson.encode =
      match v.toJson.reread .script with
      | .ok j => .ok (Datum.ofJson j)
      | .error e => .error (Datum.syntaxDetail e) := by
  have hread : Json.readAs .script v.toJson.encode = v.toJson.reread .script := by
    rw [Json.encode, Json.readAs_write]
  unfold Datum.parse
  cases hreread : v.toJson.reread .script with
  | ok j => simp only [hread, hreread]
  | error e => simp only [hread, hreread]

theorem parse_bool (b : Bool) : Datum.parse (Value.bool b).toJson.encode = .ok (.bool b) := by
  rw [parse_encode]
  rfl

/-- Whether all options are written. -/
def allWritable (options : List (String × Value)) : Bool := options.all fun e => e.2.isWritable

theorem allWritable_iff {options : List (String × Value)} :
    allWritable options = true ↔ ∀ e ∈ options, e.2.isWritable = true :=
  List.all_eq_true

theorem allWritable_eq_false_iff {options : List (String × Value)} :
    allWritable options = false ↔ ∃ e ∈ options, e.2.isWritable = false := by
  simp [allWritable]

/-- The options with the texts of what documents hold in their places. -/
def writtenTexts (options : List (String × Value)) : List (String × String) :=
  options.map fun e => (e.1, e.2.toJson.encode)

/-- One option that is not written leaves all of them without texts. -/
theorem optionTexts_eq (options : List (String × Value)) :
    optionTexts options =
      if allWritable options then .ok (writtenTexts options) else .error .unwritable := by
  induction options with
  | nil => rfl
  | cons e rest ih =>
    obtain ⟨name, v⟩ := e
    have hall : allWritable ((name, v) :: rest) = (v.isWritable && allWritable rest) := rfl
    rw [optionTexts, Value.encode_eq, ih, hall]
    cases v.isWritable <;> cases allWritable rest <;> rfl

/-- Options assigned one after the other, each read from its text; the first text that is refused
ends it. -/
def assignValues : Options → List (String × Value) → Except String Options
  | o, [] => .ok o
  | o, (name, v) :: rest =>
    match Datum.parse v.toJson.encode with
    | .ok d => assignValues (o.assign name d) rest
    | .error detail => .error detail

/-- The names in the interpreter while values are stored: every option lies under its accessor. -/
structure Stored (g : Globals) (input : String) (m : Mapping Value) : Prop where
  option : ∀ n, Mapping.get? (optionBinding n) g =
    (Mapping.get? n m).map fun v => .text v.toJson.encode
  input : Mapping.get? inputBinding g = some (.text input)

theorem stored_put {g : Globals} {input : String} {m : Mapping Value} (h : Stored g input m)
    (n : String) (v : Value) :
    Stored (g.store (optionBinding n) v.toJson.encode) input (m.put n v) := by
  have htext : String.ofList (Text.untilNul v.toJson.encode.toList) = v.toJson.encode := by
    rw [untilNul_of_not_mem (nul_notMem_encode v), String.ofList_toList]
  constructor
  · intro k
    rw [Globals.store, htext, Mapping.get?_put, Mapping.get?_put, h.option]
    by_cases hk : n = k
    · rw [if_pos hk, if_pos (congrArg optionBinding hk)]
      rfl
    · rw [if_neg hk, if_neg fun heq => hk (optionBinding_injective heq)]
  · rw [Globals.store, Mapping.get?_put_ne _ _ (optionBinding_ne_input n)]
    exact h.input

theorem stored_layer {input : String} (options : List (String × Value)) :
    ∀ {g : Globals} {m : Mapping Value}, Stored g input m →
      Stored ((writtenTexts options).foldl (fun g (name, t) => g.store (optionBinding name) t) g)
        input (m.layer options) := by
  induction options with
  | nil => exact fun h => h
  | cons e rest ih =>
    intro g m h
    exact ih (stored_put h e.1 e.2)

theorem stored_ofInput (options : List (String × Value)) (text : String) :
    Stored (Globals.ofInput (writtenTexts options) text) (String.ofList (Text.untilNul text.toList))
      (Mapping.ofPairs options) := by
  refine stored_layer options ⟨?_, ?_⟩
  · intro n
    rw [Globals.store, Mapping.get?_put_ne _ _ (Ne.symm (optionBinding_ne_input n))]
    rfl
  · rw [Globals.store, Mapping.get?_put_self]

/-- The prelude turns the values under the given names into functions, once each. -/
theorem wrapAll_literals (names : List String) : ∀ g : Globals, names.Nodup →
    (∀ n ∈ names, (Mapping.get? n g).isSome = true) →
    ∃ g', g.wrapAll (names.map Json.literal) = .ok g' ∧
      ∀ n, Mapping.get? n g' =
        if n ∈ names then (Mapping.get? n g).map Global.accessor else Mapping.get? n g := by
  induction names with
  | nil =>
    intro g _ _
    exact ⟨g, rfl, fun n => by simp⟩
  | cons name rest ih =>
    intro g hnodup hthere
    obtain ⟨hname, hrest⟩ := List.nodup_cons.1 hnodup
    obtain ⟨value, hvalue⟩ := Option.isSome_iff_exists.1 (hthere name List.mem_cons_self)
    have hwrap : g.wrap (Json.literal name) = .ok (Mapping.put name (.accessor value) g) := by
      simp only [Globals.wrap, literalName_literal, hvalue]
    -- a value that is wrapped twice would be a function of a function: the names differ
    have hothers : ∀ n ∈ rest, (Mapping.get? n (Mapping.put name (.accessor value) g)).isSome := by
      intro n hn
      have hne : name ≠ n := by
        rintro rfl
        exact hname hn
      rw [Mapping.get?_put_ne _ _ hne]
      exact hthere n (List.mem_cons_of_mem _ hn)
    obtain ⟨g', hall, hget⟩ := ih _ hrest hothers
    refine ⟨g', ?_, ?_⟩
    · simp only [List.map_cons, Globals.wrapAll, hwrap, hall]
    · intro n
      rw [hget n]
      by_cases hn : name = n
      · subst hn
        rw [if_neg hname, if_pos List.mem_cons_self, Mapping.get?_put_self, hvalue]
        rfl
      · have hmem : n ∈ name :: rest ↔ n ∈ rest := by simp [Ne.symm hn]
        rw [Mapping.get?_put_ne _ _ hn]
        simp only [hmem]

theorem assignOptions_eq {g : Globals} (m : List (String × Value)) : ∀ o : Options,
    (∀ e ∈ m, g.call (optionBinding e.1) = .ok e.2.toJson.encode) →
    assignOptions g o (m.map fun e => (e.1, optionBinding e.1)) = assignValues o m := by
  induction m with
  | nil =>
    intro o _
    rfl
  | cons e rest ih =>
    intro o h
    obtain ⟨name, v⟩ := e
    have hcall := h (name, v) List.mem_cons_self
    simp only [List.map_cons, assignOptions, assignOption, assignValues, hcall]
    cases Datum.parse v.toJson.encode with
    | error detail => rfl
    | ok d =>
      simp only [literalName_literal]
      exact ih _ fun e he => h e (List.mem_cons_of_mem _ he)

theorem optionBindings_eq (options : List (String × Value)) :
    optionBindings (options.map Prod.fst) =
      (Mapping.ofPairs options).map fun e => (e.1, optionBinding e.1) := by
  have h := Mapping.layer_map (fun n (_ : Value) => optionBinding n) [] options
  rw [optionBindings, List.map_map]
  exact h

/-- The names under which text and options are stored. -/
def storedNames (options : List (String × Value)) : List String :=
  inputBinding :: (optionBindings (options.map Prod.fst)).map Prod.snd

theorem storedNames_eq (options : List (String × Value)) :
    storedNames options =
      inputBinding :: (Mapping.keys (Mapping.ofPairs options)).map optionBinding := by
  rw [storedNames, optionBindings_eq, List.map_map, Mapping.keys, List.map_map]
  rfl

theorem nodup_storedNames (options : List (String × Value)) : (storedNames options).Nodup := by
  rw [storedNames_eq, List.nodup_cons]
  constructor
  · intro hmem
    obtain ⟨n, _, hn⟩ := List.mem_map.1 hmem
    exact optionBinding_ne_input n hn
  · exact List.Pairwise.map optionBinding
      (fun _ _ hne heq => hne (optionBinding_injective heq)) (Mapping.nodup_ofPairs options)

theorem ofInput_option {options : List (String × Value)} (text : String) {e : String × Value}
    (he : e ∈ Mapping.ofPairs options) :
    Mapping.get? (optionBinding e.1) (Globals.ofInput (writtenTexts options) text) =
      some (.text e.2.toJson.encode) := by
  rw [(stored_ofInput options text).option,
    Mapping.get?_of_mem (Mapping.nodup_ofPairs options) he]
  rfl

theorem ofInput_isSome (options : List (String × Value)) (text : String) :
    ∀ n ∈ storedNames options,
      (Mapping.get? n (Globals.ofInput (writtenTexts options) text)).isSome = true := by
  intro n hn
  rw [storedNames_eq] at hn
  rcases List.mem_cons.1 hn with rfl | hn
  · rw [(stored_ofInput options text).input]
    rfl
  · obtain ⟨k, hk, rfl⟩ := List.mem_map.1 hn
    obtain ⟨e, he, rfl⟩ := List.mem_map.1 hk
    rw [ofInput_option text he]
    rfl

/-- A script is called with the options of the mapping that the given pairs make, in their order,
and with the text up to its first NUL; it is not called if an option is not written. -/
theorem handOver_eq (options : List (String × Value)) (text : String) :
    handOver options text =
      if allWritable options then
        match assignValues .empty (Mapping.ofPairs options) with
        | .ok o => .ok (o, Text.untilNul text.toList)
        | .error detail => .error (.thrown detail)
      else .error (.fault .unwritable) := by
  rw [handOver, optionTexts_eq]
  cases hall : allWritable options with
  | false => rfl
  | true => ?_
  obtain ⟨g, hwrap, hg⟩ := wrapAll_literals (storedNames options)
    (Globals.ofInput (writtenTexts options) text) (nodup_storedNames options)
    (ofInput_isSome options text)
  have hcall : ∀ e ∈ Mapping.ofPairs options,
      g.call (optionBinding e.1) = .ok e.2.toJson.encode := by
    intro e he
    have hmem : optionBinding e.1 ∈ storedNames options := by
      rw [storedNames_eq]
      exact List.mem_cons_of_mem _ (List.mem_map.2 ⟨e.1, List.mem_map.2 ⟨e, he, rfl⟩, rfl⟩)
    rw [Globals.call, hg, if_pos hmem, ofInput_option text he]
    rfl
  have hinput : g.call inputBinding = .ok (String.ofList (Text.untilNul text.toList)) := by
    have hmem : inputBinding ∈ storedNames options := List.mem_cons_self
    rw [Globals.call, hg, if_pos hmem, (stored_ofInput options text).input]
    rfl
  rw [storedNames] at hwrap
  simp only [if_true, hwrap, hinput, String.toList_ofList]
  rw [optionBindings_eq, assignOptions_eq _ _ hcall]
  cases assignValues .empty (Mapping.ofPairs options) with
  | ok o => rfl
  | error detail => rfl

theorem handOver_eq_ok_iff {options : List (String × Value)} {text : String} {o : Options}
    {source : List Char} :
    handOver options text = .ok (o, source) ↔
      allWritable options = true ∧ assignValues .empty (Mapping.ofPairs options) = .ok o ∧
        source = Text.untilNul text.toList := by
  rw [handOver_eq]
  cases allWritable options with
  | false => exact ⟨nofun, fun h => nomatch h.1⟩
  | true =>
    cases assignValues .empty (Mapping.ofPairs options) with
    | error detail => exact ⟨nofun, fun h => nomatch h.2.1⟩
    | ok o' =>
      constructor
      · intro h
        cases h
        exact ⟨rfl, rfl, rfl⟩
      · rintro ⟨_, ho, rfl⟩
        cases ho
        rfl

end Values

end Engine

end ScriptLint
