import ScriptLint.Proofs.Documents
import ScriptLint.Proofs.Runs

/-!
# ScriptLint.Proofs.Echo

A script sees the options it was given. A program that reports what it was called with hands back the
text unchanged, and its options, read back, are the mapping that was handed over: the same names
with the same values.

* `Value.Plain`: values that the script language has too
* `Value.Agrees`: equality of a value and a document; the order of names does not count
* `Value.agrees_echoed`: what comes back of a plain value
* `echo_run`: the run of such a program
-/

namespace ScriptLint

open Json

namespace Value

/-- Null, truth values, integers that a script holds exactly, texts, and lists and mappings of such
values; the names of a mapping are texts. -/
inductive Plain : Value → Prop
  | null : Plain .null
  | bool (b : Bool) : Plain (.bool b)
  | int {i : Int} (h : i.natAbs ≤ Datum.exactLimit) : Plain (.int i)
  | str (s : String) : Plain (.str s)
  | list {xs : List Value} (h : ∀ x ∈ xs, Plain x) : Plain (.list xs)
  | dict {es : List (Value × Value)} (htexts : ∀ e ∈ es, ∃ n, e.1 = .str n)
    (hnames : (es.map fun e => e.1.text).Nodup) (h : ∀ e ∈ es, Plain e.2) : Plain (.dict es)

mutual

/-- A document holds the same value. Lists agree item by item; mappings have the same names, each
with the same value. -/
def Agrees : Value → Json → Prop
  | .null, .null => True
  | .bool b, .bool c => b = c
  | .int i, .int j => i = j
  | .str s, .str t => s = t
  | .list xs, .arr ys => ItemsAgree xs ys
  | .dict es, .obj fs => es.length = fs.length ∧ (Mapping.keys fs).Nodup ∧ EntriesAgree es fs
  | _, _ => False

def ItemsAgree : List Value → List Json → Prop
  | [], [] => True
  | x :: xs, y :: ys => Agrees x y ∧ ItemsAgree xs ys
  | _, _ => False

/-- Every entry is found among the fields. -/
def EntriesAgree : List (Value × Value) → Mapping Json → Prop
  | [], _ => True
  | (.str n, x) :: es, fs => (∃ j, Mapping.get? n fs = some j ∧ Agrees x j) ∧ EntriesAgree es fs
  | _ :: _, _ => False

end

/-- What a script writes of a value that it was given. -/
def echoed (v : Value) : Json := (Datum.ofJson v.toJson).document

theorem exact_plain {v : Value} (h : v.Plain) : v.Exact .script := by
  induction h with
  | null => exact .null
  | bool b => exact .bool b
  | int h => exact .int rfl
  | str s => exact .str s
  | list _ ih => exact .list ih
  | dict _ _ _ ih => exact .dict ih

/-- Integers that a script holds exactly are written. -/
theorem isShowable_plain {v : Value} (h : v.Plain) : v.isShowable = true := by
  induction h with
  | null => rfl
  | bool b => rfl
  | int h => exact decide_eq_true (Datum.length_exact h)
  | str s => rfl
  | list _ ih => exact itemsShowable_iff.2 ih
  | dict htexts _ _ ih =>
    refine entriesShowable_iff.2 fun e he => ⟨?_, ih e he⟩
    obtain ⟨n, hn⟩ := htexts e he
    rw [hn]
    rfl

end Value

namespace Datum

/-- Listing properties only reorders them. -/
theorem listed_perm (ps : List (String × Datum)) : (listed ps).Perm ps := by
  have hsplit := List.filter_append_perm (fun p : String × Datum => (index? p.1).isSome) ps
  have hnone : (ps.filter fun p => (index? p.1).isNone) =
      ps.filter fun p => !(index? p.1).isSome := by
    refine List.filter_congr ?_
    intro p _
    simp
  rw [listed, hnone]
  exact ((List.mergeSort_perm _ _).append_right _).trans hsplit

theorem ofFields_eq_map (fs : Mapping Json) : ofFields fs = fs.map fun e => (e.1, ofJson e.2) := by
  induction fs with
  | nil => rfl
  | cons e fs ih => rw [ofFields, ih, List.map_cons]

/-- The document of a listed object has the fields of the object in another order. -/
theorem document_listed {ps : List (String × Datum)} (h : (ps.map Prod.fst).Nodup) :
    ∃ fs : Mapping Json, (Datum.obj (listed ps)).document = .obj fs ∧
      fs.Perm (ps.map fun e => (e.1, e.2.document)) := by
  have hperm : ((listed ps).map fun e => (e.1, e.2.document)).Perm
      (ps.map fun e => (e.1, e.2.document)) := (listed_perm ps).map _
  have hkeys : (Mapping.keys ((listed ps).map fun e => (e.1, e.2.document))).Nodup := by
    have hnames := ((listed_perm ps).map Prod.fst).nodup_iff.2 h
    rw [Mapping.keys, List.map_map]
    exact hnames
  refine ⟨_, ?_, hperm⟩
  rw [document, fieldDocuments_eq_map, Mapping.ofPairs_nodup hkeys]

end Datum

namespace Value

theorem ofItems_itemsJson (xs : List Value) :
    Datum.ofItems (itemsJson xs) = xs.map fun x => Datum.ofJson x.toJson := by
  induction xs with
  | nil => rfl
  | cons x xs ih => rw [itemsJson, Datum.ofItems, ih, List.map_cons]

theorem ofFields_entryFields (es : List (Value × Value)) :
    Datum.ofFields (entryFields es) = es.map fun e => (e.1.text, Datum.ofJson e.2.toJson) := by
  rw [Datum.ofFields_eq_map, entryFields, List.map_map]
  rfl

theorem fits_plain {v : Value} (h : v.Plain) : (Datum.ofJson v.toJson).Fits := by
  induction h with
  | null => simp only [toJson, Datum.ofJson, Datum.Fits]
  | bool b => simp only [toJson, Datum.ofJson, Datum.Fits]
  | int h =>
    rw [toJson, Datum.ofJson, Datum.ofInt, if_pos h, Datum.Fits]
    exact Datum.length_exact h
  | str s => simp only [toJson, Datum.ofJson, Datum.Fits]
  | list _ ih =>
    rw [toJson, Datum.ofJson, ofItems_itemsJson, Datum.Fits, Datum.allFit_iff]
    exact List.forall_mem_map.2 ih
  | dict _ hnames _ ih =>
    rw [toJson_dict hnames, Datum.ofJson, ofFields_entryFields, Datum.Fits, Datum.fieldsFit_iff]
    intro e he
    obtain ⟨e', he', rfl⟩ := List.mem_map.1 ((Datum.listed_perm _).mem_iff.1 he)
    exact ih e' he'

/-- What comes back of a mapping is found under the names of the mapping. -/
theorem echoed_dict {es : List (Value × Value)} (h : (es.map fun e => e.1.text).Nodup) :
    ∃ fs : Mapping Json, (Value.dict es).echoed = .obj fs ∧ es.length = fs.length ∧
      (Mapping.keys fs).Nodup ∧ ∀ e ∈ es, Mapping.get? e.1.text fs = some e.2.echoed := by
  have hnames : (es.map fun e => (e.1.text, Datum.ofJson e.2.toJson)).map Prod.fst =
      es.map fun e => e.1.text := by
    rw [List.map_map]
    rfl
  obtain ⟨fs, hdocument, hperm⟩ := Datum.document_listed (hnames ▸ h)
  rw [List.map_map] at hperm
  have hkeys : (Mapping.keys fs).Nodup := by
    have hmap := hperm.map Prod.fst
    rw [List.map_map] at hmap
    exact hmap.nodup_iff.2 h
  refine ⟨fs, ?_, ?_, hkeys, ?_⟩
  · rw [echoed, toJson_dict h, Datum.ofJson, ofFields_entryFields]
    exact hdocument
  · rw [hperm.length_eq, List.length_map]
  · intro e he
    exact Mapping.get?_of_mem hkeys (hperm.mem_iff.2 (List.mem_map.2 ⟨e, he, rfl⟩))

theorem itemsAgree_map {xs : List Value} (h : ∀ x ∈ xs, x.Agrees x.echoed) :
    ItemsAgree xs (xs.map echoed) := by
  induction xs with
  | nil => simp only [List.map_nil, ItemsAgree]
  | cons x xs ih =>
    rw [List.map_cons, ItemsAgree]
    exact ⟨h x List.mem_cons_self, ih fun y hy => h y (List.mem_cons_of_mem _ hy)⟩

theorem entriesAgree_get? {es : List (Value × Value)} {fs : Mapping Json}
    (htexts : ∀ e ∈ es, ∃ n, e.1 = .str n) (h : ∀ e ∈ es, e.2.Agrees e.2.echoed)
    (hget : ∀ e ∈ es, Mapping.get? e.1.text fs = some e.2.echoed) : EntriesAgree es fs := by
  induction es with
  | nil => simp only [EntriesAgree]
  | cons e es ih =>
    obtain ⟨k, x⟩ := e
    obtain ⟨n, rfl⟩ : ∃ n, k = .str n := htexts (k, x) List.mem_cons_self
    have hfirst := hget (.str n, x) List.mem_cons_self
    rw [EntriesAgree]
    refine ⟨⟨x.echoed, hfirst, h (.str n, x) List.mem_cons_self⟩, ?_⟩
    exact ih (fun e he => htexts e (List.mem_cons_of_mem _ he))
      (fun e he => h e (List.mem_cons_of_mem _ he)) fun e he => hget e (List.mem_cons_of_mem _ he)

/-- What comes back of a plain value is the value. -/
theorem agrees_echoed {v : Value} (h : v.Plain) : v.Agrees v.echoed := by
  induction h with
  | null => simp only [echoed, toJson, Datum.ofJson, Datum.document, Agrees]
  | bool b => simp only [echoed, toJson, Datum.ofJson, Datum.document, Agrees]
  | int h => rw [echoed, toJson, Datum.ofJson, Datum.ofInt, if_pos h, Datum.document, Agrees]
  | str s => simp only [echoed, toJson, Datum.ofJson, Datum.document, Agrees]
  | list _ ih =>
    rw [echoed, toJson, Datum.ofJson, ofItems_itemsJson, Datum.document,
      Datum.documents_eq_map, List.map_map, Agrees]
    exact itemsAgree_map ih
  | dict htexts hnames _ ih =>
    obtain ⟨fs, hechoed, hlength, hkeys, hget⟩ := echoed_dict hnames
    rw [hechoed, Agrees]
    exact ⟨hlength, hkeys, entriesAgree_get? htexts ih hget⟩

end Value

namespace Engine

/-- Options as one value. -/
def optionDict (options : List (String × Value)) : Value :=
  .dict (options.map fun e => (.str e.1, e.2))

theorem plain_optionDict {options : List (String × Value)}
    (hnames : (options.map Prod.fst).Nodup) (hplain : ∀ e ∈ options, e.2.Plain) :
    (optionDict options).Plain := by
  refine .dict ?_ ?_ (List.forall_mem_map.2 hplain)
  · exact List.forall_mem_map.2 fun e _ => ⟨e.1, rfl⟩
  · rw [List.map_map]
    exact hnames

theorem parse_plain {v : Value} (h : v.Plain) :
    Datum.parse v.toJson.encode = .ok (Datum.ofJson v.toJson) := by
  rw [parse_encode, Value.reread_exact (Value.exact_plain h)]

theorem assignValues_plain (m : List (String × Value)) : ∀ o : Options,
    (∀ e ∈ m, e.1 ≠ Options.prototypeName) → (∀ e ∈ m, e.2.Plain) →
    assignValues o m =
      .ok { o with own := Mapping.layer o.own (m.map fun e => (e.1, Datum.ofJson e.2.toJson)) } := by
  induction m with
  | nil =>
    intro o _ _
    rfl
  | cons e m ih =>
    intro o hnames hplain
    obtain ⟨name, v⟩ := e
    have hname := hnames (name, v) List.mem_cons_self
    have hassign : o.assign name (Datum.ofJson v.toJson) =
        { o with own := Mapping.put name (Datum.ofJson v.toJson) o.own } := if_neg hname
    simp only [assignValues, parse_plain (hplain (name, v) List.mem_cons_self), hassign]
    rw [ih _ (fun e he => hnames e (List.mem_cons_of_mem _ he))
      fun e he => hplain e (List.mem_cons_of_mem _ he)]
    rfl

/-- Options of plain values become properties of these values, in their order. -/
theorem handOver_own {options : List (String × Value)} (hnames : (options.map Prod.fst).Nodup)
    (hproto : ∀ e ∈ options, e.1 ≠ Options.prototypeName) (hplain : ∀ e ∈ options, e.2.Plain)
    (text : String) :
    handOver options text = .ok
      (⟨options.map fun e => (e.1, Datum.ofJson e.2.toJson), []⟩, Text.untilNul text.toList) := by
  have hpairs : Mapping.ofPairs options = options := Mapping.ofPairs_nodup hnames
  have hkeys : (Mapping.keys (options.map fun e => (e.1, Datum.ofJson e.2.toJson))).Nodup := by
    rw [Mapping.keys, List.map_map]
    exact hnames
  have hown : Mapping.layer [] (options.map fun e => (e.1, Datum.ofJson e.2.toJson)) =
      options.map fun e => (e.1, Datum.ofJson e.2.toJson) := Mapping.ofPairs_nodup hkeys
  have hassign := assignValues_plain options .empty hproto hplain
  rw [show Options.empty.own = [] from rfl, hown] at hassign
  have hwritten : allWritable options = true :=
    allWritable_iff.2 fun e he => Value.isWritable_of_isShowable (Value.isShowable_plain (hplain e he))
  rw [handOver_eq, if_pos hwritten, hpairs, hassign]
  rfl

/-- So do booleans. -/
theorem handOver_flags (flags : List (String × Bool)) (hnames : (flags.map Prod.fst).Nodup)
    (hproto : Options.prototypeName ∉ flags.map Prod.fst) (text : String) :
    handOver (flags.map fun e => (e.1, .bool e.2)) text =
      .ok (⟨flags.map fun e => (e.1, .bool e.2), []⟩, Text.untilNul text.toList) := by
  have hkeys : ((flags.map fun e => (e.1, Value.bool e.2)).map Prod.fst).Nodup := by
    rw [List.map_map]
    exact hnames
  have hother : ∀ e ∈ flags.map fun e => (e.1, Value.bool e.2), e.1 ≠ Options.prototypeName :=
    List.forall_mem_map.2 fun e he heq => hproto (heq ▸ List.mem_map_of_mem he)
  have hplain : ∀ e ∈ flags.map fun e => (e.1, Value.bool e.2), e.2.Plain :=
    List.forall_mem_map.2 fun e _ => .bool e.2
  rw [handOver_own hkeys hother hplain, List.map_map]
  rfl

/-- A script sees the options that were handed over, each under its name. -/
theorem handOver_plain {options : List (String × Value)} {text : String}
    (hnul : '\x00' ∉ text.toList) (hnames : (options.map Prod.fst).Nodup)
    (hproto : ∀ e ∈ options, e.1 ≠ Options.prototypeName) (hplain : ∀ e ∈ options, e.2.Plain) :
    ∃ o, handOver options text = .ok (o, text.toList) ∧
      Datum.obj (Datum.listed o.own) = Datum.ofJson (optionDict options).toJson := by
  have hhand := handOver_own hnames hproto hplain text
  rw [untilNul_of_not_mem hnul] at hhand
  have hdict : ((options.map fun e => (Value.str e.1, e.2)).map fun e => e.1.text).Nodup := by
    rw [List.map_map]
    exact hnames
  refine ⟨_, hhand, ?_⟩
  rw [optionDict, Value.toJson_dict hdict, Datum.ofJson, Datum.ofFields_eq_map,
    Value.entryFields, List.map_map, List.map_map]
  rfl

theorem document_record {line character : Nat} {reason : String} {evidence : List Char} :
    (Program.record line character reason evidence).document =
      .obj [("line", .int line), ("character", .int character), ("reason", .str reason),
        ("evidence", .str (String.ofList evidence))] := by
  have hkeys : ["line", "character", "reason", "evidence"].Nodup := by decide
  simp only [Program.record, Datum.document, Datum.fieldDocuments, count]
  exact congrArg Json.obj (Mapping.ofPairs_nodup hkeys)

theorem diagnostic?_record {line character : Nat} {reason : String} {evidence : List Char} :
    (Program.record line character reason evidence).document.diagnostic? =
      some ⟨line, character, reason, String.ofList evidence⟩ := by
  rw [document_record]
  rfl

theorem fits_record {line character : Nat} {reason : String} {evidence : List Char}
    (hline : line < 10 ^ Digits.limit) (hcharacter : character < 10 ^ Digits.limit) :
    (Program.record line character reason evidence).Fits := by
  simp only [Program.record, Datum.Fits, Datum.FieldsFit, and_true]
  exact ⟨fits_count hline, fits_count hcharacter⟩

/-- A program that reports what it was called with gives back the text as evidence, its width as the
character, and the options as its reason: read as a document, the reason is the mapping that was
handed over, name by name and value by value. Any names may be used but the one that sets the
prototype; the text has to be narrower than the least number with too many digits for a reader. -/
theorem echo_run (c : Context) (script : Script) (options : List (String × Value)) (text : String)
    (hopen : c.isOpen = true) (hused : c.used = false)
    (hprogram : script.program = .echo script.variant.entryPoint)
    (hnul : '\x00' ∉ text.toList) (hwidth : Text.width text.toList < 10 ^ Digits.limit)
    (hnames : (options.map Prod.fst).Nodup)
    (hproto : ∀ e ∈ options, e.1 ≠ Options.prototypeName) (hplain : ∀ e ∈ options, e.2.Plain) :
    ∃ reason decoded,
      (c.run script options text).1 = .ok [⟨0, Text.width text.toList, reason, text⟩] ∧
      Json.read reason = .ok decoded ∧ (optionDict options).Agrees decoded := by
  obtain ⟨o, hhand, hoptions⟩ := handOver_plain hnul hnames hproto hplain
  have hdict := plain_optionDict hnames hplain
  have hfit := Value.fits_plain hdict
  have heval : evaluate script options text = .ok (Datum.arr
      [Program.record 0 (Text.width text.toList)
        (Datum.ofJson (optionDict options).toJson).stringify text.toList]).stringify := by
    rw [← hoptions]
    exact evaluate_arr hprogram hhand rfl
  have hzero : 0 < 10 ^ Digits.limit := Nat.lt_of_le_of_lt (Nat.zero_le _) hwidth
  have hrun := Context.run_arr hopen hused heval
    (List.forall_mem_singleton.2 (fits_record hzero hwidth))
    (List.forall_mem_singleton.2 (isMalformed_of_diagnostic? diagnostic?_record))
  refine ⟨(Datum.ofJson (optionDict options).toJson).stringify, (optionDict options).echoed, ?_,
    Datum.read_stringify hfit, Value.agrees_echoed hdict⟩
  rw [hrun, List.map_singleton, List.filterMap_cons_some diagnostic?_record, List.filterMap_nil,
    String.ofList_toList]
  rfl

/-- Options of which one looks like the accessor of the other, with a name that sets a prototype
where it is not one of an option. -/
def oddOptions : List (String × Value) :=
  [("a b", .list [.null, .int (-3)]), ("a$000020b", .dict [(.str "__proto__", .str "'")])]

theorem plain_oddOptions : ∀ e ∈ oddOptions, e.2.Plain := by
  have hlist : (Value.list [.null, .int (-3)]).Plain := by
    refine .list ?_
    intro x hx
    rcases List.mem_cons.1 hx with rfl | hx
    · exact .null
    · rw [List.mem_singleton.1 hx]
      exact .int (by decide)
  have hdict : (Value.dict [(.str "__proto__", .str "'")]).Plain := by
    refine .dict (by simp) (by simp) ?_
    intro e he
    rw [List.mem_singleton.1 he]
    exact .str _
  intro e he
  rcases List.mem_cons.1 he with rfl | he
  · exact hlist
  · rw [List.mem_singleton.1 he]
    exact hdict

theorem echo_run_odd_names :
    ∃ reason decoded,
      ((opened .none .skip).run ⟨.jslint, Path.parse "jslint.js", "", "", .echo "JSLINT"⟩
        oddOptions "var a;").1 = .ok [⟨0, 6, reason, "var a;"⟩] ∧
      Json.read reason = .ok decoded ∧ (optionDict oddOptions).Agrees decoded := by
  have hwidth : Text.width "var a;".toList < 10 ^ Digits.limit :=
    Nat.lt_of_lt_of_le (by decide : _ < 10 ^ 1) (Nat.pow_le_pow_right (by decide) (by decide))
  exact echo_run (opened .none .skip) ⟨.jslint, Path.parse "jslint.js", "", "", .echo "JSLINT"⟩
    oddOptions "var a;" rfl rfl rfl (by decide) hwidth (by decide) (by decide) plain_oddOptions

end Engine

end ScriptLint
