import ScriptLint.Options.Assignment
import ScriptLint.Proofs.Trimming
import ScriptLint.Proofs.WrittenValues

/-!
# ScriptLint.Proofs.OptionTokens

Options given as tokens. A token made of a name and the document of a value is read as this name and
this value, and the first token that assigns nothing ends the reading.

* `Value.Literal`: values that are read back from their documents
* `OptionName`: names that a token can carry
* `readAssignment_token`: a token of a name and a value
* `readAssignment_error_iff`, `readTokens_error_iff`: tokens that assign nothing
* `readAssignments_tokens`: all tokens
-/

namespace ScriptLint

open Json Digits

namespace Value

/-- Null, truth values, integers with no more digits than are read, texts, and lists and mappings of
such values; the names of a mapping are texts. -/
inductive Literal : Value → Prop
  | null : Literal .null
  | bool (b : Bool) : Literal (.bool b)
  | int {i : Int} (h : (decimal i.natAbs).length ≤ limit) : Literal (.int i)
  | str (s : String) : Literal (.str s)
  | list {xs : List Value} (h : ∀ x ∈ xs, Literal x) : Literal (.list xs)
  | dict {es : List (Value × Value)} (htexts : ∀ e ∈ es, ∃ n, e.1 = .str n)
    (hnames : (es.map fun e => e.1.text).Nodup) (h : ∀ e ∈ es, Literal e.2) : Literal (.dict es)

theorem exact_literal {v : Value} (h : v.Literal) : v.Exact .host := by
  induction h with
  | null => exact .null
  | bool b => exact .bool b
  | int h =>
    refine .int ?_
    simp only [Dialect.host, Dialect.refusesDigits, Option.any_some, decide_eq_false_iff_not]
    omega
  | str s => exact .str s
  | list _ ih => exact .list ih
  | dict _ _ _ ih => exact .dict ih

/-- The integers in a literal are written. -/
theorem isShowable_literal {v : Value} (h : v.Literal) : v.isShowable = true := by
  induction h with
  | null => rfl
  | bool b => rfl
  | int h => exact decide_eq_true h
  | str s => rfl
  | list _ ih => exact itemsShowable_iff.2 ih
  | dict htexts _ _ ih =>
    refine entriesShowable_iff.2 fun e he => ⟨?_, ih e he⟩
    obtain ⟨n, hn⟩ := htexts e he
    rw [hn]
    rfl

theorem encode_literal {v : Value} (h : v.Literal) : v.encode = .ok v.toJson.encode := by
  rw [encode_eq, if_pos (isWritable_of_isShowable (isShowable_literal h))]

theorem itemValues_itemsJson {xs : List Value} (h : ∀ x ∈ xs, x.toJson.toValue = x) :
    itemValues (itemsJson xs) = xs := by
  induction xs with
  | nil => rfl
  | cons x xs ih =>
    have hrest := ih fun y hy => h y (List.mem_cons_of_mem _ hy)
    rw [itemsJson, itemValues, h x List.mem_cons_self, hrest]

theorem fieldValues_entryFields {es : List (Value × Value)} (htexts : ∀ e ∈ es, ∃ n, e.1 = .str n)
    (h : ∀ e ∈ es, e.2.toJson.toValue = e.2) : fieldValues (entryFields es) = es := by
  induction es with
  | nil => rfl
  | cons e es ih =>
    obtain ⟨k, v⟩ := e
    obtain ⟨n, rfl⟩ : ∃ n, k = .str n := htexts (k, v) List.mem_cons_self
    have hv : v.toJson.toValue = v := h (.str n, v) List.mem_cons_self
    have hrest := ih (fun e he => htexts e (List.mem_cons_of_mem _ he))
      fun e he => h e (List.mem_cons_of_mem _ he)
    rw [entryFields] at hrest
    rw [entryFields, List.map_cons, fieldValues, hrest, hv]
    rfl

/-- The document of a literal stands for it. -/
theorem toValue_literal {v : Value} (h : v.Literal) : v.toJson.toValue = v := by
  induction h with
  | null => rfl
  | bool b => rfl
  | int h => rfl
  | str s => rfl
  | list _ ih => rw [toJson, toValue, itemValues_itemsJson ih]
  | dict htexts hnames _ ih =>
    rw [toJson_dict hnames, toValue, fieldValues_entryFields htexts ih]

end Value

namespace Json

section Ends

theorem any_getLast? {p : Char → Bool} {cs : List Char} (h : ∀ c ∈ cs, p c = false) :
    cs.getLast?.any p = false := by
  cases hlast : cs.getLast? with
  | none => rfl
  | some c => exact h c (List.mem_of_getLast? hlast)

theorem any_getLast?_concat {p : Char → Bool} {c : Char} (h : p c = false) (cs : List Char) :
    (cs ++ [c]).getLast?.any p = false := by
  rw [List.getLast?_concat]
  exact h

/-- A document that is no binary number ends with something else than white space. -/
theorem write_ends (st : Style) (level : Nat) {j : Json} (h : ∀ x, j ≠ .float x) :
    (write st level j).getLast?.any Text.isSpace = false := by
  cases j with
  | null => rw [write]; rfl
  | bool b => rw [write]; cases b <;> rfl
  | int i =>
    rw [write, ofInt_signed]
    refine any_getLast? fun c hc => ?_
    have hdigit : ∀ c ∈ decimal i.natAbs, Text.isSpace c = false :=
      fun c hc => opens_not_space (opens_digit (decimal_isDigit _ c hc))
    rw [signed] at hc
    split at hc
    · rcases List.mem_cons.1 hc with rfl | hc
      · rfl
      · exact hdigit c hc
    · exact hdigit c hc
  | float x => exact absurd rfl (h x)
  | str s => rw [write, writeString]; exact any_getLast?_concat rfl _
  | arr xs =>
    cases xs with
    | nil => rw [write]; rfl
    | cons x xs => rw [write]; exact any_getLast?_concat rfl _
  | obj fs =>
    cases fs with
    | nil => rw [write]; rfl
    | cons f fs => obtain ⟨n, x⟩ := f; rw [write]; exact any_getLast?_concat rfl _

theorem write_starts (st : Style) (level : Nat) (j : Json) : Starts (write st level j) :=
  (reads_write (d := .script) st j level).starts

end Ends

end Json

namespace Options

section Tokens

theorem splitAssignment_append {name value : List Char} (h : '=' ∉ name) :
    splitAssignment (name ++ '=' :: value) = some (name, value) := by
  induction name with
  | nil => rfl
  | cons c name ih =>
    rw [List.mem_cons, not_or] at h
    rw [List.cons_append, splitAssignment, if_neg (Ne.symm h.1), ih h.2]

theorem splitAssignment_some {cs name value : List Char}
    (h : splitAssignment cs = some (name, value)) : cs = name ++ '=' :: value ∧ '=' ∉ name := by
  induction cs generalizing name with
  | nil => cases h
  | cons c cs ih =>
    rw [splitAssignment] at h
    split at h
    · rename_i hc
      cases h
      exact ⟨by rw [hc]; rfl, List.not_mem_nil⟩
    · rename_i hc
      split at h
      · rename_i hsplit
        cases h
        obtain ⟨rfl, hname⟩ := ih hsplit
        refine ⟨rfl, ?_⟩
        rw [List.mem_cons, not_or]
        exact ⟨Ne.symm hc, hname⟩
      · cases h

theorem splitAssignment_none_iff {cs : List Char} : splitAssignment cs = none ↔ '=' ∉ cs := by
  constructor
  · intro h hmem
    obtain ⟨name, value, rfl, hname⟩ := List.eq_append_cons_of_mem hmem
    rw [splitAssignment_append hname] at h
    cases h
  · intro h
    cases hsplit : splitAssignment cs with
    | none => rfl
    | some parts =>
      obtain ⟨rfl, _⟩ := splitAssignment_some hsplit
      exact absurd (List.mem_append_right _ List.mem_cons_self) h

/-- Names that a token can carry: not empty, without white space at their ends, and without the sign
that ends them. -/
structure OptionName (name : String) : Prop where
  nonempty : name ≠ ""
  stripped : Text.strip name = name
  unsplit : '=' ∉ name.toList

/-- The token that assigns a value, if the value has a text. -/
def assignmentToken (e : String × Value) : Except Fault String :=
  e.2.encode.map fun text => e.1 ++ "=" ++ text

theorem OptionName.trim {name : String} (h : OptionName name) :
    Text.trim Text.isSpace name.toList = name.toList := by
  have hstripped := congrArg String.toList h.stripped
  rwa [Text.strip, String.toList_ofList] at hstripped

theorem trim_encode {v : Value} (h : v.Literal) :
    Text.trim Text.isSpace v.toJson.encode.toList = v.toJson.encode.toList := by
  have hfloat : ∀ x, v.toJson ≠ .float x := by
    intro x hx
    cases h <;> cases hx
  rw [Json.encode, String.toList_ofList]
  obtain ⟨c, cs, hcs, hc⟩ := write_starts ⟨false, none⟩ 0 v.toJson
  have hends := write_ends ⟨false, none⟩ 0 hfloat
  rw [hcs] at hends ⊢
  exact Text.trim_eq_self (opens_not_space hc) hends

theorem readValue_literal {v : Value} (h : v.Literal) : readValue v.toJson.encode = v := by
  rw [readValue, Json.read, Value.readAs_encode (Value.exact_literal h)]
  exact Value.toValue_literal h

/-- A name and a literal have a token, which is read as this name and this literal. -/
theorem readAssignment_token {e : String × Value} (hname : OptionName e.1) (hvalue : e.2.Literal) :
    ∃ token, assignmentToken e = .ok token ∧ readAssignment token = .ok e := by
  obtain ⟨name, v⟩ := e
  have htoken : assignmentToken (name, v) = .ok (name ++ "=" ++ v.toJson.encode) := by
    rw [assignmentToken, Value.encode_literal hvalue]
    rfl
  refine ⟨_, htoken, ?_⟩
  have hchars : (name ++ "=" ++ v.toJson.encode).toList =
      name.toList ++ '=' :: v.toJson.encode.toList := by
    simp
  rw [readAssignment, hchars, splitAssignment_append hname.unsplit]
  simp only [hname.trim, trim_encode hvalue, String.ofList_toList, readValue_literal hvalue]
  split
  · rename_i hnil
    exact absurd (String.toList_eq_nil_iff.1 hnil) hname.nonempty
  · rename_i hcons
    rw [← hcons, String.ofList_toList]

theorem readTokens_tokens (pairs : List (String × Value)) :
    (∀ e ∈ pairs, OptionName e.1) → (∀ e ∈ pairs, e.2.Literal) →
    ∃ tokens : List String, pairs.map assignmentToken = tokens.map .ok ∧
      ∀ done : Mapping Value, readTokens done tokens = .ok (done.layer pairs) := by
  induction pairs with
  | nil =>
    intro _ _
    exact ⟨[], rfl, fun _ => rfl⟩
  | cons e pairs ih =>
    intro hnames hvalues
    obtain ⟨token, htoken, hread⟩ :=
      readAssignment_token (hnames e List.mem_cons_self) (hvalues e List.mem_cons_self)
    obtain ⟨tokens, htokens, hreads⟩ := ih (fun e he => hnames e (List.mem_cons_of_mem _ he))
      fun e he => hvalues e (List.mem_cons_of_mem _ he)
    refine ⟨token :: tokens, ?_, fun done => ?_⟩
    · rw [List.map_cons, htoken, htokens, List.map_cons]
    · rw [readTokens, hread]
      exact hreads _

end Tokens

section Faults

/-- A token that assigns nothing: it has no equals sign, or no name before the first. -/
def Nameless (token : String) : Prop :=
  '=' ∉ token.toList ∨
    ∃ name value, token.toList = name ++ '=' :: value ∧ '=' ∉ name ∧
      ∀ c ∈ name, Text.isSpace c = true

theorem readAssignment_error_iff {token : String} {f : Fault} :
    readAssignment token = .error f ↔ Nameless token ∧ f = .badAssignment token := by
  rw [readAssignment]
  cases hsplit : splitAssignment token.toList with
  | none =>
    have hnameless : Nameless token := .inl (splitAssignment_none_iff.1 hsplit)
    simp only [Except.error.injEq, hnameless, true_and, eq_comm]
  | some parts =>
    obtain ⟨name, value⟩ := parts
    obtain ⟨htoken, hname⟩ := splitAssignment_some hsplit
    have hnameless : Nameless token ↔ Text.trim Text.isSpace name = [] := by
      rw [Text.trim_eq_nil_iff]
      constructor
      · rintro (hnone | ⟨name', value', htoken', hname', hspace⟩)
        · rw [splitAssignment_none_iff.2 hnone] at hsplit
          cases hsplit
        · rw [htoken', splitAssignment_append hname'] at hsplit
          cases hsplit
          exact hspace
      · exact fun hspace => .inr ⟨name, value, htoken, hname, hspace⟩
    rw [hnameless]
    dsimp only
    split
    · rename_i hnil
      simp only [hnil, Except.error.injEq, true_and, eq_comm]
    · rename_i hcons
      simp [hcons]

/-- Reading ends with the first token that assigns nothing. -/
theorem readTokens_error_iff {f : Fault} (tokens : List String) : ∀ done : Mapping Value,
    readTokens done tokens = .error f ↔
      ∃ before token after, tokens = before ++ token :: after ∧
        (∀ t ∈ before, ¬Nameless t) ∧ Nameless token ∧ f = .badAssignment token := by
  induction tokens with
  | nil =>
    intro done
    simp [readTokens]
  | cons t tokens ih =>
    intro done
    rw [readTokens]
    split
    · rename_i f' hread
      obtain ⟨ht, rfl⟩ := readAssignment_error_iff.1 hread
      constructor
      · intro h
        cases h
        exact ⟨[], t, tokens, rfl, by simp, ht, rfl⟩
      · rintro ⟨before, token, after, heq, hbefore, htoken, rfl⟩
        cases before with
        | nil => cases heq; rfl
        | cons b before =>
          cases heq
          exact absurd ht (hbefore t List.mem_cons_self)
    · rename_i name value hread
      have ht : ¬Nameless t := by
        intro ht
        rw [readAssignment_error_iff.2 ⟨ht, rfl⟩] at hread
        cases hread
      rw [ih]
      constructor
      · rintro ⟨before, token, after, rfl, hbefore, htoken⟩
        exact ⟨t :: before, token, after, rfl, List.forall_mem_cons.2 ⟨ht, hbefore⟩, htoken⟩
      · rintro ⟨before, token, after, heq, hbefore, htoken, hf⟩
        cases before with
        | nil => cases heq; exact absurd htoken ht
        | cons b before =>
          cases heq
          exact ⟨before, token, after, rfl, (List.forall_mem_cons.1 hbefore).2, htoken, hf⟩

end Faults

/-- Names and literals have tokens, and these are read as the mapping from each name to its last
value, with the names in the order in which they first come. Tokens are refused exactly if one of them
assigns nothing, and the first such token is the one that is reported. -/
theorem readAssignments_tokens {pairs : List (String × Value)}
    (hnames : ∀ e ∈ pairs, OptionName e.1) (hvalues : ∀ e ∈ pairs, e.2.Literal)
    (tokens : List String) (f : Fault) :
    (∃ written m, pairs.map assignmentToken = written.map .ok ∧ readAssignments written = .ok m ∧
      Mapping.keys m = (pairs.map Prod.fst).eraseDups ∧
      ∀ name, Mapping.get? name m = Mapping.last? name pairs) ∧
    (readAssignments tokens = .error f ↔
      ∃ before token after, tokens = before ++ token :: after ∧
        (∀ t ∈ before, ¬Nameless t) ∧ Nameless token ∧ f = .badAssignment token) := by
  obtain ⟨written, hwritten, hread⟩ := readTokens_tokens pairs hnames hvalues
  refine ⟨⟨written, _, hwritten, hread [], ?_, ?_⟩, readTokens_error_iff tokens []⟩
  · have hkeys := Mapping.keys_layer pairs []
    simpa [Mapping.keys] using hkeys
  · intro name
    rw [Mapping.get?_layer]
    exact Option.or_none

/-- An option given twice, and one between whose text holds the sign that ends names. -/
def repeatedOptions : List (String × Value) :=
  [("indent", .int 4), ("predef", .list [.str "a=b", .null]), ("indent", .int 8)]

theorem readAssignments_tokens_repeated :
    ((∀ e ∈ repeatedOptions, OptionName e.1) ∧ ∀ e ∈ repeatedOptions, e.2.Literal) ∧
    ∃ m, readAssignments ["indent=4", "predef=[\"a=b\", null]", "indent=8"] = .ok m ∧
      Mapping.keys m = ["indent", "predef"] ∧
      ∀ name, Mapping.get? name m = Mapping.last? name repeatedOptions := by
  have hindent : OptionName "indent" := ⟨by decide, by decide, by decide⟩
  have hpredef : OptionName "predef" := ⟨by decide, by decide, by decide⟩
  have hnames : ∀ e ∈ repeatedOptions, OptionName e.1 := by
    simp only [repeatedOptions, List.forall_mem_cons]
    exact ⟨hindent, hpredef, hindent, by simp⟩
  have hitems : ∀ x ∈ [Value.str "a=b", .null], x.Literal := by
    simp only [List.forall_mem_cons]
    exact ⟨.str _, .null, by simp⟩
  have hvalues : ∀ e ∈ repeatedOptions, e.2.Literal := by
    simp only [repeatedOptions, List.forall_mem_cons]
    exact ⟨.int (by decide), .list hitems, .int (by decide), by simp⟩
  have htokens : repeatedOptions.map assignmentToken =
      ["indent=4", "predef=[\"a=b\", null]", "indent=8"].map .ok := rfl
  obtain ⟨⟨written, m, hwritten, hm, hkeys, hget⟩, _⟩ :=
    readAssignments_tokens hnames hvalues [] (.badAssignment "")
  obtain rfl : written = ["indent=4", "predef=[\"a=b\", null]", "indent=8"] :=
    List.map_inj_right (fun _ _ => Except.ok.inj) |>.1 (hwritten.symm.trans htokens)
  exact ⟨⟨hnames, hvalues⟩, m, hm, hkeys.trans (by decide), hget⟩

end Options

end ScriptLint
