import ScriptLint.Proofs.NumberTokens
import ScriptLint.Proofs.StringTokens
import ScriptLint.Text.Blank

/-!
# ScriptLint.Proofs.Reading

What a text reads as, put together from what its parts read as. A text that reads as an error reads
as this error wherever it stands.

* `Reads`, `ReadsItems`, `ReadsFields`: what a reader makes of a document, of the items of a list
  and of the fields of a mapping, whatever follows
* `Reads.string`, `Reads.arr`, `Reads.obj`, …: the forms of documents
* `Reads.readAs_gaps`: reading a whole text
-/

namespace ScriptLint.Json

variable {d : Dialect}

/-- The result of reading, with what is left of the text. -/
def leaving {α : Type} (rest : List Char) : Except ReadError α → Result α
  | .ok a => .ok (a, rest)
  | .error e => .error e

/-- White space between tokens. -/
def Gap (cs : List Char) : Prop := ∀ c ∈ cs, isGap c = true

/-- Characters a document may start with: no white space of any kind, no mark of an encoding, and
not the bracket that closes a list. -/
def opens (c : Char) : Bool := !Text.isSpace c && c != ']' && c != '\uFEFF'

def Starts (cs : List Char) : Prop := ∃ c cs', cs = c :: cs' ∧ opens c = true

theorem opens_not_space {c : Char} (h : opens c = true) : Text.isSpace c = false := by
  simp only [opens, Bool.and_eq_true, Bool.not_eq_true'] at h
  exact h.1.1

theorem opens_not_gap {c : Char} (h : opens c = true) : isGap c = false := by
  cases hgap : isGap c with
  | false => rfl
  | true => rcases isGap_cases hgap with rfl | rfl | rfl | rfl <;> cases h

/-- The document `cs` reads as `r`. The reader takes at most two steps for each character. -/
structure Reads (d : Dialect) (cs : List Char) (r : Except ReadError Json) : Prop where
  starts : Starts cs
  read : ∀ fuel rest, Stops rest → 2 * cs.length ≤ fuel + 1 →
    readValue d fuel (cs ++ rest) = leaving rest r

/-- The items `cs` of a list, up to its closing bracket, read as `r`. -/
structure ReadsItems (d : Dialect) (cs : List Char) (r : Except ReadError (List Json)) : Prop where
  starts : Starts cs
  read : ∀ fuel rest, 2 * cs.length ≤ fuel →
    readItems d fuel (cs ++ ']' :: rest) = leaving rest r

/-- The fields `cs` of a mapping, up to its closing brace, read as `r`. -/
structure ReadsFields (d : Dialect) (cs : List Char) (r : Except ReadError (Mapping Json)) : Prop
    where
  quoted : ∃ cs', cs = '"' :: cs'
  read : ∀ done fuel rest, 2 * cs.length ≤ fuel →
    readFields d fuel done (cs ++ '\x7d' :: rest) = leaving rest (r.map done.layer)

theorem gap_nil : Gap [] := by
  intro c h
  cases h

theorem Starts.ne_nil {cs : List Char} (h : Starts cs) : cs ≠ [] := by
  obtain ⟨c, cs', rfl, _⟩ := h
  exact List.cons_ne_nil c cs'

theorem Starts.append {cs : List Char} (h : Starts cs) (more : List Char) :
    Starts (cs ++ more) := by
  obtain ⟨c, cs', rfl, hc⟩ := h
  exact ⟨c, cs' ++ more, rfl, hc⟩

theorem skipGap_gap {g : List Char} (h : Gap g) (cs : List Char) :
    skipGap (g ++ cs) = skipGap cs := by
  induction g with
  | nil => rfl
  | cons c g ih =>
    have hc := h c (by simp)
    have hrest := ih fun x hx => h x (by simp [hx])
    simpa [skipGap, List.dropWhile_cons, hc] using hrest

theorem skipGap_cons {c : Char} (h : isGap c = false) (cs : List Char) :
    skipGap (c :: cs) = c :: cs := by
  simp [skipGap, h]

theorem skipGap_starts {cs : List Char} (h : Starts cs) (more : List Char) :
    skipGap (cs ++ more) = cs ++ more := by
  obtain ⟨c, cs', rfl, hc⟩ := h
  exact skipGap_cons (opens_not_gap hc) (cs' ++ more)

theorem stops_gap {g : List Char} (h : Gap g) {rest : List Char} (hrest : Stops rest) :
    Stops (g ++ rest) := by
  cases g with
  | nil => exact hrest
  | cons c g => exact stops_cons (.inl (h c (by simp)))

theorem positive_fuel {n fuel : Nat} (h : 2 * n ≤ fuel + 1) (hn : 0 < n) :
    ∃ f, fuel = f + 1 ∧ 2 * n ≤ f + 2 := by
  cases fuel with
  | zero => omega
  | succ f => exact ⟨f, rfl, h⟩

section Scalars

theorem readValue_scalar {fuel : Nat} {c : Char} {cs : List Char} (hq : c ≠ '"') (hl : c ≠ '[')
    (hb : c ≠ '\x7b') : readValue d (fuel + 1) (c :: cs) = readScalar d (c :: cs) := by
  unfold readValue
  split
  · rename_i h; cases h; exact absurd rfl hq
  · rename_i h; cases h; exact absurd rfl hl
  · rename_i h; cases h; exact absurd rfl hb
  · rfl

/-- Characters that a document starts with that is neither string, list nor mapping. -/
def opensScalar (c : Char) : Bool := opens c && c != '"' && c != '[' && c != '\x7b'

theorem Reads.scalar {c : Char} {cs : List Char} {r : Except ReadError Json}
    (hstart : opensScalar c = true)
    (hread : ∀ rest, Stops rest → readScalar d (c :: cs ++ rest) = leaving rest r) :
    Reads d (c :: cs) r := by
  simp only [opensScalar, Bool.and_eq_true, bne_iff_ne] at hstart
  obtain ⟨⟨⟨hopens, hquote⟩, hlist⟩, hbrace⟩ := hstart
  refine ⟨⟨c, cs, rfl, hopens⟩, ?_⟩
  intro fuel rest hrest hfuel
  obtain ⟨f, rfl, _⟩ := positive_fuel hfuel (by simp)
  rw [List.cons_append, readValue_scalar hquote hlist hbrace]
  exact hread rest hrest

theorem Reads.null : Reads d "null".toList (.ok .null) :=
  Reads.scalar (by decide) fun _ _ => rfl

theorem Reads.true : Reads d "true".toList (.ok (.bool true)) :=
  Reads.scalar (by decide) fun _ _ => rfl

theorem Reads.false : Reads d "false".toList (.ok (.bool false)) :=
  Reads.scalar (by decide) fun _ _ => rfl

theorem readScalar_digit {c : Char} {cs : List Char} (h : c.isDigit = Bool.true) :
    readScalar d (c :: cs) = readNumber d (c :: cs) Bool.false (c :: cs) := by
  unfold readScalar
  split
  all_goals first
    | rfl
    | (rename_i h'; cases h'; exact absurd h (by decide))

theorem readScalar_minus {c : Char} {cs : List Char} (h : c.isDigit = Bool.true) :
    readScalar d ('-' :: c :: cs) = readNumber d ('-' :: c :: cs) Bool.true (c :: cs) := by
  unfold readScalar
  split
  case h_6 h' => cases h'; exact absurd h (by decide)
  case h_7 h' => cases h'; rfl
  case h_8 h' => exact (h' _ rfl).elim
  all_goals rename_i h'; cases h'

theorem digit_ne {c x : Char} (h : c.isDigit = Bool.true) (hx : x.isDigit = Bool.false) : c ≠ x := by
  rintro rfl
  rw [h] at hx
  cases hx

theorem opens_digit {c : Char} (h : c.isDigit = Bool.true) : opens c = Bool.true := by
  have hclose : c ≠ ']' := digit_ne h rfl
  have hmark : c ≠ '\uFEFF' := digit_ne h rfl
  have hspace : Text.isSpace c = Bool.false := by
    simp only [Char.isDigit, Bool.and_eq_true, decide_eq_true_eq] at h
    have hlow : 48 ≤ c.toNat := h.1
    have hhigh : c.toNat ≤ 57 := h.2
    simp only [Text.isSpace, Text.isWhite, Text.isCommonSpace, Bool.or_eq_false_iff,
      Bool.and_eq_false_iff, beq_eq_false_iff_ne, decide_eq_false_iff_not]
    omega
  simp [opens, hspace, hclose, hmark]

/-- The sign in front of a number. -/
def signed (negative : Bool) (cs : List Char) : List Char := if negative then '-' :: cs else cs

/-- A number is read by what its digits read as. -/
theorem Reads.number {negative : Bool} {whole more : List Char} {r : Except ReadError Json}
    (hwhole : Whole whole)
    (hread : ∀ start rest, Stops rest →
      readNumber d start negative (whole ++ (more ++ rest)) = leaving rest r) :
    Reads d (signed negative (whole ++ more)) r := by
  obtain ⟨c, cs, rfl⟩ : ∃ c cs, whole = c :: cs := by
    rcases hwhole with rfl | ⟨c, cs, rfl, _⟩
    · exact ⟨_, _, rfl⟩
    · exact ⟨c, cs, rfl⟩
  have hc : c.isDigit = Bool.true := hwhole.digits c (by simp)
  cases negative with
  | false =>
    rw [signed, if_neg Bool.false_ne_true, List.cons_append]
    have hstart : opensScalar c = Bool.true := by
      simp only [opensScalar, Bool.and_eq_true, bne_iff_ne]
      exact ⟨⟨⟨opens_digit hc, digit_ne hc rfl⟩, digit_ne hc rfl⟩, digit_ne hc rfl⟩
    refine Reads.scalar hstart ?_
    intro rest hrest
    have h := hread (c :: (cs ++ (more ++ rest))) rest hrest
    simp only [List.cons_append, List.append_assoc] at h ⊢
    rw [readScalar_digit hc, h]
  | true =>
    rw [signed, if_pos rfl, List.cons_append]
    refine Reads.scalar (by decide) ?_
    intro rest hrest
    have h := hread ('-' :: c :: (cs ++ (more ++ rest))) rest hrest
    simp only [List.cons_append, List.append_assoc] at h ⊢
    rw [readScalar_minus hc, h]

/-- A special number, where the dialect takes it and where it does not. -/
theorem Reads.special {token w : String} {c : Char} {cs : List Char} {x : Binary64}
    {r : Except ReadError Json}
    (hr : r = if d.special then .ok (.float x) else .error (.refused token))
    (hw : w.toList = c :: cs) (hstart : opensScalar c = Bool.true)
    (hread : ∀ rest, readScalar d (w.toList ++ rest) = readSpecial d token w x (w.toList ++ rest))
    (hword : ∀ rest, dropWord? w.toList (w.toList ++ rest) = some rest) :
    Reads d w.toList r := by
  rw [hw] at hread hword ⊢
  refine Reads.scalar hstart ?_
  intro rest _
  rw [hread, readSpecial, hr]
  split
  · rw [readWord, hw, hword]
    rfl
  · rfl

end Scalars

section Compounds

theorem Reads.string {cs : List Char} {s : String} (h : Quoted cs s.toList) :
    Reads d ('"' :: (cs ++ ['"'])) (.ok (.str s)) := by
  refine ⟨⟨'"', _, rfl, rfl⟩, ?_⟩
  intro fuel rest _ hfuel
  obtain ⟨f, rfl, _⟩ := positive_fuel hfuel (by simp)
  rw [List.cons_append, List.append_assoc, List.singleton_append, readValue, readString_quoted h]
  rfl

theorem Reads.str (ascii : Bool) (s : String) : Reads d (writeString ascii s) (.ok (.str s)) :=
  Reads.string (quoted_written ascii s.toList)

theorem Reads.arr_empty {g : List Char} (hg : Gap g) :
    Reads d ('[' :: (g ++ [']'])) (.ok (.arr [])) := by
  refine ⟨⟨'[', _, rfl, rfl⟩, ?_⟩
  intro fuel rest _ hfuel
  obtain ⟨f, rfl, _⟩ := positive_fuel hfuel (by simp)
  rw [List.cons_append, List.append_assoc, List.singleton_append, readValue, skipGap_gap hg,
    skipGap_cons rfl]
  rfl

theorem Reads.arr_nil : Reads d ['[', ']'] (.ok (.arr [])) := Reads.arr_empty gap_nil

theorem Reads.obj_empty {g : List Char} (hg : Gap g) :
    Reads d ('\x7b' :: (g ++ ['\x7d'])) (.ok (.obj [])) := by
  refine ⟨⟨'\x7b', _, rfl, rfl⟩, ?_⟩
  intro fuel rest _ hfuel
  obtain ⟨f, rfl, _⟩ := positive_fuel hfuel (by simp)
  rw [List.cons_append, List.append_assoc, List.singleton_append, readValue, skipGap_gap hg,
    skipGap_cons rfl]
  rfl

theorem Reads.obj_nil : Reads d ['\x7b', '\x7d'] (.ok (.obj [])) := Reads.obj_empty gap_nil

theorem readValue_items {fuel : Nat} {cs rest' : List Char} {rest : List Char}
    (h : skipGap cs = rest') (hne : ∀ more, rest' ≠ ']' :: more) {r : Except ReadError (List Json)}
    (hitems : readItems d fuel rest' = leaving rest r) :
    readValue d (fuel + 1) ('[' :: cs) = leaving rest (r.map Json.arr) := by
  rw [readValue, h]
  split
  · rename_i more
    exact absurd rfl (hne more)
  · rw [hitems]
    cases r with
    | ok xs => rfl
    | error e => rfl

/-- A list reads as what its items read as. -/
theorem Reads.arr {g cs : List Char} {r : Except ReadError (List Json)} (hg : Gap g)
    (h : ReadsItems d cs r) : Reads d ('[' :: (g ++ (cs ++ [']']))) (r.map Json.arr) := by
  refine ⟨⟨'[', _, rfl, rfl⟩, ?_⟩
  intro fuel rest _ hfuel
  obtain ⟨f, rfl, hf⟩ := positive_fuel hfuel (by simp)
  have hread : readItems d f (cs ++ ']' :: rest) = leaving rest r := by
    refine h.read f rest ?_
    simp only [List.length_cons, List.length_append, List.length_nil] at hf
    omega
  have hstarts : ∀ more, cs ++ ']' :: rest ≠ ']' :: more := by
    obtain ⟨c, cs', rfl, hc⟩ := h.starts
    intro more heq
    cases heq
    cases hc
  have hskip : skipGap (g ++ (cs ++ ']' :: rest)) = cs ++ ']' :: rest := by
    rw [skipGap_gap hg, skipGap_starts h.starts]
  have h' := readValue_items hskip hstarts hread
  simpa using h'

theorem readValue_fields {fuel : Nat} {cs rest' : List Char} {rest : List Char}
    (h : skipGap cs = rest') (hne : ∀ more, rest' ≠ '\x7d' :: more)
    {r : Except ReadError (Mapping Json)}
    (hfields : readFields d fuel [] rest' = leaving rest r) :
    readValue d (fuel + 1) ('\x7b' :: cs) = leaving rest (r.map Json.obj) := by
  rw [readValue, h]
  split
  · rename_i more
    exact absurd rfl (hne more)
  · rw [hfields]
    cases r with
    | ok fs => rfl
    | error e => rfl

/-- A mapping reads as what its fields read as; a repeated name keeps its first place and takes its
last value. -/
theorem Reads.obj {g cs : List Char} {r : Except ReadError (Mapping Json)} (hg : Gap g)
    (h : ReadsFields d cs r) :
    Reads d ('\x7b' :: (g ++ (cs ++ ['\x7d']))) (r.map fun fs => .obj (Mapping.ofPairs fs)) := by
  refine ⟨⟨'\x7b', _, rfl, rfl⟩, ?_⟩
  intro fuel rest _ hfuel
  obtain ⟨f, rfl, hf⟩ := positive_fuel hfuel (by simp)
  have hread : readFields d f [] (cs ++ '\x7d' :: rest) =
      leaving rest (r.map (Mapping.layer [])) := by
    refine h.read [] f rest ?_
    simp only [List.length_cons, List.length_append, List.length_nil] at hf
    omega
  obtain ⟨cs', hcs⟩ := h.quoted
  have hstarts : ∀ more, cs ++ '\x7d' :: rest ≠ '\x7d' :: more := by
    intro more heq
    rw [hcs] at heq
    cases heq
  have hskip : skipGap (g ++ (cs ++ '\x7d' :: rest)) = cs ++ '\x7d' :: rest := by
    rw [skipGap_gap hg, hcs]
    exact skipGap_cons rfl _
  have h' := readValue_fields hskip hstarts hread
  have hmap : (r.map (Mapping.layer [])).map Json.obj =
      r.map fun fs => .obj (Mapping.ofPairs fs) := by
    cases r with
    | ok fs => rfl
    | error e => rfl
  rw [hmap] at h'
  simpa using h'

/-- The last item of a list. -/
theorem ReadsItems.one {x g : List Char} {r : Except ReadError Json} (h : Reads d x r) (hg : Gap g) :
    ReadsItems d (x ++ g) (r.map fun j => [j]) := by
  refine ⟨h.starts.append g, ?_⟩
  intro fuel rest hfuel
  have hpos := List.length_pos_iff.2 h.starts.ne_nil
  rw [List.length_append] at hfuel
  obtain ⟨f, rfl, _⟩ := positive_fuel (by omega : 2 * x.length ≤ fuel + 1) hpos
  have hstops : Stops (g ++ ']' :: rest) := stops_gap hg (stops_cons (by simp))
  rw [readItems, List.append_assoc, h.read f _ hstops (by omega)]
  cases r with
  | ok j =>
    simp only [leaving, skipGap_gap hg, skipGap_cons (show isGap ']' = Bool.false from rfl)]
    rfl
  | error e => rfl

/-- An item with more of them behind a comma. -/
theorem ReadsItems.more {x g g' ys : List Char} {r : Except ReadError Json}
    {rs : Except ReadError (List Json)} (h : Reads d x r) (hg : Gap g) (hg' : Gap g')
    (hys : ReadsItems d ys rs) :
    ReadsItems d (x ++ (g ++ ',' :: (g' ++ ys))) (r.bind fun j => rs.map (j :: ·)) := by
  refine ⟨h.starts.append _, ?_⟩
  intro fuel rest hfuel
  have hpos := List.length_pos_iff.2 h.starts.ne_nil
  simp only [List.length_append, List.length_cons] at hfuel
  obtain ⟨f, rfl, _⟩ := positive_fuel (by omega : 2 * x.length ≤ fuel + 1) hpos
  have hstops : Stops (g ++ ',' :: (g' ++ (ys ++ ']' :: rest))) :=
    stops_gap hg (stops_cons (by simp))
  simp only [List.append_assoc, List.cons_append]
  rw [readItems, h.read f _ hstops (by omega)]
  cases r with
  | ok j =>
    simp only [leaving, skipGap_gap hg, skipGap_cons (show isGap ',' = Bool.false from rfl),
      skipGap_gap hg', skipGap_starts hys.starts, hys.read f rest (by omega)]
    cases rs with
    | ok js => rfl
    | error e => rfl
  | error e => rfl

/-- Name and value of a field, up to what follows the value. -/
theorem readFields_field {n : List Char} {name : String} {g g' x rest : List Char}
    {r : Except ReadError Json} {done : Mapping Json} {fuel : Nat} (hn : Quoted n name.toList)
    (hg : Gap g) (hg' : Gap g') (h : Reads d x r) (hrest : Stops rest)
    (hfuel : 2 * x.length ≤ fuel + 1) :
    readFields d (fuel + 1) done ('"' :: (n ++ '"' :: (g ++ ':' :: (g' ++ (x ++ rest))))) =
      match r with
      | .error e => .error e
      | .ok j =>
        match skipGap rest with
        | '\x7d' :: more => .ok (done.put name j, more)
        | ',' :: more => readFields d fuel (done.put name j) (skipGap more)
        | more => fail .expectingComma more := by
  rw [readFields, readString_quoted hn]
  simp only [skipGap_gap hg, skipGap_cons (show isGap ':' = Bool.false from rfl), skipGap_gap hg',
    skipGap_starts h.starts, h.read fuel rest hrest hfuel]
  cases r with
  | ok j => rfl
  | error e => rfl

/-- The last field of a mapping. -/
theorem ReadsFields.last {n : List Char} {name : String} {g g' x g'' : List Char}
    {r : Except ReadError Json} (hn : Quoted n name.toList) (hg : Gap g) (hg' : Gap g')
    (h : Reads d x r) (hg'' : Gap g'') :
    ReadsFields d ('"' :: (n ++ '"' :: (g ++ ':' :: (g' ++ (x ++ g'')))))
      (r.map fun j => [(name, j)]) := by
  refine ⟨⟨_, rfl⟩, ?_⟩
  intro done fuel rest hfuel
  have hpos := List.length_pos_iff.2 h.starts.ne_nil
  simp only [List.length_append, List.length_cons] at hfuel
  obtain ⟨f, rfl, _⟩ := positive_fuel (by omega : 2 * x.length ≤ fuel + 1) hpos
  have hstops : Stops (g'' ++ '\x7d' :: rest) := stops_gap hg'' (stops_cons (by simp))
  simp only [List.append_assoc, List.cons_append]
  rw [readFields_field hn hg hg' h hstops (by omega)]
  cases r with
  | ok j =>
    simp only [skipGap_gap hg'', skipGap_cons (show isGap '\x7d' = Bool.false from rfl)]
    rfl
  | error e => rfl

/-- A field with more of them behind a comma. -/
theorem ReadsFields.next {n : List Char} {name : String} {g g' x g'' g₃ ys : List Char}
    {r : Except ReadError Json} {rs : Except ReadError (Mapping Json)} (hn : Quoted n name.toList)
    (hg : Gap g) (hg' : Gap g') (h : Reads d x r) (hg'' : Gap g'') (hg₃ : Gap g₃)
    (hys : ReadsFields d ys rs) :
    ReadsFields d
      ('"' :: (n ++ '"' :: (g ++ ':' :: (g' ++ (x ++ (g'' ++ ',' :: (g₃ ++ ys)))))))
      (r.bind fun j => rs.map ((name, j) :: ·)) := by
  refine ⟨⟨_, rfl⟩, ?_⟩
  intro done fuel rest hfuel
  have hpos := List.length_pos_iff.2 h.starts.ne_nil
  simp only [List.length_append, List.length_cons] at hfuel
  obtain ⟨f, rfl, _⟩ := positive_fuel (by omega : 2 * x.length ≤ fuel + 1) hpos
  have hstops : Stops (g'' ++ ',' :: (g₃ ++ (ys ++ '\x7d' :: rest))) :=
    stops_gap hg'' (stops_cons (by simp))
  have hskip : skipGap (ys ++ '\x7d' :: rest) = ys ++ '\x7d' :: rest := by
    obtain ⟨cs', hcs⟩ := hys.quoted
    rw [hcs]
    exact skipGap_cons rfl _
  simp only [List.append_assoc, List.cons_append]
  rw [readFields_field hn hg hg' h hstops (by omega)]
  cases r with
  | ok j =>
    simp only [skipGap_gap hg'', skipGap_cons (show isGap ',' = Bool.false from rfl),
      skipGap_gap hg₃, hskip, hys.read (done.put name j) f rest (by omega)]
    cases rs with
    | ok fs => rfl
    | error e => rfl
  | error e => rfl

/-- The last field of a mapping that is written. -/
theorem ReadsFields.one (ascii : Bool) (name : String) {g x g' : List Char}
    {r : Except ReadError Json} (hg : Gap g) (h : Reads d x r) (hg' : Gap g') :
    ReadsFields d (writeString ascii name ++ (':' :: (g ++ (x ++ g'))))
      (r.map fun j => [(name, j)]) := by
  rw [writeString_append]
  exact ReadsFields.last (quoted_written ascii name.toList) gap_nil hg h hg'

/-- A field that is written with more of them behind a comma. -/
theorem ReadsFields.more (ascii : Bool) (name : String) {g x g' g'' ys : List Char}
    {r : Except ReadError Json} {rs : Except ReadError (Mapping Json)} (hg : Gap g)
    (h : Reads d x r) (hg' : Gap g') (hg'' : Gap g'') (hys : ReadsFields d ys rs) :
    ReadsFields d (writeString ascii name ++ (':' :: (g ++ (x ++ (g' ++ ',' :: (g'' ++ ys))))))
      (r.bind fun j => rs.map ((name, j) :: ·)) := by
  rw [writeString_append]
  exact ReadsFields.next (quoted_written ascii name.toList) gap_nil hg h hg' hg'' hys

end Compounds

/-- A whole text reads as its document, with white space around it or without. -/
theorem Reads.readAs_gaps {g cs g' : List Char} {r : Except ReadError Json} (hg : Gap g)
    (h : Reads d cs r) (hg' : Gap g') : readAs d (String.ofList (g ++ (cs ++ g'))) = r := by
  have hskip : skipGap (g ++ (cs ++ g')) = cs ++ g' := by
    rw [skipGap_gap hg, skipGap_starts h.starts]
  have hgap : skipGap g' = [] := by
    have h' := skipGap_gap hg' []
    rwa [List.append_nil] at h'
  have hstops : Stops g' := by
    have h' := stops_gap hg' stops_nil
    rwa [List.append_nil] at h'
  have hread := h.read (2 * (g ++ (cs ++ g')).length + 2) g' hstops
    (by simp only [List.length_append]; omega)
  rw [readAs, String.toList_ofList]
  unfold readChars?
  split
  · rename_i heq
    cases g with
    | nil =>
      obtain ⟨c, cs', happend, hc⟩ := h.starts.append g'
      rw [List.nil_append, happend] at heq
      cases heq
      cases hc
    | cons c g =>
      cases heq
      cases hg '\uFEFF' List.mem_cons_self
  · rw [hskip, hread]
    cases r with
    | ok j => simp only [leaving, hgap]
    | error e => rfl

theorem Reads.readAs_gap {cs g : List Char} {r : Except ReadError Json} (h : Reads d cs r)
    (hg : Gap g) : readAs d (String.ofList (cs ++ g)) = r := by
  have hread := Reads.readAs_gaps gap_nil h hg
  rwa [List.nil_append] at hread

theorem Reads.readAs_eq {cs : List Char} {r : Except ReadError Json} (h : Reads d cs r) :
    readAs d (String.ofList cs) = r := by
  have hread := h.readAs_gap gap_nil
  rwa [List.append_nil] at hread

end ScriptLint.Json
