import ScriptLint.Proofs.Reading

/-!
# ScriptLint.Proofs.Grammar

The grammar of documents. The reader takes the texts of the grammar and no others, in every dialect;
in the dialect of the script language it is the grammar of the standard.

* `Spelled`, `SpelledItems`, `SpelledFields`: the spellings of a document, of the items of a list
  and of the fields of a mapping
* `Document`: whole texts, with white space around the document
* `Spelled.reads`: what is spelled is read
* `readValue_spelled`: what is read is spelled
* `readAs_eq_ok_iff`: the reader against the grammar
* `Document.mono`: dialects that take more
-/

namespace ScriptLint.Json

open Digits

variable {d d' : Dialect}

section Spellings

mutual

/-- The texts of a document. Only a dialect with special numbers has words for them. -/
inductive Spelled (d : Dialect) : List Char → Json → Prop
  | null : Spelled d "null".toList .null
  | true : Spelled d "true".toList (.bool true)
  | false : Spelled d "false".toList (.bool false)
  | nan (hspecial : d.special = true) : Spelled d "NaN".toList (.float .nan)
  | infinite (negative : Bool) (hspecial : d.special = true) :
    Spelled d (signed negative "Infinity".toList) (.float (.infinite negative))
  | whole (negative : Bool) {ds : List Char} (hds : Whole ds)
    (hlimit : d.refusesDigits ds.length = false) :
    Spelled d (signed negative ds) (wholeNumber negative ds)
  | number (negative : Bool) {ds fraction es : List Char} {exponent : Option Int} (hds : Whole ds)
    (hfraction : ∀ x ∈ fraction, x.isDigit = true) (hexponent : Exponent es exponent)
    (hparts : fraction ≠ [] ∨ exponent ≠ none) :
    Spelled d (signed negative (ds ++ (pointed fraction ++ es)))
      (.float (Binary64.ofDecimal negative (value 10 (ds ++ fraction))
        (exponent.getD 0 - fraction.length)))
  | str {cs : List Char} {s : String} (hs : Quoted cs s.toList) :
    Spelled d ('"' :: (cs ++ ['"'])) (.str s)
  | arr_empty {g : List Char} (hg : Gap g) : Spelled d ('[' :: (g ++ [']'])) (.arr [])
  | arr {g cs : List Char} {js : List Json} (hg : Gap g) (hitems : SpelledItems d cs js) :
    Spelled d ('[' :: (g ++ (cs ++ [']']))) (.arr js)
  | obj_empty {g : List Char} (hg : Gap g) : Spelled d ('\x7b' :: (g ++ ['\x7d'])) (.obj [])
  | obj {g cs : List Char} {fs : List (String × Json)} (hg : Gap g)
    (hfields : SpelledFields d cs fs) :
    Spelled d ('\x7b' :: (g ++ (cs ++ ['\x7d']))) (.obj (Mapping.ofPairs fs))

/-- Items between brackets. -/
inductive SpelledItems (d : Dialect) : List Char → List Json → Prop
  | one {x g : List Char} {j : Json} (hx : Spelled d x j) (hg : Gap g) :
    SpelledItems d (x ++ g) [j]
  | more {x g g' ys : List Char} {j : Json} {js : List Json} (hx : Spelled d x j) (hg : Gap g)
    (hg' : Gap g') (hys : SpelledItems d ys js) :
    SpelledItems d (x ++ (g ++ ',' :: (g' ++ ys))) (j :: js)

/-- Fields between braces, each as often as it is there. -/
inductive SpelledFields (d : Dialect) : List Char → List (String × Json) → Prop
  | last {n g g' x g'' : List Char} {name : String} {j : Json} (hn : Quoted n name.toList)
    (hg : Gap g) (hg' : Gap g') (hx : Spelled d x j) (hg'' : Gap g'') :
    SpelledFields d ('"' :: (n ++ '"' :: (g ++ ':' :: (g' ++ (x ++ g''))))) [(name, j)]
  | next {n g g' x g'' g₃ ys : List Char} {name : String} {j : Json} {fs : List (String × Json)}
    (hn : Quoted n name.toList) (hg : Gap g) (hg' : Gap g') (hx : Spelled d x j) (hg'' : Gap g'')
    (hg₃ : Gap g₃) (hys : SpelledFields d ys fs) :
    SpelledFields d
      ('"' :: (n ++ '"' :: (g ++ ':' :: (g' ++ (x ++ (g'' ++ ',' :: (g₃ ++ ys)))))))
      ((name, j) :: fs)

end

/-- A text is that of a document, with white space around it or without. -/
def Document (d : Dialect) (cs : List Char) (j : Json) : Prop :=
  ∃ g body g', Gap g ∧ Gap g' ∧ cs = g ++ (body ++ g') ∧ Spelled d body j

end Spellings

section Reading

mutual

/-- What is spelled is read. -/
theorem Spelled.reads : ∀ {cs : List Char} {j : Json}, Spelled d cs j → Reads d cs (.ok j)
  | _, _, .null => Reads.null
  | _, _, .true => Reads.true
  | _, _, .false => Reads.false
  | _, _, .nan hspecial =>
    Reads.special (if_pos hspecial).symm rfl (by decide) (fun _ => rfl) fun _ => rfl
  | _, _, .infinite negative hspecial => by
    cases negative with
    | false =>
      exact Reads.special (w := "Infinity") (if_pos hspecial).symm rfl (by decide) (fun _ => rfl)
        fun _ => rfl
    | true =>
      exact Reads.special (w := "-Infinity") (if_pos hspecial).symm rfl (by decide) (fun _ => rfl)
        fun _ => rfl
  | _, _, @Spelled.whole _ negative ds hds hlimit => by
    have hread : Reads d (signed negative (ds ++ [])) (.ok (wholeNumber negative ds)) := by
      refine Reads.number hds ?_
      intro start rest hrest
      rw [List.nil_append, readNumber_whole d start negative hds hrest, hlimit]
      rfl
    rwa [List.append_nil] at hread
  | _, _, .number negative hds hfraction hexponent hparts => by
    refine Reads.number hds ?_
    intro start rest hrest
    rw [List.append_assoc]
    exact readNumber_spelled d start negative hds hfraction hexponent hparts hrest
  | _, _, .str hs => Reads.string hs
  | _, _, .arr_empty hg => Reads.arr_empty hg
  | _, _, .arr hg hitems => Reads.arr hg hitems.reads
  | _, _, .obj_empty hg => Reads.obj_empty hg
  | _, _, .obj hg hfields => Reads.obj hg hfields.reads

theorem SpelledItems.reads : ∀ {cs : List Char} {js : List Json}, SpelledItems d cs js →
    ReadsItems d cs (.ok js)
  | _, _, .one hx hg => ReadsItems.one hx.reads hg
  | _, _, .more hx hg hg' hys => ReadsItems.more hx.reads hg hg' hys.reads

theorem SpelledFields.reads : ∀ {cs : List Char} {fs : List (String × Json)},
    SpelledFields d cs fs → ReadsFields d cs (.ok fs)
  | _, _, .last hn hg hg' hx hg'' => ReadsFields.last hn hg hg' hx.reads hg''
  | _, _, .next hn hg hg' hx hg'' hg₃ hys => ReadsFields.next hn hg hg' hx.reads hg'' hg₃ hys.reads

end

end Reading

section Taken

variable {cs rest : List Char} {j : Json}

theorem skipGap_split (cs : List Char) : ∃ g, Gap g ∧ cs = g ++ skipGap cs :=
  ⟨cs.takeWhile isGap, fun _ => Text.mem_takeWhile, List.takeWhile_append_dropWhile.symm⟩

theorem dropWord?_some : ∀ {w cs rest : List Char}, dropWord? w cs = some rest → cs = w ++ rest
  | [], _, _, h => by
    cases h
    rfl
  | w :: ws, [], _, h => by cases h
  | w :: ws, c :: cs, rest, h => by
    rw [dropWord?] at h
    split at h
    · rename_i heq
      rw [heq, dropWord?_some h, List.cons_append]
    · cases h

theorem readWord_ok {w : String} {j' : Json} (h : readWord w j' cs = .ok (j, rest)) :
    j = j' ∧ cs = w.toList ++ rest := by
  unfold readWord at h
  split at h
  · rename_i hword
    cases h
    exact ⟨rfl, dropWord?_some hword⟩
  · cases h

theorem readSpecial_ok {token w : String} {x : Binary64}
    (h : readSpecial d token w x cs = .ok (j, rest)) :
    d.special = true ∧ j = .float x ∧ cs = w.toList ++ rest := by
  rw [readSpecial] at h
  split at h
  · rename_i hspecial
    exact ⟨hspecial, readWord_ok h⟩
  · cases h

theorem spelled_of_readNumber {start : List Char} {negative : Bool}
    (h : readNumber d start negative cs = .ok (j, rest)) :
    ∃ body, cs = body ++ rest ∧ Spelled d (signed negative body) j := by
  unfold readNumber at h
  split at h
  · cases h
  · rename_i whole rest' hwhole
    obtain ⟨rfl, hdigits⟩ := readWhole_some hwhole
    split at h
    rename_i fraction rest₁ hpointed
    obtain ⟨rfl, hfraction⟩ := readFraction_eq hpointed
    split at h
    rename_i exponent rest₂ hexponent
    obtain ⟨es, rfl, hes⟩ := readExponent_eq hexponent
    split at h
    · rename_i hnone
      obtain ⟨rfl, rfl⟩ := hnone
      split at h
      · cases h
      · rename_i hlimit
        cases hes
        cases h
        exact ⟨whole, rfl, .whole negative hdigits (Bool.eq_false_iff.2 hlimit)⟩
    · rename_i hparts
      cases h
      refine ⟨whole ++ (pointed fraction ++ es), by simp only [List.append_assoc], ?_⟩
      exact .number negative hdigits hfraction hes (Decidable.not_and_iff_not_or_not.1 hparts)

theorem spelled_of_readScalar (h : readScalar d cs = .ok (j, rest)) :
    ∃ body, cs = body ++ rest ∧ Spelled d body j := by
  unfold readScalar at h
  split at h
  · obtain ⟨rfl, hcs⟩ := readWord_ok h
    exact ⟨_, hcs, .null⟩
  · obtain ⟨rfl, hcs⟩ := readWord_ok h
    exact ⟨_, hcs, .true⟩
  · obtain ⟨rfl, hcs⟩ := readWord_ok h
    exact ⟨_, hcs, .false⟩
  · obtain ⟨hspecial, rfl, hcs⟩ := readSpecial_ok h
    exact ⟨_, hcs, .nan hspecial⟩
  · obtain ⟨hspecial, rfl, hcs⟩ := readSpecial_ok h
    exact ⟨_, hcs, .infinite false hspecial⟩
  · obtain ⟨hspecial, rfl, hcs⟩ := readSpecial_ok h
    exact ⟨_, hcs, .infinite true hspecial⟩
  · obtain ⟨body, rfl, hbody⟩ := spelled_of_readNumber h
    exact ⟨'-' :: body, rfl, hbody⟩
  · obtain ⟨body, rfl, hbody⟩ := spelled_of_readNumber h
    exact ⟨body, rfl, hbody⟩

/-- What the readers take with some fuel, up to what follows. -/
structure TakesSpelled (d : Dialect) (fuel : Nat) : Prop where
  value : ∀ {cs rest : List Char} {j : Json}, readValue d fuel cs = .ok (j, rest) →
    ∃ body, cs = body ++ rest ∧ Spelled d body j
  items : ∀ {cs rest : List Char} {js : List Json}, readItems d fuel cs = .ok (js, rest) →
    ∃ body, cs = body ++ ']' :: rest ∧ SpelledItems d body js
  fields : ∀ {done fs : Mapping Json} {cs rest : List Char},
    readFields d fuel done cs = .ok (fs, rest) →
    ∃ body added, cs = body ++ '\x7d' :: rest ∧ SpelledFields d body added ∧ fs = done.layer added

/-- A list behind its bracket. -/
theorem TakesSpelled.arr {fuel : Nat} (ih : TakesSpelled d fuel) {cs rest : List Char} {j : Json}
    (h : readValue d (fuel + 1) ('[' :: cs) = .ok (j, rest)) :
    ∃ body, '[' :: cs = body ++ rest ∧ Spelled d body j := by
  obtain ⟨g, hg, hcs⟩ := skipGap_split cs
  rw [readValue] at h
  split at h
  · rename_i hskip
    cases h
    refine ⟨'[' :: (g ++ [']']), ?_, .arr_empty hg⟩
    rw [hcs, hskip]
    simp
  · split at h
    · rename_i hitems
      cases h
      obtain ⟨body, hbody, hspelled⟩ := ih.items hitems
      refine ⟨'[' :: (g ++ (body ++ [']'])), ?_, .arr hg hspelled⟩
      rw [hcs, hbody]
      simp
    · cases h

/-- A mapping behind its brace. -/
theorem TakesSpelled.obj {fuel : Nat} (ih : TakesSpelled d fuel) {cs rest : List Char} {j : Json}
    (h : readValue d (fuel + 1) ('\x7b' :: cs) = .ok (j, rest)) :
    ∃ body, '\x7b' :: cs = body ++ rest ∧ Spelled d body j := by
  obtain ⟨g, hg, hcs⟩ := skipGap_split cs
  rw [readValue] at h
  split at h
  · rename_i hskip
    cases h
    refine ⟨'\x7b' :: (g ++ ['\x7d']), ?_, .obj_empty hg⟩
    rw [hcs, hskip]
    simp
  · split at h
    · rename_i hfields
      cases h
      obtain ⟨body, added, hbody, hspelled, rfl⟩ := ih.fields hfields
      refine ⟨'\x7b' :: (g ++ (body ++ ['\x7d'])), ?_, .obj hg hspelled⟩
      rw [hcs, hbody]
      simp
    · cases h

theorem TakesSpelled.succ_value {fuel : Nat} (ih : TakesSpelled d fuel) {cs rest : List Char}
    {j : Json} (h : readValue d (fuel + 1) cs = .ok (j, rest)) :
    ∃ body, cs = body ++ rest ∧ Spelled d body j := by
  have hall := h
  unfold readValue at h
  split at h
  · split at h
    · rename_i hstring
      cases h
      obtain ⟨body, rfl, hbody⟩ := readString_eq_ok_iff.1 hstring
      exact ⟨'"' :: (body ++ ['"']), by simp, .str hbody⟩
    · cases h
  · exact ih.arr hall
  · exact ih.obj hall
  · exact spelled_of_readScalar h

theorem TakesSpelled.succ_items {fuel : Nat} (ih : TakesSpelled d fuel) {cs rest : List Char}
    {js : List Json} (h : readItems d (fuel + 1) cs = .ok (js, rest)) :
    ∃ body, cs = body ++ ']' :: rest ∧ SpelledItems d body js := by
  rw [readItems] at h
  split at h
  · cases h
  · rename_i x behind hvalue
    obtain ⟨body, rfl, hbody⟩ := ih.value hvalue
    obtain ⟨g, hg, hbehind⟩ := skipGap_split behind
    split at h
    · rename_i hskip
      cases h
      refine ⟨body ++ g, ?_, .one hbody hg⟩
      rw [hbehind, hskip, List.append_assoc]
    · rename_i more hskip
      obtain ⟨g', hg', hmore⟩ := skipGap_split more
      split at h
      · rename_i hitems
        cases h
        obtain ⟨ys, hys, hspelled⟩ := ih.items hitems
        refine ⟨body ++ (g ++ ',' :: (g' ++ ys)), ?_, .more hbody hg hg' hspelled⟩
        rw [hbehind, hskip, hmore, hys]
        simp
      · cases h
    · cases h

theorem TakesSpelled.succ_fields {fuel : Nat} (ih : TakesSpelled d fuel) {done fs : Mapping Json}
    {cs rest : List Char} (h : readFields d (fuel + 1) done cs = .ok (fs, rest)) :
    ∃ body added, cs = body ++ '\x7d' :: rest ∧ SpelledFields d body added ∧
      fs = done.layer added := by
  unfold readFields at h
  split at h
  · split at h
    · cases h
    · rename_i name behind hname
      obtain ⟨n, rfl, hn⟩ := readString_eq_ok_iff.1 hname
      obtain ⟨g, hg, hbehind⟩ := skipGap_split behind
      split at h
      · rename_i afterColon hcolon
        obtain ⟨g', hg', hafter⟩ := skipGap_split afterColon
        split at h
        · cases h
        · rename_i x rest' hvalue
          obtain ⟨body, hbody, hx⟩ := ih.value hvalue
          obtain ⟨g'', hg'', hrest'⟩ := skipGap_split rest'
          split at h
          · rename_i hskip
            cases h
            refine ⟨_, _, ?_, .last hn hg hg' hx hg'', rfl⟩
            rw [hbehind, hcolon, hafter, hbody, hrest', hskip]
            simp
          · rename_i more hskip
            obtain ⟨g₃, hg₃, hmore⟩ := skipGap_split more
            obtain ⟨ys, added, hys, hspelled, rfl⟩ := ih.fields h
            refine ⟨_, _, ?_, .next hn hg hg' hx hg'' hg₃ hspelled, rfl⟩
            rw [hbehind, hcolon, hafter, hbody, hrest', hskip, hmore, hys]
            simp
          · cases h
      · cases h
  · cases h

/-- What is read is spelled, and the rest is left. -/
theorem takesSpelled (d : Dialect) : ∀ fuel, TakesSpelled d fuel
  | 0 => by
    constructor
    · intro cs rest j h
      cases h
    · intro cs rest js h
      cases h
    · intro done fs cs rest h
      cases h
  | fuel + 1 => by
    have ih := takesSpelled d fuel
    exact ⟨ih.succ_value, ih.succ_items, ih.succ_fields⟩

end Taken

/-- The reader takes the texts of the grammar, and nothing else. -/
theorem readAs_eq_ok_iff {s : String} {j : Json} :
    readAs d s = .ok j ↔ Document d s.toList j := by
  constructor
  · intro h
    unfold readAs readChars? at h
    split at h
    · cases h
    · split at h
      · cases h
      · rename_i j' rest hvalue
        split at h
        · rename_i hend
          cases h
          obtain ⟨g, hg, hcs⟩ := skipGap_split s.toList
          obtain ⟨body, hbody, hspelled⟩ := (takesSpelled d _).value hvalue
          obtain ⟨g', hg', hrest⟩ := skipGap_split rest
          rw [hend, List.append_nil] at hrest
          refine ⟨g, body, rest, hg, hrest ▸ hg', ?_, hspelled⟩
          rw [hcs, hbody]
        · cases h
  · rintro ⟨g, body, g', hg, hg', hcs, hspelled⟩
    have hread := hspelled.reads.readAs_gaps hg hg'
    rwa [← hcs, String.ofList_toList] at hread

theorem Document.eq {cs : List Char} {j j' : Json} (h : Document d cs j) (h' : Document d cs j') :
    j = j' := by
  rw [← String.toList_ofList (l := cs)] at h h'
  have hread := readAs_eq_ok_iff.2 h
  rw [readAs_eq_ok_iff.2 h'] at hread
  cases hread
  rfl

section Dialects

/-- Every text of `d` is one of `d'`. -/
structure Narrower (d d' : Dialect) : Prop where
  special : d.special = true → d'.special = true
  digits : ∀ count, d'.refusesDigits count = true → d.refusesDigits count = true

theorem Narrower.takesDigits {count : Nat} (h : Narrower d d')
    (hcount : d.refusesDigits count = false) : d'.refusesDigits count = false := by
  rw [Bool.eq_false_iff] at hcount ⊢
  exact fun hrefused => hcount (h.digits count hrefused)

mutual

theorem Spelled.mono (h : Narrower d d') : ∀ {cs : List Char} {j : Json}, Spelled d cs j →
    Spelled d' cs j
  | _, _, .null => .null
  | _, _, .true => .true
  | _, _, .false => .false
  | _, _, .nan hspecial => .nan (h.special hspecial)
  | _, _, .infinite negative hspecial => .infinite negative (h.special hspecial)
  | _, _, .whole negative hds hlimit => .whole negative hds (h.takesDigits hlimit)
  | _, _, .number negative hds hfraction hexponent hparts =>
    .number negative hds hfraction hexponent hparts
  | _, _, .str hs => .str hs
  | _, _, .arr_empty hg => .arr_empty hg
  | _, _, .arr hg hitems => .arr hg (hitems.mono h)
  | _, _, .obj_empty hg => .obj_empty hg
  | _, _, .obj hg hfields => .obj hg (hfields.mono h)

theorem SpelledItems.mono (h : Narrower d d') : ∀ {cs : List Char} {js : List Json},
    SpelledItems d cs js → SpelledItems d' cs js
  | _, _, .one hx hg => .one (hx.mono h) hg
  | _, _, .more hx hg hg' hys => .more (hx.mono h) hg hg' (hys.mono h)

theorem SpelledFields.mono (h : Narrower d d') : ∀ {cs : List Char} {fs : List (String × Json)},
    SpelledFields d cs fs → SpelledFields d' cs fs
  | _, _, .last hn hg hg' hx hg'' => .last hn hg hg' (hx.mono h) hg''
  | _, _, .next hn hg hg' hx hg'' hg₃ hys => .next hn hg hg' (hx.mono h) hg'' hg₃ (hys.mono h)

end

theorem Document.mono {cs : List Char} {j : Json} (h : Narrower d d') :
    Document d cs j → Document d' cs j := by
  rintro ⟨g, body, g', hg, hg', hcs, hspelled⟩
  exact ⟨g, body, g', hg, hg', hcs, hspelled.mono h⟩

end Dialects

end ScriptLint.Json
