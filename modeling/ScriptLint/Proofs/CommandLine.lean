import ScriptLint.Cli.Request

/-!
# ScriptLint.Proofs.CommandLine

What gets through the scan of a command line: every value was given for a flag of the grammar that
admits it.

* `Grammar.Admits`: a value that a grammar has a flag for
* `Grammar.scan_admits`: the scan keeps to the grammar
* `Request.read_format`: a format of the log that is asked for is one of the choices
-/

namespace ScriptLint.Cli

namespace Grammar

variable {g : Grammar}

/-- A value, with its flag's title, that a flag of the grammar takes. -/
def Admits (g : Grammar) (v : String × String) : Prop :=
  ∃ f ∈ g.flags, f.title = v.1 ∧ ∃ choices, f.kind = .value choices ∧
    (choices = [] ∨ v.2 ∈ choices)

/-- A word of the grammar: if it looks like a flag, then like one of the grammar's. -/
def Knows (g : Grammar) (w : Word) : Prop := ∀ u, w.look = .flag u → u.flag ∈ g.flags

theorem mem_spellings {n : String} {f : Flag} (h : (n, f) ∈ g.spellings) : f ∈ g.flags := by
  rw [spellings, List.mem_flatMap] at h
  obtain ⟨f', hf', hn⟩ := h
  obtain ⟨n', _, heq⟩ := List.mem_map.1 hn
  cases heq
  exact hf'

theorem flag?_mem {n : String} {f : Flag} (h : g.flag? n = some f) : f ∈ g.flags := by
  rw [flag?, Option.map_eq_some_iff] at h
  obtain ⟨⟨n', f'⟩, hfind, rfl⟩ := h
  exact mem_spellings (List.mem_of_find?_eq_some hfind)

theorem candidates_mem {cs : List Char} {n : String} {u : FlagUse}
    (h : (n, u) ∈ g.candidates cs) : u.flag ∈ g.flags := by
  unfold candidates at h
  split at h
  · obtain ⟨⟨n', f⟩, hs, heq⟩ := List.mem_map.1 h
    cases heq
    exact mem_spellings (List.mem_filter.1 hs).1
  · obtain ⟨⟨n', f⟩, hs, heq⟩ := List.mem_filterMap.1 h
    have hf := mem_spellings hs
    simp only at heq
    split at heq
    · cases heq
      exact hf
    · split at heq
      · cases heq
        exact hf
      · cases heq

theorem classifyOther_mem {word : String} {u : FlagUse}
    (h : g.classifyOther word = .ok (.flag u)) : u.flag ∈ g.flags := by
  rw [classifyOther] at h
  split at h
  · rename_i n u' hone
    cases h
    exact candidates_mem (hone ▸ List.mem_singleton_self (n, u))
  · split at h <;> cases h
  · cases h

theorem classifyWord_mem {word : String} {u : FlagUse}
    (h : g.classifyWord word = .ok (.flag u)) : u.flag ∈ g.flags := by
  rw [classifyWord] at h
  split at h
  · cases h
  · cases h
  · split at h
    · split at h
      · rename_i f _ hflag
        cases h
        exact flag?_mem hflag
      · split at h
        · rename_i f hflag
          cases h
          exact flag?_mem hflag
        · exact classifyOther_mem h
      · exact classifyOther_mem h
    · cases h

theorem classify_knows : ∀ {args : List String} {words : List Word},
    g.classify args = .ok words → ∀ w ∈ words, g.Knows w
  | [], words, h => by
    cases h
    intro w hw
    cases hw
  | arg :: args, words, h => by
    rw [classify] at h
    split at h
    · cases h
      intro w hw u hu
      rcases List.mem_cons.1 hw with rfl | hw
      · cases hu
      · obtain ⟨v, _, rfl⟩ := List.mem_map.1 hw
        cases hu
    · cases hlook : g.classifyWord arg with
      | error e => rw [hlook] at h; cases h
      | ok look =>
        rw [hlook] at h
        cases hrest : g.classify args with
        | error e => rw [hrest] at h; cases h
        | ok rest =>
          rw [hrest] at h
          cases h
          intro w hw
          rcases List.mem_cons.1 hw with rfl | hw
          · intro u hu
            exact classifyWord_mem (hlook.trans (congrArg Except.ok hu))
          · exact classify_knows hrest w hw

theorem apply_admits {s s' : Scanned} {f : Flag} {value : String} (hf : f ∈ g.flags)
    (hs : ∀ v ∈ s.values, g.Admits v) (h : g.apply s f value = .ok s') :
    ∀ v ∈ s'.values, g.Admits v := by
  rw [apply] at h
  split at h
  · cases h
  · cases h
    exact hs
  · rename_i choices hkind
    split at h
    · rename_i hvalue
      cases h
      intro v hv
      rcases List.mem_append.1 hv with hv | hv
      · exact hs v hv
      · rw [List.mem_singleton.1 hv]
        refine ⟨f, hf, rfl, choices, hkind, ?_⟩
        rw [Bool.or_eq_true, List.isEmpty_iff, List.contains_iff_mem] at hvalue
        exact hvalue
    · cases h

theorem applyAll_admits : ∀ {taken : List (Flag × String)} {s s' : Scanned},
    (∀ t ∈ taken, t.1 ∈ g.flags) → (∀ v ∈ s.values, g.Admits v) →
    g.applyAll s taken = .ok s' → ∀ v ∈ s'.values, g.Admits v
  | [], s, s', _, hs, h => by
    cases h
    exact hs
  | (f, value) :: taken, s, s', ht, hs, h => by
    rw [applyAll] at h
    cases hone : g.apply s f value with
    | error e => rw [hone] at h; cases h
    | ok s₁ =>
      rw [hone] at h
      exact applyAll_admits (fun t h => ht t (List.mem_cons_of_mem _ h))
        (apply_admits (ht (f, value) List.mem_cons_self) hs hone) h

theorem takeFollowing_keeps {f : Flag} {rest rest' : List Word} {taken : List (Flag × String)}
    (hf : f ∈ g.flags) (hrest : ∀ w ∈ rest, g.Knows w)
    (h : g.takeFollowing f rest = .ok (taken, rest')) :
    (∀ t ∈ taken, t.1 ∈ g.flags) ∧ ∀ w ∈ rest', g.Knows w := by
  unfold takeFollowing at h
  split at h
  · split at h
    · cases h
      refine ⟨?_, fun w hw => hrest w (List.mem_cons_of_mem _ hw)⟩
      intro t ht
      rw [List.mem_singleton.1 ht]
      exact hf
    · cases h
  · cases h
    refine ⟨?_, hrest⟩
    intro t ht
    rw [List.mem_singleton.1 ht]
    exact hf

theorem takeJoined_keeps : ∀ {letters : List Char} {f : Flag} {equals : Bool}
    {rest rest' : List Word} {taken : List (Flag × String)} {extras : List String},
    f ∈ g.flags → (∀ w ∈ rest, g.Knows w) →
    g.takeJoined f equals rest letters = .ok (taken, extras, rest') →
    (∀ t ∈ taken, t.1 ∈ g.flags) ∧ ∀ w ∈ rest', g.Knows w
  | [], f, equals, rest, rest', taken, extras, _, _, h => by
    cases h
  | c :: cs, f, equals, rest, rest', taken, extras, hf, hrest, h => by
    have hone : ∀ v : String, ∀ t ∈ [(f, v)], t.1 ∈ g.flags := by
      intro v t ht
      rw [List.mem_singleton.1 ht]
      exact hf
    rw [takeJoined] at h
    split at h
    · cases h
      exact ⟨hone _, hrest⟩
    · split at h
      · cases h
      · cases hnext : g.flag? (String.ofList ['-', c]) with
        | none =>
          rw [hnext] at h
          cases h
          exact ⟨hone _, hrest⟩
        | some next =>
          have hmem := flag?_mem hnext
          rw [hnext] at h
          simp only at h
          split at h
          · cases htake : g.takeFollowing next rest with
            | error e => rw [htake] at h; cases h
            | ok r =>
              rw [htake] at h
              cases h
              obtain ⟨ht, hr⟩ := takeFollowing_keeps hmem hrest htake
              exact ⟨List.forall_mem_cons.2 ⟨hf, ht⟩, hr⟩
          · split at h
            · cases h
              refine ⟨List.forall_mem_cons.2 ⟨hf, ?_⟩, hrest⟩
              intro t ht
              rw [List.mem_singleton.1 ht]
              exact hmem
            · cases h
          · cases hjoin : g.takeJoined next false rest cs with
            | error e => rw [hjoin] at h; cases h
            | ok r =>
              rw [hjoin] at h
              cases h
              obtain ⟨ht, hr⟩ := takeJoined_keeps hmem hrest hjoin
              exact ⟨List.forall_mem_cons.2 ⟨hf, ht⟩, hr⟩

theorem takeFlag_keeps {word : String} {u : FlagUse} {rest rest' : List Word}
    {taken : List (Flag × String)} {extras : List String} (hu : u.flag ∈ g.flags)
    (hrest : ∀ w ∈ rest, g.Knows w)
    (h : g.takeFlag word u rest = .ok (taken, extras, rest')) :
    (∀ t ∈ taken, t.1 ∈ g.flags) ∧ ∀ w ∈ rest', g.Knows w := by
  rw [takeFlag] at h
  split at h
  · cases htake : g.takeFollowing u.flag rest with
    | error e => rw [htake] at h; cases h
    | ok r =>
      rw [htake] at h
      cases h
      exact takeFollowing_keeps hu hrest htake
  · split at h
    · cases h
      refine ⟨?_, hrest⟩
      intro t ht
      rw [List.mem_singleton.1 ht]
      exact hu
    · split at h
      · cases h
      · exact takeJoined_keeps hu hrest h

/-- What the scan keeps from step to step. -/
structure Sound (g : Grammar) (s : Scanned) (words : List Word) : Prop where
  admitted : ∀ v ∈ s.values, g.Admits v
  known : ∀ w ∈ words, g.Knows w

theorem scanFlag_sound {s s' : Scanned} {words rest : List Word} (hs : g.Sound s words)
    (h : g.scanFlag s words = .ok (s', rest)) : g.Sound s' rest := by
  rw [scanFlag] at h
  have hdropped : ∀ w ∈ words.dropWhile fun w => !w.isFlagLike, g.Knows w :=
    fun w hw => hs.known w ((List.dropWhile_sublist _).mem hw)
  cases hwords : words.dropWhile fun w => !w.isFlagLike with
  | nil =>
    rw [hwords] at h
    cases h
    exact ⟨hs.admitted, fun w hw => by cases hw⟩
  | cons w ws =>
    rw [hwords] at h hdropped
    have hknown : ∀ w ∈ ws, g.Knows w := fun w hw => hdropped w (List.mem_cons_of_mem _ hw)
    simp only at h
    split at h
    · rename_i u hlook
      have hu := hdropped w List.mem_cons_self u hlook
      cases htake : g.takeFlag w.text u ws with
      | error e => rw [htake] at h; cases h
      | ok r =>
        obtain ⟨taken, extras, rest'⟩ := r
        rw [htake] at h
        obtain ⟨ht, hr⟩ := takeFlag_keeps hu hknown htake
        simp only at h
        split at h
        · rename_i happly
          cases h
          refine ⟨applyAll_admits ht ?_ happly, hr⟩
          exact hs.admitted
        · cases h
    · cases h
      exact ⟨hs.admitted, hknown⟩

theorem takeOperands_known {s : Scanned} {words rest : List Word} {operands : List String}
    (hs : ∀ w ∈ words, g.Knows w) (h : g.takeOperands s words = some (operands, rest)) :
    ∀ w ∈ rest, g.Knows w := by
  simp only [takeOperands] at h
  split at h
  · cases h
  · split at h
    · cases h
    · cases h
      exact fun w hw => hs w (List.mem_of_mem_drop hw)
    · cases h
      exact fun w hw => by cases hw

theorem scanStep_sound {s s' : Scanned} {words rest : List Word} (hs : g.Sound s words)
    (h : g.scanStep s words = .ok (s', rest)) : g.Sound s' rest := by
  rw [scanStep] at h
  cases htake : g.takeOperands s words with
  | none =>
    rw [htake] at h
    exact scanFlag_sound hs h
  | some r =>
    obtain ⟨operands, rest'⟩ := r
    rw [htake] at h
    simp only at h
    split at h
    · cases h
      exact ⟨hs.admitted, takeOperands_known hs.known htake⟩
    · cases h

theorem scanWords_admits : ∀ {fuel : Nat} {s s' : Scanned} {words : List Word},
    g.Sound s words → g.scanWords fuel s words = .ok s' → ∀ v ∈ s'.values, g.Admits v
  | 0, s, s', words, hs, h => by
    -- what was scanned so far is sound, whether or not words are left
    cases h
    exact hs.admitted
  | fuel + 1, s, s', words, hs, h => by
    rw [scanWords] at h
    split at h
    · cases h
      exact hs.admitted
    · cases hstep : g.scanStep s words with
      | error e => rw [hstep] at h; cases h
      | ok r =>
        obtain ⟨s₁, rest⟩ := r
        rw [hstep] at h
        exact scanWords_admits (scanStep_sound hs hstep) h

/-- Every value that a scan gives was given for a flag that takes it. -/
theorem scan_admits {args : List String} {s : Scanned} (h : g.scan args = .ok s) :
    ∀ v ∈ s.values, g.Admits v := by
  rw [scan] at h
  cases hclassify : g.classify args with
  | error e => rw [hclassify] at h; cases h
  | ok words =>
    rw [hclassify] at h
    simp only at h
    cases hscan : g.scanWords (words.length + 1) Scanned.empty words with
    | error e => rw [hscan] at h; cases h
    | ok s₁ =>
      rw [hscan] at h
      simp only at h
      split at h
      · cases h
      · cases h
        refine scanWords_admits ⟨?_, classify_knows hclassify⟩ hscan
        intro v hv
        cases hv

end Grammar

namespace Scanned

theorem last?_mem {s : Scanned} {f : Flag} {v : String} (h : s.last? f = some v) :
    (f.title, v) ∈ s.values := by
  rw [last?, Option.map_eq_some_iff] at h
  obtain ⟨⟨title, v'⟩, hlast, rfl⟩ := h
  obtain ⟨hmem, htitle⟩ := List.mem_filter.1 (List.mem_of_getLast? hlast)
  rw [← beq_iff_eq.1 htitle]
  exact hmem

end Scanned

namespace Request

/-- The grammars of the commands know one flag for the format of the log. -/
theorem formatFlag_unique {g : Grammar}
    (hg : g ∈ [checkGrammar, optionsGrammar, listGrammar]) :
    ∀ f ∈ g.flags, f.title = logFormatFlag.title → f = logFormatFlag := by
  have hall : ∀ g ∈ [checkGrammar, optionsGrammar, listGrammar], ∀ f ∈ g.flags,
      f.title = logFormatFlag.title → f = logFormatFlag := by decide
  exact hall g hg

theorem scan_format {g : Grammar} (hg : g ∈ [checkGrammar, optionsGrammar, listGrammar])
    {args : List String} {s : Scanned} (h : g.scan args = .ok s) {name : String}
    (hname : s.last? logFormatFlag = some name) : name ∈ formatChoices := by
  obtain ⟨f, hf, htitle, choices, hkind, hmem⟩ := g.scan_admits h _ (Scanned.last?_mem hname)
  cases formatFlag_unique hg f hf htitle
  cases hkind
  rcases hmem with hnone | hmem
  · cases hnone
  · exact hmem

theorem readCommand_format {name : String} {args : List String} {j : Job} {extras : List String}
    (h : readCommand name args = .ok (j, extras)) {format : String}
    (hformat : j.log.format = some format) : format ∈ formatChoices := by
  rw [readCommand] at h
  split at h
  · cases hscan : checkGrammar.scan args with
    | error e => rw [hscan] at h; cases h
    | ok s =>
      rw [hscan] at h
      cases h
      exact scan_format (by simp) hscan hformat
  · split at h
    · cases hscan : optionsGrammar.scan args with
      | error e => rw [hscan] at h; cases h
      | ok s =>
        rw [hscan] at h
        cases h
        exact scan_format (by simp) hscan hformat
    · cases hengines : enginesGrammar.scan args with
      | error e => rw [hengines] at h; cases h
      | ok s =>
        rw [hengines] at h
        simp only at h
        cases hscan : listGrammar.scan ((s.operands.getD []).drop 1) with
        | error e => rw [hscan] at h; cases h
        | ok t =>
          rw [hscan] at h
          cases h
          exact scan_format (by simp) hscan hformat

/-- A format of the log that a command line asks for is one of the choices. -/
theorem read_format {args : List String} {j : Job} (h : read args = .ok (.job j))
    {format : String} (hformat : j.log.format = some format) : format ∈ formatChoices := by
  rw [read] at h
  cases hscan : mainGrammar.scan args with
  | error e => rw [hscan] at h; cases h
  | ok s =>
    rw [hscan] at h
    simp only at h
    split at h
    · split at h
      · cases h
      · split at h <;> cases h
    · rename_i words _
      cases hcommand : readCommand (words.headD "") (words.drop 1) with
      | error e => rw [hcommand] at h; cases h
      | ok r =>
        obtain ⟨j', extras⟩ := r
        rw [hcommand] at h
        simp only at h
        split at h
        · cases h
        · split at h
          · cases h
          · cases h
            exact readCommand_format hcommand hformat

end Request

end ScriptLint.Cli
