import ScriptLint.Proofs.Records

/-!
# ScriptLint.Proofs.Policies

Both policies draw the same line through the records of an engine: on one side those that show a
finding, on the other the malformed ones. Null records are on neither side.

* `Json.finding?`: the finding that a record shows, field by field
* `Collector.malformedFrom`: the places of the malformed records
* `Collector.harvest_warnings`: what is logged about the records that are left out
* `Collector.harvest_fail`: the first malformed record ends a collection that is not lenient
* `Collector.collect_skip`, `collect_fail_clean`, `collect_fail_first`: collecting one text
* `Collector.policies_agree`: the two policies on one list of records
-/

namespace ScriptLint

namespace Json

/-- What a record says under a name. A null says nothing. -/
def said? (name : String) : Json → Option Value
  | .obj fs => (Mapping.get? name fs).bind valueOf?
  | _ => none

/-- The finding that a record shows: two positions and a reason, and the evidence that is there. -/
def finding? (record : Json) : Option Diagnostic :=
  ((record.said? "line").bind position?).bind fun line =>
    ((record.said? "character").bind position?).bind fun character =>
      (record.said? "reason").map fun reason =>
        ⟨line, character, reason.text, ((record.said? "evidence").map Value.text).getD ""⟩

/-- Reading a record gives the finding that it shows. -/
theorem diagnostic?_eq (record : Json) : record.diagnostic? = record.finding? := by
  cases record with
  | obj fs =>
    rw [diagnostic?, finding?, toValue, parseRecord]
    simp only [said?, presentField?_fieldValues]
    generalize (Mapping.get? "line" fs).bind valueOf? = line
    generalize (Mapping.get? "character" fs).bind valueOf? = character
    generalize (Mapping.get? "reason" fs).bind valueOf? = reason
    cases line with
    | none => rfl
    | some line =>
      simp only [Option.bind_some]
      cases character with
      | none => cases position? line <;> rfl
      | some character =>
        simp only [Option.bind_some]
        cases reason with
        | none => cases position? line <;> cases position? character <;> rfl
        | some reason =>
          dsimp only
          cases position? line <;> cases position? character <;> rfl
  | _ => rfl

theorem filterMap_diagnostic? (records : List Json) :
    records.filterMap diagnostic? = records.filterMap finding? :=
  congrArg (records.filterMap ·) (funext diagnostic?_eq)

section Blank

variable {d : Dialect}

theorem isDigit_not_space {c : Char} (h : Text.isSpace c = true) : c.isDigit = false := by
  cases hdigit : c.isDigit with
  | false => rfl
  | true => rw [opens_not_space (opens_digit hdigit)] at h; cases h

theorem readScalar_space {c : Char} {cs : List Char} (h : Text.isSpace c = true) :
    readScalar d (c :: cs) = fail .expectingValue (c :: cs) := by
  have hdigit := isDigit_not_space h
  have hwhole : readWhole (c :: cs) = none := by
    unfold readWhole
    split
    · rename_i heq; cases heq; cases h
    · rename_i heq; cases heq; rw [if_neg (by simp [hdigit])]
    · rfl
  unfold readScalar
  split <;> first
    | (rename_i heq; cases heq; cases h)
    | rw [readNumber, hwhole]

theorem readValue_space {fuel : Nat} {cs : List Char} (h : ∀ c ∈ cs, Text.isSpace c = true) :
    readValue d (fuel + 1) cs = fail .expectingValue cs := by
  cases cs with
  | nil => rfl
  | cons c cs =>
    have hc := h c List.mem_cons_self
    have hne : ∀ x, Text.isSpace x = false → c ≠ x := by
      rintro x hx rfl
      rw [hx] at hc
      cases hc
    rw [readValue_scalar (hne '"' rfl) (hne '[' rfl) (hne '\x7b' rfl), readScalar_space hc]

/-- White space is no document. -/
theorem readChars?_space {cs : List Char} (h : ∀ c ∈ cs, Text.isSpace c = true) :
    ∃ e, readChars? d cs = .error e := by
  unfold readChars?
  split
  · exact ⟨_, rfl⟩
  · have hgap : ∀ c ∈ skipGap cs, Text.isSpace c = true :=
      fun c hc => h c (List.dropWhile_sublist _ |>.mem hc)
    rw [readValue_space hgap]
    exact ⟨_, rfl⟩

end Blank

end Json

theorem parseRecord_fault {index : Int} {record : Value} {fault : Fault}
    (h : parseRecord index record = .error fault) :
    ∃ reason, fault = .malformedRecord index record reason := by
  unfold parseRecord at h
  split at h
  · split at h
    · split at h
      · cases h
      · cases h
        exact ⟨_, rfl⟩
    · cases h
      exact ⟨_, rfl⟩
  · cases h
    exact ⟨_, rfl⟩

namespace Collector

open Json

/-- The places of the malformed records of a list, its first place being `start`. -/
def malformedFrom (start : Nat) (records : List Json) : List Nat :=
  ((records.zipIdx start).filter fun e => !e.1.isNull && e.1.finding?.isNone).map Prod.snd

theorem malformedFrom_cons (start : Nat) (record : Json) (records : List Json) :
    malformedFrom start (record :: records) =
      if record.isMalformed then start :: malformedFrom (start + 1) records
      else malformedFrom (start + 1) records := by
  rw [malformedFrom, List.zipIdx_cons, List.filter_cons, isMalformed, diagnostic?_eq]
  split <;> rfl

theorem mem_malformedFrom {start i : Nat} {records : List Json} :
    i ∈ malformedFrom start records ↔ ∃ k record, i = start + k ∧ records[k]? = some record ∧
      record.isNull = false ∧ record.finding? = none := by
  simp only [malformedFrom, List.mem_map, List.mem_filter, Bool.and_eq_true, Bool.not_eq_true',
    Option.isNone_iff_eq_none]
  constructor
  · rintro ⟨⟨record, j⟩, ⟨hmem, hnull, hnone⟩, rfl⟩
    obtain ⟨hle, hget⟩ := List.mk_mem_zipIdx_iff_le_and_getElem?_sub.1 hmem
    exact ⟨j - start, record, (Nat.add_sub_of_le hle).symm, hget, hnull, hnone⟩
  · rintro ⟨k, record, rfl, hget, hnull, hnone⟩
    refine ⟨(record, start + k), ⟨?_, hnull, hnone⟩, rfl⟩
    exact List.mk_add_mem_zipIdx_iff_getElem?.2 hget

theorem malformedFrom_increasing (records : List Json) : ∀ start,
    (malformedFrom start records).Pairwise (· < ·) := by
  induction records with
  | nil => intro start; exact List.Pairwise.nil
  | cons record records ih =>
    intro start
    rw [malformedFrom_cons]
    split
    · refine List.pairwise_cons.2 ⟨?_, ih (start + 1)⟩
      intro i hi
      obtain ⟨k, _, rfl, _⟩ := mem_malformedFrom.1 hi
      omega
    · exact ih (start + 1)

theorem decodeRecords_arr {payload : String} {records : List Json}
    (h : Json.read payload = .ok (.arr records)) : decodeRecords payload = .ok records := by
  have hstrip : Text.strip payload ≠ "" := by
    intro hempty
    have hchars := congrArg String.toList hempty
    rw [Text.strip, String.toList_ofList] at hchars
    have hspace := Text.trim_eq_nil_iff.1 hchars
    obtain ⟨e, he⟩ := readChars?_space (d := .host) hspace
    rw [Json.read, readAs, he] at h
    cases h
  rw [decodeRecords, if_neg hstrip, h]

variable (engine : Variant)

/-- The place that a warning names. -/
def warnedPlace? (r : Log.Record) : Option Int :=
  match Mapping.get? "details" r.fields with
  | some (.dict es) => (presentField? "index" es).bind position?
  | _ => none

theorem harvest_malformed (policy : Policy) {index : Nat} {record : Json} (rs : List Json)
    (hrecord : record.isMalformed = true) :
    ∃ reason, harvest engine policy index (record :: rs) =
      match policy with
      | .fail => .error (.malformedRecord index record.toValue reason)
      | .skip => (harvest engine .skip (index + 1) rs).map
          (Harvest.append ⟨[], 1, [skipWarning engine index reason]⟩) := by
  simp only [isMalformed, Bool.and_eq_true, Bool.not_eq_true', Option.isNone_iff_eq_none] at hrecord
  have hparse := toOption_parseRecord index record
  rw [hrecord.2] at hparse
  cases h : parseRecord index record.toValue with
  | ok y => rw [h] at hparse; cases hparse
  | error fault =>
    obtain ⟨reason, rfl⟩ := parseRecord_fault h
    refine ⟨reason, ?_⟩
    rw [harvest]
    · rw [h]
      cases policy with
      | fail => rfl
      | skip => cases harvest engine .skip (index + 1) rs <;> rfl
    · rintro rfl
      cases hrecord.1

variable {engine}

/-- A record that is not malformed adds the finding that it has. -/
theorem harvest_step (policy : Policy) {index : Nat} {record : Json} (rs : List Json)
    (hrecord : record.isMalformed = false) :
    harvest engine policy index (record :: rs) =
      (harvest engine policy (index + 1) rs).map
        (Harvest.append ⟨record.diagnostic?.toList, 0, []⟩) := by
  cases hnull : record.isNull with
  | true =>
    obtain rfl : record = .null := by cases record <;> first | rfl | cases hnull
    rw [harvest_null]
    cases harvest engine policy (index + 1) rs with
    | ok h => simp [Except.map, Harvest.append, diagnostic?_eq, finding?, said?]
    | error fault => rfl
  | false =>
    have hparse := toOption_parseRecord index record
    rw [harvest]
    · cases h : parseRecord index record.toValue with
      | ok d =>
        rw [h] at hparse
        rw [← hparse]
        cases harvest engine policy (index + 1) rs <;> rfl
      | error fault =>
        rw [h] at hparse
        simp [isMalformed, hnull, ← hparse, Except.toOption] at hrecord
    · rintro rfl
      cases hnull

/-- Each malformed record that is left out is logged with its place. -/
theorem harvest_warnings (records : List Json) : ∀ (start : Nat) {h : Harvest},
    harvest engine .skip start records = .ok h →
      h.journal.map warnedPlace? =
          (malformedFrom start records).map (fun (i : Nat) => some (i : Int)) ∧
        ∀ r ∈ h.journal, r.level = Log.warning := by
  induction records with
  | nil =>
    intro start h hh
    cases hh
    exact ⟨rfl, by simp [Harvest.none]⟩
  | cons record records ih =>
    intro start h hh
    obtain ⟨journal, hrest⟩ := harvest_skip engine records (start + 1)
    obtain ⟨hplaces, hlevels⟩ := ih (start + 1) hrest
    rw [malformedFrom_cons]
    cases hrecord : record.isMalformed with
    | false =>
      rw [harvest_step .skip records hrecord, hrest] at hh
      cases hh
      exact ⟨hplaces, hlevels⟩
    | true =>
      obtain ⟨reason, hstep⟩ := harvest_malformed engine .skip records hrecord
      rw [hstep, hrest] at hh
      cases hh
      exact ⟨congrArg _ hplaces, List.forall_mem_cons.2 ⟨rfl, hlevels⟩⟩

/-- The first malformed record ends a collection that leaves none out. -/
theorem harvest_fail (records : List Json) : ∀ (start : Nat) {i : Nat},
    (malformedFrom start records).head? = some i →
      ∃ k record reason, i = start + k ∧ records[k]? = some record ∧
        harvest engine .fail start records =
          .error (.malformedRecord i record.toValue reason) := by
  induction records with
  | nil => intro start i h; cases h
  | cons record records ih =>
    intro start i h
    rw [malformedFrom_cons] at h
    cases hrecord : record.isMalformed with
    | false =>
      rw [hrecord] at h
      obtain ⟨k, r, reason, rfl, hget, hrest⟩ := ih (start + 1) h
      refine ⟨k + 1, r, reason, by omega, hget, ?_⟩
      rw [harvest_step .fail records hrecord, hrest]
      rfl
    | true =>
      rw [hrecord] at h
      cases h
      obtain ⟨reason, hstep⟩ := harvest_malformed engine .fail records hrecord
      exact ⟨0, record, reason, rfl, rfl, hstep⟩

theorem length_malformedFrom (records : List Json) : ∀ start,
    (malformedFrom start records).length = records.countP isMalformed := by
  induction records with
  | nil => intro start; rfl
  | cons record records ih =>
    intro start
    rw [malformedFrom_cons, List.countP_cons, ← ih (start + 1)]
    split <;> simp [*]

theorem malformedFrom_eq_nil {records : List Json} {start : Nat}
    (h : malformedFrom start records = []) : ∀ r ∈ records, r.isMalformed = false := by
  have hcount := length_malformedFrom records start
  rw [h, List.length_nil, eq_comm, List.countP_eq_zero] at hcount
  exact fun r hr => by simpa using hcount r hr

section OneText

variable {payload : String} {records : List Json} (hdecode : decodeRecords payload = .ok records)
include hdecode

/-- Leaving malformed records out. -/
theorem collect_skip (engine : Variant) : ∃ journal,
    ((new engine .skip).receive payload).collect =
      (.ok (records.filterMap finding?),
        ⟨engine, .skip, [payload], (malformedFrom 0 records).length⟩, journal) ∧
      journal.map warnedPlace? = (malformedFrom 0 records).map (fun (i : Nat) => some (i : Int)) ∧
      ∀ r ∈ journal, r.level = Log.warning := by
  obtain ⟨journal, hskip⟩ := harvest_skip engine records 0
  obtain ⟨hplaces, hlevels⟩ := harvest_warnings records 0 hskip
  rw [filterMap_diagnostic?, ← length_malformedFrom records 0] at hskip
  exact ⟨journal, collect_one hdecode hskip, hplaces, hlevels⟩

/-- Without malformed records. -/
theorem collect_fail_clean (engine : Variant) (hclean : malformedFrom 0 records = []) :
    ((new engine .fail).receive payload).collect =
      (.ok (records.filterMap finding?), ⟨engine, .fail, [payload], 0⟩, []) := by
  have hharvest := harvest_clean engine .fail records 0 (malformedFrom_eq_nil hclean)
  rw [filterMap_diagnostic?] at hharvest
  exact collect_one hdecode hharvest

/-- With a malformed record, of which there is a first. -/
theorem collect_fail_first (engine : Variant) {i : Nat}
    (hfirst : (malformedFrom 0 records).head? = some i) :
    ∃ record reason, records[i]? = some record ∧
      (((new engine .fail).receive payload).collect).1 =
        .error (.malformedRecord i record.toValue reason) := by
  obtain ⟨k, record, reason, hk, hget, hharvest⟩ := @harvest_fail engine records 0 i hfirst
  obtain rfl : i = k := by omega
  have hgather : gather engine .fail [payload] =
      (.none, some (.malformedRecord i record.toValue reason)) := by
    simp [gather, hdecode, hharvest]
  exact ⟨record, reason, hget, by simp [collect, new, receive, hgather]⟩

end OneText

/-- The two policies on a text that is a list of records. Leaving malformed records out, the
findings are those that the other records show, in their order; the malformed records are counted,
and each of them is logged once, with its place in the list. Nulls are passed over but have places.
Without leaving any out, the first malformed record ends the collection, and if there is none, the
findings are the same. -/
theorem policies_agree (engine : Variant) (payload : String) (records : List Json)
    (h : Json.read payload = .ok (.arr records)) :
    let places := malformedFrom 0 records
    let lenient := ((new engine .skip).receive payload).collect
    let strict := ((new engine .fail).receive payload).collect
    (lenient.1 = .ok (records.filterMap finding?) ∧ lenient.2.1.skipped = places.length ∧
      lenient.2.2.map warnedPlace? = places.map (fun (i : Nat) => some (i : Int)) ∧
      ∀ r ∈ lenient.2.2, r.level = Log.warning) ∧
    (places.Pairwise (· < ·) ∧ ∀ i, i ∈ places ↔ ∃ record, records[i]? = some record ∧
      record.isNull = false ∧ record.finding? = none) ∧
    (∀ i : Nat, (∃ record reason, records[i]? = some record ∧
      strict.1 = .error (.malformedRecord i record.toValue reason)) ↔ places.head? = some i) ∧
    (places = [] → strict.1 = lenient.1 ∧ strict.2.1.skipped = 0) := by
  have hdecode := decodeRecords_arr h
  obtain ⟨journal, hskip, hplaces, hlevels⟩ := collect_skip hdecode engine
  intro places lenient strict
  have hlenient : lenient = _ := hskip
  refine ⟨?_, ⟨malformedFrom_increasing records 0, ?_⟩, ?_, ?_⟩
  · rw [hlenient]
    exact ⟨rfl, rfl, hplaces, hlevels⟩
  · intro i
    rw [mem_malformedFrom]
    simp
  · intro i
    cases hhead : places.head? with
    | none =>
      have hclean := collect_fail_clean hdecode engine (List.head?_eq_none_iff.1 hhead)
      simp [strict, hclean]
    | some j =>
      obtain ⟨record, reason, hget, hfault⟩ := collect_fail_first hdecode engine hhead
      have hfirst : strict.1 = _ := hfault
      rw [hfirst, Option.some_inj]
      constructor
      · rintro ⟨_, _, _, heq⟩
        simp only [Except.error.injEq, Fault.malformedRecord.injEq] at heq
        omega
      · rintro rfl
        exact ⟨record, reason, hget, rfl⟩
  · intro hclean
    rw [hlenient]
    simp [strict, collect_fail_clean hdecode engine hclean]

/-- A null, a record that is no object, one that shows a finding, and one with a truth value for a
position. -/
def mixedRecords : Datum :=
  .arr [.null, .whole 7,
    .obj [("line", .whole 1), ("character", .str " 2"), ("reason", .str "r")],
    .obj [("line", .bool true), ("character", .whole 0), ("reason", .str "s")]]

theorem policies_agree_mixed :
    ((((new .jshint .skip).receive mixedRecords.stringify).collect).1 = .ok [⟨1, 2, "r", ""⟩] ∧
      (((new .jshint .skip).receive mixedRecords.stringify).collect).2.1.skipped = 2) ∧
    ∃ record reason, (((new .jshint .fail).receive mixedRecords.stringify).collect).1 =
      .error (.malformedRecord 1 record reason) := by
  have hfits : mixedRecords.Fits := by
    simp [mixedRecords, Datum.Fits, Datum.AllFit, Datum.FieldsFit]
    decide
  have hread : Json.read mixedRecords.stringify = .ok (.arr _) := Datum.read_stringify hfits
  obtain ⟨⟨hfindings, hskipped, _⟩, _, hfirst, _⟩ := policies_agree .jshint _ _ hread
  refine ⟨⟨hfindings.trans ?_, hskipped.trans ?_⟩, ?_⟩
  · rfl
  · rfl
  · obtain ⟨record, reason, _, hfault⟩ := (hfirst 1).2 rfl
    exact ⟨record.toValue, reason, hfault⟩

end Collector
end ScriptLint
