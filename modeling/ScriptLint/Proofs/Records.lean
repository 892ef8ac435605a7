import ScriptLint.Collector
import ScriptLint.Proofs.Mappings
import ScriptLint.Proofs.Trimming
import ScriptLint.Proofs.Writing

/-!
# ScriptLint.Proofs.Records

What the collector makes of the document that a script wrote.

* `Json.isRecord`: a record with all that a finding needs
* `Json.diagnostic?`: the finding of a record
* `decodeRecords_stringify`: the records of a written document
* `harvest_skip`, `harvest_clean`: findings are those of the records that have one, in order
-/

namespace ScriptLint

open Json

theorem strip_ne_empty {cs : List Char} (h : Starts cs) : Text.strip (String.ofList cs) ≠ "" := by
  obtain ⟨c, cs', rfl, hc⟩ := h
  intro heq
  have hchars := congrArg String.toList heq
  rw [Text.strip, String.toList_ofList, String.toList_ofList] at hchars
  exact Text.trim_ne_nil (opens_not_space hc) hchars

/-- The records of a document that a script wrote. -/
theorem decodeRecords_stringify {x : Datum} (h : x.Fits) :
    decodeRecords x.stringify =
      match x.document with
      | .null => .ok []
      | .arr records => .ok records
      | j => .error (.notAList j.kindName) := by
  have hstrip : Text.strip x.stringify ≠ "" := strip_ne_empty (Datum.reads_write x h).starts
  rw [decodeRecords, if_neg hstrip, Datum.read_stringify h]
  cases x.document <;> rfl

namespace Json

/-- A document that spells a position. -/
def isPosition : Json → Bool
  | .int _ => true
  | .float x => x.toInt?.isSome
  | .str s => (Number.integer? (Text.strip s)).isSome
  | _ => false

def isNull : Json → Bool
  | .null => true
  | _ => false

/-- A record with all that a finding needs: line and character as positions, and a reason. -/
def isRecord : Json → Bool
  | .obj fs =>
    (Mapping.get? "line" fs).any isPosition && (Mapping.get? "character" fs).any isPosition
      && (Mapping.get? "reason" fs).any (!isNull ·)
  | _ => false

/-- The finding of a record. -/
def diagnostic? (record : Json) : Option Diagnostic := (parseRecord 0 record.toValue).toOption

/-- A record that is left out, and not for being null. -/
def isMalformed (record : Json) : Bool := !record.isNull && record.diagnostic?.isNone

end Json

section Fields

theorem sameKey_str (n name : String) : (Value.str n).sameKey (.str name) = (n == name) := rfl

/-- A field of a record is there unless it is null. -/
def valueOf? : Json → Option Value
  | .null => none
  | j => some j.toValue

theorem presentField?_fieldValues (name : String) (fs : List (String × Json)) :
    presentField? name (Json.fieldValues fs) = (Mapping.get? name fs).bind valueOf? := by
  induction fs with
  | nil => rfl
  | cons e rest ih =>
    obtain ⟨n, x⟩ := e
    rw [Json.fieldValues, Mapping.get?]
    unfold presentField?
    rw [sameKey_str]
    by_cases h : n = name
    · rw [if_pos (beq_iff_eq.2 h), if_pos h]
      cases x <;> rfl
    · rw [if_neg (by simpa using h), if_neg h, ih]

theorem isSome_position? (j : Json) : (position? j.toValue).isSome = j.isPosition := by
  cases j <;> rfl

theorem any_isPosition {j? : Option Json} :
    j?.any isPosition = ((j?.bind valueOf?).bind position?).isSome := by
  cases j? with
  | none => rfl
  | some j =>
    rw [Option.any_some, ← isSome_position?, Option.bind_some]
    cases j with
    | null => rfl
    | _ => simp only [valueOf?, Option.bind_some]

theorem any_present {j? : Option Json} : j?.any (!isNull ·) = (j?.bind valueOf?).isSome := by
  cases j? with
  | none => rfl
  | some j => cases j <;> rfl

/-- A record has a finding exactly if it has all that a finding needs. -/
theorem isOk_parseRecord (index : Int) (record : Json) :
    (parseRecord index record.toValue).isOk = record.isRecord := by
  cases record with
  | obj fs =>
    -- both sides look up the same three fields; they are compared field by field
    rw [isRecord, any_isPosition, any_isPosition, any_present, toValue, parseRecord]
    rw [presentField?_fieldValues, presentField?_fieldValues, presentField?_fieldValues]
    cases (Mapping.get? "line" fs).bind valueOf? with
    | none => rfl
    | some line =>
      cases (Mapping.get? "character" fs).bind valueOf? with
      | none => simp [Except.isOk, Except.toBool]
      | some character =>
        cases (Mapping.get? "reason" fs).bind valueOf? with
        | none => simp [Except.isOk, Except.toBool]
        | some reason =>
          simp only [Option.bind_some]
          cases position? line with
          | none => rfl
          | some l =>
            cases position? character with
            | none => rfl
            | some c => rfl
  | _ => rfl

/-- The finding of a record does not depend on its place in the list. -/
theorem parseRecord_ok {index : Int} {record : Value} {x : Diagnostic}
    (h : parseRecord index record = .ok x) (other : Int) : parseRecord other record = .ok x := by
  cases record with
  | dict es =>
    rw [parseRecord] at h ⊢
    generalize presentField? "line" es = line at h ⊢
    generalize presentField? "character" es = character at h ⊢
    generalize presentField? "reason" es = reason at h ⊢
    cases line with
    | none => cases h
    | some line =>
      cases character with
      | none => cases h
      | some character =>
        cases reason with
        | none => cases h
        | some reason =>
          simp only at h ⊢
          cases hl : position? line with
          | none => rw [hl] at h; cases h
          | some l =>
            cases hc : position? character with
            | none => rw [hl, hc] at h; cases h
            | some c => rw [hl, hc] at h; exact h
  | _ => cases h

end Fields

theorem toOption_parseRecord (index : Int) (record : Json) :
    (parseRecord index record.toValue).toOption = record.diagnostic? := by
  cases h : parseRecord index record.toValue with
  | ok x => rw [diagnostic?, parseRecord_ok h 0]
  | error e =>
    have hok := isOk_parseRecord index record
    rw [← isOk_parseRecord 0 record, h] at hok
    rw [diagnostic?]
    cases h0 : parseRecord 0 record.toValue with
    | ok x => rw [h0] at hok; cases hok
    | error e => rfl

theorem isSome_diagnostic? (record : Json) : record.diagnostic?.isSome = record.isRecord := by
  rw [← isOk_parseRecord 0 record, diagnostic?]
  cases parseRecord 0 record.toValue <;> rfl

theorem isMalformed_of_diagnostic? {record : Json} {x : Diagnostic}
    (h : record.diagnostic? = some x) : record.isMalformed = false := by
  rw [isMalformed, h, Option.isNone_some, Bool.and_false]

namespace Collector

variable (engine : Variant)

theorem harvest_null (policy : Policy) (index : Nat) (rs : List Json) :
    harvest engine policy index (.null :: rs) = harvest engine policy (index + 1) rs := by
  rw [harvest]

theorem harvest_ok {policy : Policy} {index : Nat} {record : Json} {rs : List Json}
    {x : Diagnostic} {h : Harvest} (hnull : record.isNull = false)
    (hrecord : record.diagnostic? = some x)
    (hrest : harvest engine policy (index + 1) rs = .ok h) :
    harvest engine policy index (record :: rs) = .ok (Harvest.append ⟨[x], 0, []⟩ h) := by
  have hparse := toOption_parseRecord index record
  rw [hrecord] at hparse
  rw [harvest]
  · cases h : parseRecord index record.toValue with
    | ok y => rw [h] at hparse; cases hparse; simp only [hrest]
    | error e => rw [h] at hparse; cases hparse
  · rintro rfl
    cases hnull

theorem harvest_left_out {index : Nat} {record : Json} {rs : List Json} {h : Harvest}
    (hnull : record.isNull = false) (hrecord : record.diagnostic? = none)
    (hrest : harvest engine .skip (index + 1) rs = .ok h) :
    ∃ warning, harvest engine .skip index (record :: rs) =
      .ok (Harvest.append ⟨[], 1, [warning]⟩ h) := by
  have hparse := toOption_parseRecord index record
  rw [hrecord] at hparse
  rw [harvest]
  · cases h : parseRecord index record.toValue with
    | ok y => rw [h] at hparse; cases hparse
    | error e =>
      simp only [hrest]
      exact ⟨_, rfl⟩
  · rintro rfl
    cases hnull

/-- Leaving malformed records out, the findings are those of the other records, in order. -/
theorem harvest_skip (rs : List Json) : ∀ index,
    ∃ journal, harvest engine .skip index rs =
      .ok ⟨rs.filterMap diagnostic?, rs.countP isMalformed, journal⟩ := by
  induction rs with
  | nil =>
    intro index
    exact ⟨[], rfl⟩
  | cons record rs ih =>
    intro index
    obtain ⟨journal, hrest⟩ := ih (index + 1)
    cases hnull : record.isNull with
    | true =>
      obtain rfl : record = .null := by cases record <;> first | rfl | cases hnull
      exact ⟨journal, (harvest_null engine .skip index rs).trans hrest⟩
    | false =>
      cases hrecord : record.diagnostic? with
      | some x =>
        refine ⟨journal, (harvest_ok engine hnull hrecord hrest).trans ?_⟩
        simp [Harvest.append, hrecord, isMalformed]
      | none =>
        obtain ⟨warning, h⟩ := harvest_left_out engine hnull hrecord hrest
        refine ⟨warning :: journal, h.trans ?_⟩
        simp [Harvest.append, hrecord, hnull, isMalformed, Nat.add_comm]

/-- Where no record is malformed, nothing is left out under either policy. -/
theorem harvest_clean (policy : Policy) (rs : List Json) : ∀ index,
    (∀ r ∈ rs, isMalformed r = false) →
    harvest engine policy index rs = .ok ⟨rs.filterMap diagnostic?, 0, []⟩ := by
  induction rs with
  | nil =>
    intro index _
    rfl
  | cons record rs ih =>
    intro index h
    have hrest := ih (index + 1) fun r hr => h r (List.mem_cons_of_mem _ hr)
    have hrecord := h record List.mem_cons_self
    cases hnull : record.isNull with
    | true =>
      obtain rfl : record = .null := by cases record <;> first | rfl | cases hnull
      exact (harvest_null engine policy index rs).trans hrest
    | false =>
      cases hd : record.diagnostic? with
      | some x =>
        refine (harvest_ok engine hnull hd hrest).trans ?_
        simp [Harvest.append, hd]
      | none => simp [isMalformed, hnull, hd] at hrecord

variable {engine}

/-- Collecting one text. -/
theorem collect_one {policy : Policy} {payload : String} {records : List Json} {h : Harvest}
    (hdecode : decodeRecords payload = .ok records)
    (hharvest : harvest engine policy 0 records = .ok h) :
    ((Collector.new engine policy).receive payload).collect =
      (.ok h.diagnostics, ⟨engine, policy, [payload], h.skipped⟩, h.journal) := by
  have hgather : gather engine policy [payload] = (h, none) := by
    simp [gather, hdecode, hharvest, Harvest.append, Harvest.none]
  simp [collect, new, receive, hgather]

end Collector

end ScriptLint
