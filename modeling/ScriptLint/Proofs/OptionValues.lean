import ScriptLint.Options.Assignment
import ScriptLint.Proofs.Documents
import ScriptLint.Proofs.FiniteNumbers

/-!
# ScriptLint.Proofs.OptionValues

What the text of an option stands for. The reader of the library takes words for numbers that are
none, rounds great numbers to infinity and refuses long integers, so a text need not stand for what
the standard says, and a script need not take what the text stands for. All other texts are taken as
the standard says.

* `Deliverable`: values that a script takes
* `TakenAsStandard`: texts that stand for what the standard says
* `readValue_taken`: which texts these are, and what any text stands for
* `nan_not_taken`: a word that is no document of the standard
-/

namespace ScriptLint.Options

open Json Engine

/-- A value is handed over as a document of the standard, and a script reads this document. -/
def Deliverable (v : Value) : Prop :=
  ∃ text j, v.encode = .ok text ∧ Document .script text.toList j ∧
    Datum.parse text = .ok (Datum.ofJson j)

/-- A text that is a document of the standard stands for the value of the document, any other text
for itself, and what it stands for reaches a script. -/
structure TakenAsStandard (raw : String) : Prop where
  decoded : ∀ j, Document .script raw.toList j → readValue raw = j.toValue
  verbatim : (∀ j, ¬Document .script raw.toList j) → readValue raw = .str raw
  deliverable : Deliverable (readValue raw)

variable {raw : String} {j : Json}

theorem deliverable_iff (v : Value) :
    Deliverable v ↔ v.isWritable = true ∧ v.toJson.isFinite = true := by
  rw [← isOk_parse_encode, isOk_iff]
  constructor
  · rintro ⟨text, j, hencode, _, hj⟩
    obtain ⟨hwritten, rfl⟩ := Value.encode_eq_ok_iff.1 hencode
    exact ⟨hwritten, _, hj⟩
  · rintro ⟨hwritten, x, hx⟩
    obtain ⟨j, hj⟩ : ∃ j, readAs .script v.toJson.encode = .ok j := by
      unfold Datum.parse at hx
      split at hx
      · exact ⟨_, by assumption⟩
      · cases hx
    refine ⟨_, j, Value.encode_eq_ok_iff.2 ⟨hwritten, rfl⟩, readAs_eq_ok_iff.1 hj, ?_⟩
    rw [Datum.parse, hj]

theorem readValue_document (h : Document .host raw.toList j) : readValue raw = j.toValue := by
  rw [readValue, Json.read, readAs_eq_ok_iff.2 h]

theorem readValue_other (h : ∀ j, ¬Document .host raw.toList j) : readValue raw = .str raw := by
  rw [readValue]
  split
  · rename_i j hj
    exact absurd (readAs_eq_ok_iff.1 hj) (h j)
  · rfl

/-- Every dialect has the same strings. -/
theorem document_str {d d' : Dialect} {cs : List Char} {s : String} (h : Document d cs (.str s)) :
    Document d' cs (.str s) := by
  obtain ⟨g, body, g', hg, hg', hcs, hspelled⟩ := h
  refine ⟨g, body, g', hg, hg', hcs, ?_⟩
  cases hspelled with
  | str hs => exact .str hs

/-- What a text stands for reaches a script unless the text is a document with a number that is none
or too great. -/
theorem deliverable_readValue :
    Deliverable (readValue raw) ↔ ∀ j, Document .host raw.toList j → j.isFinite = true := by
  rw [deliverable_iff]
  by_cases h : ∃ j, Document .host raw.toList j
  · obtain ⟨j, hj⟩ := h
    rw [readValue_document hj, hj.toJson_toValue]
    constructor
    · rintro ⟨_, hfinite⟩ j' hj'
      rwa [hj'.eq hj]
    · exact fun hall => ⟨hj.isWritable_toValue, hall j hj⟩
  · rw [readValue_other fun j hj => h ⟨j, hj⟩]
    exact ⟨fun _ j hj => absurd ⟨j, hj⟩ h, fun _ => ⟨rfl, rfl⟩⟩

/-- Documents with one value are one document, whatever they were read from. -/
theorem document_unique {d d' : Dialect} {cs cs' : List Char} {j' : Json} (h : Document d cs j)
    (h' : Document d' cs' j') (hvalue : j.toValue = j'.toValue) : j = j' := by
  rw [← h.toJson_toValue, hvalue, h'.toJson_toValue]

theorem document_verbatim {d d' : Dialect} {cs : List Char} {s : String} (h : Document d cs j)
    (hvalue : j.toValue = .str s) : Document d' cs j := by
  have hj : j = .str s := by
    rw [← h.toJson_toValue, hvalue]
    rfl
  rw [hj] at h ⊢
  exact document_str h

/-- A text that is taken as the standard says is a document to both readers or to none. -/
theorem TakenAsStandard.host_iff (h : TakenAsStandard raw) :
    Document .host raw.toList j ↔ Document .script raw.toList j := by
  constructor
  · intro hj
    have hvalue := readValue_document hj
    by_cases hscript : ∃ j', Document .script raw.toList j'
    · obtain ⟨j', hj'⟩ := hscript
      rwa [document_unique hj hj' (hvalue.symm.trans (h.decoded j' hj'))]
    · have hraw := h.verbatim fun j' hj' => hscript ⟨j', hj'⟩
      exact document_verbatim hj (hvalue.symm.trans hraw)
  · intro hj
    have hvalue := h.decoded j hj
    by_cases hhost : ∃ j', Document .host raw.toList j'
    · obtain ⟨j', hj'⟩ := hhost
      rwa [document_unique hj hj' (hvalue.symm.trans (readValue_document hj'))]
    · have hraw := readValue_other fun j' hj' => hhost ⟨j', hj'⟩
      exact document_verbatim hj (hvalue.symm.trans hraw)

theorem takenAsStandard_iff :
    TakenAsStandard raw ↔
      ∀ j, Document .host raw.toList j ∨ Document .script raw.toList j →
        Document .host raw.toList j ∧ Document .script raw.toList j ∧ j.isFinite = true := by
  constructor
  · intro h j hj
    have hhost : Document .host raw.toList j := hj.elim id h.host_iff.2
    exact ⟨hhost, h.host_iff.1 hhost, deliverable_readValue.1 h.deliverable j hhost⟩
  · intro h
    refine ⟨fun j hj => readValue_document (h j (.inr hj)).1, fun hnone => ?_, ?_⟩
    · exact readValue_other fun j hj => hnone j (h j (.inl hj)).2.1
    · exact deliverable_readValue.2 fun j hj => (h j (.inl hj)).2.2

/-- The dialect without words for numbers and without long integers. -/
def common : Dialect := ⟨false, some Digits.limit⟩

theorem common_host : Narrower common .host where
  special h := by cases h
  digits _ h := h

theorem common_script : Narrower common .script where
  special h := h
  digits _ h := by cases h

/-- Texts are taken as the standard says, unless one reader takes them and the other does not, or a
number in them is too great. What is common to both readers is one document to both; a text that
the library's reader refuses stands for itself. -/
theorem readValue_taken (raw : String) :
    (TakenAsStandard raw ↔
      ∀ j, Document .host raw.toList j ∨ Document .script raw.toList j →
        Document .host raw.toList j ∧ Document .script raw.toList j ∧ j.isFinite = true) ∧
    (∀ j, Document common raw.toList j →
      readValue raw = j.toValue ∧ (TakenAsStandard raw ↔ j.isFinite = true)) ∧
    (∀ j, Document .host raw.toList j → readValue raw = j.toValue) ∧
    ((∀ j, ¬Document .host raw.toList j) → readValue raw = .str raw) ∧
    (Deliverable (readValue raw) ↔ ∀ j, Document .host raw.toList j → j.isFinite = true) := by
  refine ⟨takenAsStandard_iff, ?_, fun j => readValue_document, readValue_other,
    deliverable_readValue⟩
  intro j hj
  have hhost := hj.mono common_host
  have hscript := hj.mono common_script
  refine ⟨readValue_document hhost, takenAsStandard_iff.trans ?_⟩
  constructor
  · intro h
    exact (h j (.inl hhost)).2.2
  · intro hfinite j' hj'
    have heq : j' = j := hj'.elim (fun hj' => hj'.eq hhost) fun hj' => hj'.eq hscript
    rw [heq]
    exact ⟨hhost, hscript, hfinite⟩

/-- The word for a number that is none is no document of the standard, but it does not stand for
itself, and a script does not take what it stands for. -/
theorem nan_not_taken :
    ¬TakenAsStandard "NaN" ∧ (∀ j, ¬Document .script "NaN".toList j) ∧
      readValue "NaN" = .float .nan ∧ (readValue "NaN").encode = .ok "NaN" := by
  have hscript : ∀ j, ¬Document .script "NaN".toList j := by
    intro j hj
    cases readAs_eq_ok_iff.2 hj
  have hhost : Document .host "NaN".toList (.float .nan) :=
    ⟨[], _, [], gap_nil, gap_nil, rfl, .nan rfl⟩
  have hvalue : readValue "NaN" = .float .nan := readValue_document hhost
  refine ⟨fun h => hscript _ (h.host_iff.1 hhost), hscript, hvalue, ?_⟩
  rw [hvalue]
  rfl

end ScriptLint.Options
