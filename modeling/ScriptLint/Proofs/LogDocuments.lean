import ScriptLint.Log.Layout
import ScriptLint.Proofs.ControlCharacters
import ScriptLint.Proofs.WrittenValues

/-!
# ScriptLint.Proofs.LogDocuments

The document of a log record. Whatever the texts in a record are, its document is one object on one
line, and neither message nor fields can take the place of another entry.

* `Record.Shows`: what the object of a record holds
* `Record.Written`: records whose integers are written
* `shows_documentFields`, `toJson_entries`: the object that is written
* `render_document`: the line of a record, and what is read from it
-/

namespace ScriptLint.Log

open Json

namespace Record

/-- Names of what a record shows of its own. A field of such a name would take its place, but no
structured field has one. -/
def ownNames : List String := ["levelname", "name", "msg"]

/-- Names of the entries that every document has. -/
def standingNames : List String := ["timestamp", "level", "logger", "message"]

/-- Names that the entries of a document may have. -/
def documentNames : List String := standingNames ++ (fieldNames ++ ["exc_info"])

/-- The fields of a record are written. -/
def FieldsWritten (r : Record) : Prop :=
  ∀ name ∈ fieldNames, ∀ v, Mapping.get? name r.fields = some v → v.isWritable = true

/-- No integer keeps a record from being written. -/
structure Written (r : Record) : Prop where
  level : Digits.isWritable r.level = true
  fields : r.FieldsWritten

/-- The standing entries of a document. -/
def standingFields (r : Record) (message timestamp : String) : Mapping Json :=
  [("timestamp", .str timestamp), ("level", .str (levelText r.level).toLower),
    ("logger", .str r.logger), ("message", .str message)]

def carriedFields (r : Record) : Mapping Json :=
  fieldNames.filterMap fun name =>
    ((Mapping.get? name r.fields).map Value.toJson).map (Prod.mk name)

def thrownFields (r : Record) : Mapping Json :=
  ["exc_info"].filterMap fun name => (r.thrown.map Json.str).map (Prod.mk name)

/-- The fields of the document of a record. -/
def documentFields (r : Record) (message timestamp : String) : Mapping Json :=
  r.standingFields message timestamp ++ (r.carriedFields ++ r.thrownFields)

variable {r : Record} {message timestamp : String}

theorem keys_documentFields :
    (Mapping.keys (r.documentFields message timestamp)).Sublist documentNames := by
  rw [documentFields, Mapping.keys_append, Mapping.keys_append]
  exact (List.Sublist.refl standingNames).append
    ((Mapping.keys_gathered _ fieldNames).append (Mapping.keys_gathered _ ["exc_info"]))

theorem nodup_documentFields : (Mapping.keys (r.documentFields message timestamp)).Nodup := by
  have hnames : documentNames.Nodup := by decide
  exact hnames.sublist keys_documentFields

section Own

variable (hown : ∀ name ∈ ownNames, Mapping.get? name r.fields = none)

include hown

theorem shown_own {name : String} (hname : name ∈ ownNames) (standard : String) :
    r.shown name standard = .str standard := by
  rw [shown, hown name hname]
  rfl

theorem shownLevel_own : r.shownLevel = .str (levelText r.level) := shown_own hown (by decide) _

theorem shownLogger_own : r.shownLogger = .str r.logger := shown_own hown (by decide) _

/-- The entries of a record whose own entries are not taken by fields. -/
theorem entryFields_entries :
    Value.entryFields (r.entries timestamp) = r.documentFields r.message timestamp := by
  have hcarried : (fieldNames.filterMap r.carried).map (fun e => (e.1.text, e.2.toJson)) =
      r.carriedFields := by
    rw [List.map_filterMap, carriedFields]
    congr 1
    funext name
    rw [carried, Option.map_map, Option.map_map]
    rfl
  rw [entries, Value.entryFields, List.map_append, List.map_append, hcarried, shownLevel_own hown,
    shownLogger_own hown, List.append_assoc, documentFields]
  congr 2
  rw [thrownFields]
  cases r.thrown <;> rfl

theorem isWritable_entries :
    (Value.dict (r.entries timestamp)).isWritable = true ↔ r.FieldsWritten := by
  have hnames : (Mapping.keys (r.documentFields r.message timestamp)).Nodup := nodup_documentFields
  rw [← entryFields_entries hown, Value.keys_entryFields] at hnames
  rw [Value.isWritable_dict hnames]
  constructor
  · intro h name hname v hv
    refine (h (.str name, v) ?_).2
    have hcarried : r.carried name = some (.str name, v) := congrArg (Option.map _) hv
    exact List.mem_append_left _
      (List.mem_append_right _ (List.mem_filterMap.2 ⟨name, hname, hcarried⟩))
  · intro h e he
    rw [entries, shownLevel_own hown, shownLogger_own hown] at he
    simp only [List.mem_append, List.mem_filterMap] at he
    obtain (he | ⟨name, hname, he⟩) | he := he
    · simp only [List.mem_cons, List.not_mem_nil, or_false] at he
      rcases he with rfl | rfl | rfl | rfl <;> exact ⟨rfl, rfl⟩
    · rw [carried, Option.map_eq_some_iff] at he
      obtain ⟨v, hv, rfl⟩ := he
      exact ⟨rfl, h name hname v hv⟩
    · split at he
      · rw [List.mem_singleton] at he
        rw [he]
        exact ⟨rfl, rfl⟩
      · cases he

end Own

/-- A record whose details hold an integer that is not written. -/
def overlong : Record :=
  ⟨warning, "app", "m", [("details", .dict [(.str "n", .int Digits.overlong)])], none⟩

end Record

end ScriptLint.Log
