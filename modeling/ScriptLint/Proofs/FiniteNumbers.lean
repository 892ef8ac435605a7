import ScriptLint.Proofs.HandOver

/-!
# ScriptLint.Proofs.FiniteNumbers

Special numbers and integers that are not written are what stops a hand-over, and nothing else does.

* `Json.isFinite`, `Value.isFinite`: no number in a document or value is special
* `Json.isOk_reread_script`: a script reads the written form exactly of such documents
* `Engine.isOk_handOver`: a hand-over succeeds exactly for options of such values that are written
-/

namespace ScriptLint

theorem isOk_map {ε α β : Type} (f : α → β) (r : Except ε α) : (r.map f).isOk = r.isOk := by
  cases r with
  | ok a => rfl
  | error e => rfl

theorem isOk_iff {ε α : Type} {r : Except ε α} : r.isOk = true ↔ ∃ a, r = .ok a := by
  cases r with
  | ok a => simp [Except.isOk, Except.toBool]
  | error e => simp [Except.isOk, Except.toBool]

theorem isOk_bind_map {ε α β γ : Type} (f : α → β → γ) (r : Except ε α) (r' : Except ε β) :
    (r.bind fun a => r'.map (f a)).isOk = (r.isOk && r'.isOk) := by
  cases r with
  | ok a =>
    cases r' with
    | ok b => rfl
    | error e => rfl
  | error e => rfl

namespace Json

mutual

/-- No number of a document is special. -/
def isFinite : Json → Bool
  | .float x => x.isFinite
  | .arr xs => itemsFinite xs
  | .obj fs => fieldsFinite fs
  | _ => true

def itemsFinite : List Json → Bool
  | [] => true
  | x :: xs => isFinite x && itemsFinite xs

def fieldsFinite : List (String × Json) → Bool
  | [] => true
  | (_, x) :: fs => isFinite x && fieldsFinite fs

end

mutual

/-- A script reads what is written of a document unless a number in it is special. -/
theorem isOk_reread_script : ∀ j : Json, (reread .script j).isOk = isFinite j
  | .null => rfl
  | .bool _ => rfl
  | .int _ => rfl
  | .float .nan => rfl
  | .float (.infinite true) => rfl
  | .float (.infinite false) => rfl
  | .float (.finite ..) => rfl
  | .str _ => rfl
  | .arr xs => by
    rw [reread, isFinite, isOk_map]
    exact isOk_rereadItems_script xs
  | .obj fs => by
    rw [reread, isFinite, isOk_map]
    exact isOk_rereadFields_script fs

theorem isOk_rereadItems_script : ∀ xs : List Json,
    (rereadItems .script xs).isOk = itemsFinite xs
  | [] => rfl
  | x :: xs => by
    rw [rereadItems, itemsFinite, isOk_bind_map, isOk_reread_script x, isOk_rereadItems_script xs]

theorem isOk_rereadFields_script : ∀ fs : List (String × Json),
    (rereadFields .script fs).isOk = fieldsFinite fs
  | [] => rfl
  | (n, x) :: fs => by
    rw [rereadFields, fieldsFinite, isOk_bind_map (fun j rest => (n, j) :: rest),
      isOk_reread_script x, isOk_rereadFields_script fs]

end

theorem fieldsFinite_put {name : String} {j : Json} {m : Mapping Json} (hj : j.isFinite = true)
    (hm : fieldsFinite m = true) : fieldsFinite (m.put name j) = true := by
  induction m with
  | nil => simp [Mapping.put, fieldsFinite, hj]
  | cons e rest ih =>
    obtain ⟨n, x⟩ := e
    simp only [fieldsFinite, Bool.and_eq_true] at hm
    rw [Mapping.put]
    split
    · simp [fieldsFinite, hj, hm.2]
    · simp [fieldsFinite, hm.1, ih hm.2]

end Json

namespace Value

mutual

/-- No number in a value is special; the names of entries are texts wherever they end up. -/
def isFinite : Value → Bool
  | .float x => x.isFinite
  | .list xs => itemsFinite xs
  | .tuple xs => itemsFinite xs
  | .dict es => entriesFinite es
  | _ => true

def itemsFinite : List Value → Bool
  | [] => true
  | x :: xs => isFinite x && itemsFinite xs

def entriesFinite : List (Value × Value) → Bool
  | [] => true
  | (_, x) :: es => isFinite x && entriesFinite es

end

mutual

theorem isFinite_toJson : ∀ v : Value, v.isFinite = true → v.toJson.isFinite = true
  | .null, _ => rfl
  | .bool _, _ => rfl
  | .int _, _ => rfl
  | .float x, h => by
    rw [toJson, Json.isFinite]
    exact h
  | .str _, _ => rfl
  | .list xs, h => by
    rw [toJson, Json.isFinite]
    exact itemsFinite_itemsJson xs h
  | .tuple xs, h => by
    rw [toJson, Json.isFinite]
    exact itemsFinite_itemsJson xs h
  | .dict es, h => by
    rw [toJson, Json.isFinite]
    exact fieldsFinite_entriesJson es [] rfl h
  | .choice _, _ => rfl
  | .path _, _ => rfl
  | .moment _, _ => rfl

theorem itemsFinite_itemsJson : ∀ xs : List Value, itemsFinite xs = true →
    Json.itemsFinite (itemsJson xs) = true
  | [], _ => rfl
  | x :: xs, h => by
    rw [itemsFinite, Bool.and_eq_true] at h
    rw [itemsJson, Json.itemsFinite, isFinite_toJson x h.1, itemsFinite_itemsJson xs h.2]
    rfl

theorem fieldsFinite_entriesJson : ∀ (es : List (Value × Value)) (done : Mapping Json),
    Json.fieldsFinite done = true → entriesFinite es = true →
    Json.fieldsFinite (entriesJson done es) = true
  | [], _, hdone, _ => hdone
  | (k, v) :: es, done, hdone, h => by
    rw [entriesFinite, Bool.and_eq_true] at h
    rw [entriesJson]
    exact fieldsFinite_entriesJson es _ (Json.fieldsFinite_put (isFinite_toJson v h.1) hdone) h.2

end

end Value

namespace Engine

theorem isOk_parse_encode (v : Value) : (Datum.parse v.toJson.encode).isOk = v.toJson.isFinite := by
  have h := Json.isOk_reread_script v.toJson
  rw [parse_encode]
  cases hread : v.toJson.reread .script with
  | ok j => rw [hread] at h; exact h
  | error e => rw [hread] at h; exact h

theorem isOk_assignValues (m : List (String × Value)) : ∀ o : Options,
    (assignValues o m).isOk = m.all fun e => e.2.toJson.isFinite := by
  induction m with
  | nil =>
    intro o
    rfl
  | cons e rest ih =>
    intro o
    obtain ⟨name, v⟩ := e
    have h := isOk_parse_encode v
    rw [assignValues, List.all_cons]
    cases hparse : Datum.parse v.toJson.encode with
    | ok d =>
      rw [hparse] at h
      simp only [← h, ih]
      rfl
    | error detail =>
      rw [hparse] at h
      rw [← h]
      rfl

/-- Options are handed over unless one of them is not written or a number in it is special. -/
theorem isOk_handOver (options : List (String × Value)) (text : String) :
    (handOver options text).isOk =
      (allWritable options && (Mapping.ofPairs options).all fun e => e.2.toJson.isFinite) := by
  rw [handOver_eq, ← isOk_assignValues _ .empty]
  cases allWritable options with
  | false => rfl
  | true => cases assignValues .empty (Mapping.ofPairs options) <;> rfl

end Engine

end ScriptLint
