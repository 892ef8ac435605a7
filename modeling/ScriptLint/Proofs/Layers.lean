import ScriptLint.Proofs.OrderedStores

/-!
# ScriptLint.Proofs.Layers

Mappings laid over each other. It does not matter which of several layers are put together first:
the names come out in the same order, with the same values.

* `Mapping.ext_get?`: an ordered mapping is told by its names and their values
* `keys_layer_nodup`, `get?_layer_nodup`: names and values of a mapping on top of another
* `layer_assoc`: the grouping of layers
* `Options.resolve_layers`: the options of a profile, a configuration and a caller
* `Store.snapshot_layers`: the first options of a store
-/

namespace ScriptLint

namespace Mapping

variable {α : Type} {m m' top above : Mapping α}

/-- Two mappings with the same names in the same order and the same values are one. -/
theorem ext_get? (hm : (keys m).Nodup) (hkeys : keys m = keys m')
    (hget : ∀ n, get? n m = get? n m') : m = m' := by
  induction m generalizing m' with
  | nil => exact (List.map_eq_nil_iff.1 hkeys.symm).symm
  | cons e m ih =>
    cases m' with
    | nil => cases hkeys
    | cons e' m' =>
      obtain ⟨n, v⟩ := e
      obtain ⟨n', v'⟩ := e'
      obtain ⟨hname, htail⟩ : n = n' ∧ keys m = keys m' := List.cons.inj hkeys
      obtain ⟨hn, hm⟩ : n ∉ keys m ∧ (keys m).Nodup := List.nodup_cons.1 hm
      subst hname
      have hvalue : v = v' := by
        have hfirst := hget n
        rw [get?, get?, if_pos rfl, if_pos rfl] at hfirst
        exact Option.some.inj hfirst
      have hrest : ∀ k, get? k m = get? k m' := by
        intro k
        by_cases hk : n = k
        · rw [← hk, get?_eq_none_iff.2 hn, get?_eq_none_iff.2 (htail ▸ hn)]
        · have hother := hget k
          rw [get?, get?, if_neg hk, if_neg hk] at hother
          exact hother
      rw [hvalue, ih hm htail hrest]

/-- A mapping on top goes before the one below. -/
theorem get?_layer_nodup (htop : (keys top).Nodup) (n : String) :
    get? n (layer m top) = (get? n top).or (get? n m) := by
  rw [get?_layer, last?_of_nodup htop]

/-- The names of the mapping below, and behind them the new ones in their order. -/
theorem keys_layer_nodup (htop : (keys top).Nodup) :
    keys (layer m top) = keys m ++ (keys top).filter (fun n => n ∉ keys m) := by
  have hnew : (keys top).removeAll (keys m) = (keys top).filter (fun n => n ∉ keys m) := by
    refine List.filter_congr fun n _ => ?_
    simp
  rw [keys_layer, hnew, eraseDups_of_nodup (htop.filter _)]

theorem layer_nil_left (htop : (keys top).Nodup) : layer [] top = top :=
  ofPairs_nodup htop

/-- Layers may be put together from either side. -/
theorem layer_assoc (hm : (keys m).Nodup) (htop : (keys top).Nodup) (habove : (keys above).Nodup) :
    layer (layer m top) above = layer m (layer top above) := by
  have hupper : (keys (layer top above)).Nodup := nodup_layer above htop
  refine ext_get? (nodup_layer above (nodup_layer top hm)) ?_ fun n => ?_
  · -- a name of the third mapping is new to both others, or it is not added
    have hnew : ∀ n, (n ∉ keys m ++ (keys top).filter (fun n => n ∉ keys m)) ↔
        n ∉ keys m ∧ n ∉ keys top := by
      intro n
      simp only [List.mem_append, List.mem_filter, decide_eq_true_eq, not_or, not_and,
        Decidable.not_not]
      exact and_congr_right fun hm =>
        ⟨fun hback htop => hm (hback htop), fun habsent htop => absurd htop habsent⟩
    rw [keys_layer_nodup habove, keys_layer_nodup hupper, keys_layer_nodup htop,
      keys_layer_nodup habove, List.filter_append, List.filter_filter, List.append_assoc]
    congr 2
    refine List.filter_congr fun n _ => ?_
    rw [← Bool.decide_and]
    exact decide_eq_decide.2 (hnew n)
  · rw [get?_layer_nodup habove, get?_layer_nodup htop, get?_layer_nodup hupper,
      get?_layer_nodup habove, Option.or_assoc]

end Mapping

namespace Options

open Mapping

variable {a b c : Mapping Value}

theorem resolveGiven_eq (defaults : Mapping Value) (overrides : Option (Mapping Value)) :
    resolveGiven defaults overrides = resolve defaults (overrides.getD []) := by
  rcases overrides with _ | _ | ⟨e, top⟩ <;> rfl

/-- Options laid over others. The grouping of three layers does not matter, and a layer that is
empty or left out changes nothing. Of two layers, an option that the upper one names has its value
from there and any other has it from below; the names of the lower one come first, and behind them
those that only the upper one has, each in their own order. -/
theorem resolve_layers (ha : (keys a).Nodup) (hb : (keys b).Nodup) (hc : (keys c).Nodup) :
    resolve (resolve a b) c = resolve a (resolve b c) ∧
    resolve [] a = a ∧ resolve a [] = a ∧ resolveGiven a none = a ∧
    resolveGiven a (some b) = resolve a b ∧
    (∀ n ∈ keys b, Mapping.get? n (resolve a b) = Mapping.get? n b) ∧
    (∀ n ∉ keys b, Mapping.get? n (resolve a b) = Mapping.get? n a) ∧
    keys (resolve a b) = keys a ++ (keys b).filter (fun n => n ∉ keys a) ∧
    (keys (resolve a b)).Nodup := by
  refine ⟨layer_assoc ha hb hc, layer_nil_left ha, rfl, rfl, resolveGiven_eq a (some b), ?_, ?_,
    keys_layer_nodup hb, nodup_layer b ha⟩
  · intro n hn
    obtain ⟨value, hvalue⟩ := Option.ne_none_iff_exists'.1
      fun hnone => get?_eq_none_iff.1 hnone hn
    rw [resolve, get?_layer_nodup hb, hvalue, Option.some_or]
  · intro n hn
    rw [resolve, get?_layer_nodup hb, get?_eq_none_iff.2 hn, Option.none_or]

/-- Three layers that name the same options at different places. -/
def lowerOptions : Mapping Value := [("white", .bool true), ("strict", .null), ("asi", .int 0)]
def middleOptions : Mapping Value := [("zeta", .int 1), ("asi", .bool true)]
def upperOptions : Mapping Value := [("asi", .str "on"), ("eta", .null), ("white", .int 2)]

theorem resolve_layers_overlapping :
    (keys lowerOptions).Nodup ∧ (keys middleOptions).Nodup ∧ (keys upperOptions).Nodup ∧
    resolve (resolve lowerOptions middleOptions) upperOptions =
      resolve lowerOptions (resolve middleOptions upperOptions) ∧
    keys (resolve lowerOptions middleOptions) = ["white", "strict", "asi", "zeta"] ∧
    Mapping.get? "asi" (resolve lowerOptions middleOptions) = some (.bool true) ∧
    Mapping.get? "white" (resolve lowerOptions middleOptions) = some (.bool true) := by
  have hlower : (keys lowerOptions).Nodup := by decide
  have hmiddle : (keys middleOptions).Nodup := by decide
  have hupper : (keys upperOptions).Nodup := by decide
  obtain ⟨hassoc, _, _, _, _, htop, hbelow, hkeys, _⟩ := resolve_layers hlower hmiddle hupper
  refine ⟨hlower, hmiddle, hupper, hassoc, hkeys.trans ?_, ?_, ?_⟩
  · decide
  · exact htop "asi" (by decide)
  · exact hbelow "white" (by decide)

namespace Store

/-- Overrides that come from a configuration and from a caller: a store starts with the profile,
the options of the configuration over it, and those of the caller over both. -/
theorem snapshot_layers {v : Variant} {options overrides : Mapping Value} {s : Store}
    {journal : Log.Journal} (hoptions : (keys options).Nodup) (hoverrides : (keys overrides).Nodup)
    (h : Store.create v (resolve options overrides) = (.ok s, journal))
    (hnone : (resolve options overrides).has swallowedName = false) :
    s.snapshot = resolve (resolve (defaults v) options) overrides := by
  rw [snapshot_create_eq h hnone]
  exact (layer_assoc (nodup_defaults v) hoptions hoverrides).symm

end Store

end Options

end ScriptLint
