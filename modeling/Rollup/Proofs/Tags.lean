import Mathlib.Data.List.Nodup
import Mathlib.Data.List.Perm.Basic
import Rollup.Tags

/-!
Tags as a map from keys to values. Main statements: entries set one after another leave one value
for each key, that of the last entry under it, and the order of the entries is all that two lists of
tags can differ in if they are one map.
-/

namespace Rollup.Tags

/-- The tags have one value for each key of some entries, that of the last entry under it. -/
structure IsMapOf (tags : Tags) (entries : List (Text × TagValue)) : Prop where
  keys : (tags.map (·.1)).Nodup
  values : ∀ key, tags.get? key = (entries.reverse.find? (·.1 == key)).map (·.2)

/-- The tags have one value for each key. -/
def IsMap (tags : Tags) : Prop := (tags.map (·.1)).Nodup

instance (tags : Tags) : Decidable tags.IsMap := inferInstanceAs (Decidable (tags.map (·.1)).Nodup)

variable {tags others : Tags} {entries : List (Text × TagValue)}

theorem IsMap.get?_eq_some_iff (map : tags.IsMap) {key : Text} {value : TagValue} :
    tags.get? key = some value ↔ (key, value) ∈ tags := by
  constructor
  · intro held
    obtain ⟨entry, found, rfl⟩ := Option.map_eq_some_iff.mp held
    have here : entry.1 = key := by simpa using List.find?_some found
    rw [← here]
    exact List.mem_of_find?_eq_some found
  · intro member
    rw [get?]
    cases found : tags.find? (·.1 == key) with
    | none => exact absurd (List.find?_eq_none.mp found _ member) (by simp)
    | some entry =>
      have here : entry.1 = key := by simpa using List.find?_some found
      have same : entry = (key, value) :=
        List.inj_on_of_nodup_map map (List.mem_of_find?_eq_some found) member here
      rw [same]
      rfl

theorem IsMap.perm_iff (map : tags.IsMap) (map' : others.IsMap) :
    tags.Perm others ↔ ∀ key, tags.get? key = others.get? key := by
  rw [List.perm_ext_iff_of_nodup (List.Nodup.of_map _ map) (List.Nodup.of_map _ map')]
  constructor
  · intro same key
    apply Option.ext
    intro value
    rw [map.get?_eq_some_iff, map'.get?_eq_some_iff]
    exact same (key, value)
  · rintro same ⟨key, value⟩
    rw [← map.get?_eq_some_iff, ← map'.get?_eq_some_iff, same]

theorem get?_set (tags : Tags) (key k : Text) (value : TagValue) :
    (tags.set key value).get? k = if key = k then some value else tags.get? k := by
  rw [set, get?, get?]
  split
  · next held =>
    have same : (fun entry : Text × TagValue => entry.1 == k) ∘
        (fun entry => if entry.1 == key then (key, value) else entry) = (·.1 == k) := by
      funext entry
      by_cases equal : entry.1 = key <;> simp [equal]
    rw [List.find?_map, same]
    cases found : tags.find? (·.1 == k) with
    | none =>
      have absent : key ≠ k := by
        rintro rfl
        obtain ⟨entry, member, equal⟩ := List.any_eq_true.mp held
        exact List.find?_eq_none.mp found entry member equal
      rw [if_neg absent]
      rfl
    | some entry =>
      have here : entry.1 = k := by simpa using List.find?_some found
      by_cases equal : key = k
      · simp [here, equal]
      · simp [here, equal, Ne.symm equal]
  · next fresh =>
    have absent : tags.find? (·.1 == key) = none := by
      apply List.find?_eq_none.mpr
      intro entry member equal
      exact fresh (List.any_eq_true.mpr ⟨entry, member, equal⟩)
    rw [List.find?_append]
    by_cases equal : key = k
    · rw [← equal, absent]
      simp
    · simp [equal]

theorem keys_set (tags : Tags) (key : Text) (value : TagValue) :
    (tags.set key value).map (·.1) =
      if key ∈ tags.map (·.1) then tags.map (·.1) else tags.map (·.1) ++ [key] := by
  have held : tags.any (·.1 == key) = true ↔ key ∈ tags.map (·.1) := by
    simp only [List.any_eq_true, beq_iff_eq, List.mem_map]
  rw [set]
  by_cases member : key ∈ tags.map (·.1)
  · rw [if_pos (held.mpr member), if_pos member, List.map_map]
    apply List.map_congr_left
    intro entry _
    by_cases equal : entry.1 = key <;> simp [equal]
  · rw [if_neg (held.not.mpr member), if_neg member, List.map_append]
    rfl

theorem IsMapOf.set (map : tags.IsMapOf entries) (key : Text) (value : TagValue) :
    (tags.set key value).IsMapOf (entries ++ [(key, value)]) where
  keys := by
    rw [keys_set]
    split
    · exact map.keys
    · next fresh =>
      exact List.Nodup.append map.keys (List.nodup_singleton key) (by simpa using fresh)
  values := by
    intro k
    rw [get?_set, List.reverse_append, List.reverse_singleton, List.singleton_append,
      List.find?_cons]
    by_cases equal : key = k
    · simp [equal]
    · rw [if_neg equal, map.values k, beq_false_of_ne equal]

/-- Entries set one after another. -/
theorem isMapOf_ofList (entries : List (Text × TagValue)) : (ofList entries).IsMapOf entries := by
  have onward (rest : List (Text × TagValue)) {tags : Tags} {entries}
      (map : tags.IsMapOf entries) :
      (rest.foldl (fun tags entry => tags.set entry.1 entry.2) tags).IsMapOf (entries ++ rest) := by
    induction rest generalizing tags entries with
    | nil =>
      rw [List.append_nil]
      exact map
    | cons entry rest ih =>
      have further := ih (map.set entry.1 entry.2)
      rw [List.append_assoc, List.singleton_append] at further
      exact further
  have none : IsMapOf [] [] := ⟨List.nodup_nil, fun _ => rfl⟩
  exact onward entries none

end Rollup.Tags
