import Mathlib

/-!
# Tables of self-keyed entries

An entry that carries its own key is stored under it.  A table read from a
list keeps the last entry of every key; a table whose entries all sit under
their own keys is determined by the list of its values, which comes out in
key order.
-/

namespace Hexroute.Lib

universe u v

variable {κ : Type u} {ν : Type v} [Ord κ] [Std.TransOrd κ]

/-- Store every entry under its own key; later entries replace earlier
ones. -/
def tableOf (key : ν → κ) (entries : List ν) : Std.ExtTreeMap κ ν :=
  entries.foldl (fun table entry => table.insert (key entry) entry) ∅

/-- The values of a table in key order. -/
def values (table : Std.ExtTreeMap κ ν) : List ν :=
  table.toList.map (·.2)

/-- Every entry sits under its own key. -/
def Keyed (key : ν → κ) (table : Std.ExtTreeMap κ ν) : Prop :=
  ∀ (wanted : κ) (entry : ν), table[wanted]? = some entry →
    key entry = wanted

variable {key : ν → κ}

theorem keyed_empty : Keyed key (∅ : Std.ExtTreeMap κ ν) := by
  intro wanted entry found
  simp at found

theorem tableOf_concat (entries : List ν) (entry : ν) :
    tableOf key (entries ++ [entry]) =
      (tableOf key entries).insert (key entry) entry := by
  simp [tableOf]

theorem mem_of_tableOf
    {entries : List ν} {wanted : κ} {entry : ν}
    (found : (tableOf key entries)[wanted]? = some entry) :
    entry ∈ entries := by
  induction entries using List.reverseRecOn with
  | nil =>
      simp [tableOf] at found
  | append_singleton entries last inductionHypothesis =>
      rw [tableOf_concat, Std.ExtTreeMap.getElem?_insert] at found
      split at found
      · obtain rfl := Option.some.inj found
        simp
      · exact List.mem_append_left _ (inductionHypothesis found)

variable [Std.LawfulEqOrd κ]

theorem Keyed.insert
    {table : Std.ExtTreeMap κ ν} (keyed : Keyed key table) {wanted : κ}
    {entry : ν} (own : key entry = wanted) :
    Keyed key (table.insert wanted entry) := by
  intro other found lookup
  rw [Std.ExtTreeMap.getElem?_insert] at lookup
  split at lookup
  · rename_i same
    obtain rfl := Option.some.inj lookup
    rw [own]
    exact Std.compare_eq_iff_eq.mp same
  · exact keyed other found lookup

theorem tableOf_keyed (entries : List ν) :
    Keyed key (tableOf key entries) := by
  induction entries using List.reverseRecOn with
  | nil =>
      exact keyed_empty
  | append_singleton entries entry inductionHypothesis =>
      rw [tableOf_concat]
      exact inductionHypothesis.insert rfl

/-- When keys do not repeat, every entry is found under its key. -/
theorem tableOf_getElem?
    {entries : List ν} {entry : ν}
    (distinct : (entries.map key).Nodup) (member : entry ∈ entries) :
    (tableOf key entries)[key entry]? = some entry := by
  induction entries using List.reverseRecOn with
  | nil =>
      simp at member
  | append_singleton entries last inductionHypothesis =>
      rw [tableOf_concat, Std.ExtTreeMap.getElem?_insert]
      rw [List.map_append, List.nodup_append] at distinct
      obtain ⟨earlier, _, apart⟩ := distinct
      rcases List.mem_append.mp member with old | new
      · have other : key last ≠ key entry := fun same =>
          apart (key entry) (List.mem_map_of_mem old) (key last) (by simp)
            same.symm
        rw [if_neg (fun same => other (Std.compare_eq_iff_eq.mp same))]
        exact inductionHypothesis earlier old
      · obtain rfl := List.mem_singleton.mp new
        rw [if_pos (Std.compare_eq_iff_eq.mpr rfl)]

theorem tableOf_getElem?_eq_some_iff
    {entries : List ν} {wanted : κ} {entry : ν}
    (distinct : (entries.map key).Nodup) :
    (tableOf key entries)[wanted]? = some entry ↔
      entry ∈ entries ∧ key entry = wanted := by
  constructor
  · intro found
    exact ⟨mem_of_tableOf found, tableOf_keyed entries wanted entry found⟩
  · rintro ⟨member, rfl⟩
    exact tableOf_getElem? distinct member

theorem mem_values {table : Std.ExtTreeMap κ ν} {entry : ν} :
    entry ∈ values table ↔ ∃ wanted : κ, table[wanted]? = some entry := by
  simp [values, Std.ExtTreeMap.mem_toList_iff_getElem?_eq_some]

theorem Keyed.mem_values
    {table : Std.ExtTreeMap κ ν} (keyed : Keyed key table) {entry : ν} :
    entry ∈ values table ↔ table[key entry]? = some entry := by
  rw [Lib.mem_values]
  constructor
  · rintro ⟨wanted, found⟩
    rw [keyed wanted entry found]
    exact found
  · exact fun found => ⟨key entry, found⟩

/-- The values come out in the order of their keys. -/
theorem Keyed.values_ordered
    {table : Std.ExtTreeMap κ ν} (keyed : Keyed key table) :
    (values table).Pairwise fun left right =>
      compare (key left) (key right) = .lt := by
  rw [values, List.pairwise_map]
  refine List.Pairwise.imp_of_mem ?_ Std.ExtTreeMap.ordered_keys_toList
  rintro ⟨leftKey, left⟩ ⟨rightKey, right⟩ leftMember rightMember below
  rw [Std.ExtTreeMap.mem_toList_iff_getElem?_eq_some] at leftMember rightMember
  simp only [keyed leftKey left leftMember, keyed rightKey right rightMember]
  exact below

theorem Keyed.values_keys_nodup
    {table : Std.ExtTreeMap κ ν} (keyed : Keyed key table) :
    ((values table).map key).Nodup := by
  rw [List.Nodup, List.pairwise_map]
  refine keyed.values_ordered.imp ?_
  intro left right below same
  rw [same, Std.compare_eq_iff_eq.mpr rfl] at below
  exact absurd below (by decide)

/-- Two tables with the same values are the same. -/
theorem Keyed.eq_of_values_eq
    {left right : Std.ExtTreeMap κ ν} (leftKeyed : Keyed key left)
    (rightKeyed : Keyed key right) (same : values left = values right) :
    left = right := by
  apply Std.ExtTreeMap.ext_getElem?
  intro wanted
  apply Option.ext
  intro entry
  constructor
  · intro found
    obtain rfl := leftKeyed wanted entry found
    exact rightKeyed.mem_values.mp (same ▸ leftKeyed.mem_values.mpr found)
  · intro found
    obtain rfl := rightKeyed wanted entry found
    exact leftKeyed.mem_values.mp (same ▸ rightKeyed.mem_values.mpr found)

/-- Erase every listed entry. -/
def eraseAll (key : ν → κ) (table : Std.ExtTreeMap κ ν)
    (entries : List ν) : Std.ExtTreeMap κ ν :=
  entries.foldl (fun rest entry => rest.erase (key entry)) table

omit [Std.LawfulEqOrd κ] in
theorem of_eraseAll
    {table : Std.ExtTreeMap κ ν} {entries : List ν} {wanted : κ} {entry : ν}
    (found : (eraseAll key table entries)[wanted]? = some entry) :
    table[wanted]? = some entry := by
  induction entries generalizing table with
  | nil =>
      exact found
  | cons head tail inductionHypothesis =>
      have kept := @inductionHypothesis (table.erase (key head)) found
      grind

/-- Reading back the values of a table, each changed without touching its
key. -/
theorem Keyed.tableOf_map_values
    {table : Std.ExtTreeMap κ ν} (keyed : Keyed key table) (change : ν → ν)
    (keeps : ∀ entry, key (change entry) = key entry) (wanted : κ) :
    (tableOf key ((values table).map change))[wanted]? =
      (table[wanted]?).map change := by
  have distinct : (((values table).map change).map key).Nodup := by
    rw [List.map_map]
    have same : key ∘ change = key := funext keeps
    rw [same]
    exact keyed.values_keys_nodup
  apply Option.ext
  intro entry
  rw [tableOf_getElem?_eq_some_iff distinct, Option.map_eq_some_iff,
    List.mem_map]
  constructor
  · rintro ⟨⟨original, member, rfl⟩, rfl⟩
    rw [keeps]
    exact ⟨original, keyed.mem_values.mp member, rfl⟩
  · rintro ⟨original, found, rfl⟩
    obtain rfl := keyed wanted original found
    exact ⟨⟨original, keyed.mem_values.mpr found, rfl⟩, keeps original⟩

end Hexroute.Lib
