import Mathlib.Data.List.Perm.Subperm

/-!
# Named entries

Rows, the members of an object and the relations of an entity are lists of named entries.
The first entry of a name counts, and setting a name puts the value in its place or at the
end.
-/

namespace ResourceServer

namespace Entries

variable {α : Type}

theorem lookup_cons (first name : String) (value : α) (rest : List (String × α)) :
    ((first, value) :: rest).lookup name =
      if name = first then some value else rest.lookup name := by
  rw [List.lookup_cons]
  split
  · rename_i same
    rw [if_pos (beq_iff_eq.mp same)]
  · rename_i different
    rw [if_neg (beq_eq_false_iff_ne.mp different)]

theorem lookup_isSome {entries : List (String × α)} {name : String} :
    (entries.lookup name).isSome = entries.any (·.1 == name) := by
  induction entries with
  | nil => rfl
  | cons entry rest induction =>
      obtain ⟨first, value⟩ := entry
      rw [lookup_cons, List.any_cons]
      by_cases same : name = first
      · simp [same]
      · rw [if_neg same, beq_eq_false_iff_ne.mpr (Ne.symm same), Bool.false_or]
        exact induction

theorem lookup_overwrite (entries : List (String × α)) (name other : String) (value : α) :
    (entries.map fun entry => if entry.1 == name then (name, value) else entry).lookup other =
      if other = name then (entries.lookup name).map fun _ => value
      else entries.lookup other := by
  induction entries with
  | nil => simp
  | cons entry rest induction =>
      obtain ⟨first, current⟩ := entry
      rw [List.map_cons, lookup_cons, lookup_cons]
      by_cases same : first = name
      · subst same
        rw [if_pos (beq_self_eq_true first), lookup_cons, induction, if_pos rfl]
        split <;> rfl
      · have skipped : (first == name) = false := beq_eq_false_iff_ne.mpr same
        rw [skipped, if_neg Bool.false_ne_true, lookup_cons, induction, if_neg (Ne.symm same)]
        by_cases asked : other = name
        · subst asked
          rw [if_neg (Ne.symm same), if_pos rfl, if_pos rfl]
        · rw [if_neg asked, if_neg asked]

/-- A name that is set has the new value, and every other one keeps its value. -/
theorem lookup_set (entries : List (String × α)) (name other : String) (value : α) :
    (if entries.any (·.1 == name) then
      entries.map fun entry => if entry.1 == name then (name, value) else entry
    else entries ++ [(name, value)]).lookup other =
      if other = name then some value else entries.lookup other := by
  split
  · rename_i present
    rw [lookup_overwrite]
    split
    · rw [← lookup_isSome] at present
      obtain ⟨current, found⟩ := Option.isSome_iff_exists.mp present
      rw [found]
      rfl
    · rfl
  · rename_i absent
    rw [List.lookup_append, lookup_cons, List.lookup_nil]
    by_cases asked : other = name
    · subst asked
      rw [← lookup_isSome, Bool.not_eq_true, Option.isSome_eq_false_iff,
        Option.isNone_iff_eq_none] at absent
      rw [absent, if_pos rfl]
      rfl
    · rw [if_neg asked, if_neg asked, Option.or_none]

theorem mem_of_lookup {entries : List (String × α)} {name : String} {value : α}
    (found : entries.lookup name = some value) : (name, value) ∈ entries := by
  obtain ⟨before, after, rfl, _⟩ := List.lookup_eq_some_iff.mp found
  simp

theorem lookup_of_mem {entries : List (String × α)} (named : (entries.map Prod.fst).Nodup)
    {entry : String × α} (isEntry : entry ∈ entries) :
    entries.lookup entry.1 = some entry.2 := by
  induction entries with
  | nil => cases isEntry
  | cons first rest induction =>
      obtain ⟨name, value⟩ := first
      rw [List.map_cons, List.nodup_cons] at named
      rw [lookup_cons]
      cases List.mem_cons.mp isEntry with
      | inl same =>
          subst same
          rw [if_pos rfl]
      | inr later =>
          have different : entry.1 ≠ name := by
            rintro rfl
            exact named.1 (List.mem_map.mpr ⟨entry, later, rfl⟩)
          rw [if_neg different]
          exact induction named.2 later

/-- When there are as many entries as there are others that hold all their names, the two have
the same names. -/
theorem names_subset {entries others : List (String × α)}
    (named : (entries.map Prod.fst).Nodup) (sameLength : entries.length = others.length)
    (found : ∀ entry ∈ entries, ∃ other, others.lookup entry.1 = some other) :
    others.map Prod.fst ⊆ entries.map Prod.fst := by
  have included : entries.map Prod.fst ⊆ others.map Prod.fst := by
    intro name isName
    obtain ⟨entry, isEntry, rfl⟩ := List.mem_map.mp isName
    obtain ⟨other, isOther⟩ := found entry isEntry
    exact List.mem_map.mpr ⟨_, mem_of_lookup isOther, rfl⟩
  have permutation := (List.subperm_of_subset named included).perm_of_length_le
    (by simp [sameLength])
  exact permutation.symm.subset

end Entries

end ResourceServer
