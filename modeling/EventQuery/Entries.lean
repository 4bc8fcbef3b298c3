set_option autoImplicit false

/-! Tables of named things as lists of pairs, one pair for each name. -/

namespace EventQuery.Entries

variable {Key Entry : Type} [BEq Key]

/-- The entries after a key was given an entry; what the key had before is replaced. -/
def put (entries : List (Key × Entry)) (key : Key) (entry : Entry) : List (Key × Entry) :=
  entries.filter (fun other => !(other.1 == key)) ++ [(key, entry)]

theorem lookup_put_self [LawfulBEq Key] (entries : List (Key × Entry)) (key : Key)
    (entry : Entry) : (put entries key entry).lookup key = some entry := by
  unfold put
  induction entries with
  | nil => simp
  | cons head rest ih =>
      obtain ⟨other, held⟩ := head
      by_cases same : other = key
      · simpa [same] using ih
      · have apart : (key == other) = false := by simpa using Ne.symm same
        simpa [same, List.lookup_cons, apart] using ih

theorem lookup_put_of_ne [LawfulBEq Key] (entries : List (Key × Entry)) {key other : Key}
    (entry : Entry) (different : other ≠ key) :
    (put entries key entry).lookup other = entries.lookup other := by
  have unequal : (other == key) = false := by simpa using different
  unfold put
  induction entries with
  | nil => simp [List.lookup_cons, unequal]
  | cons head rest ih =>
      obtain ⟨name, held⟩ := head
      by_cases same : name = key
      · subst same
        simpa [List.lookup_cons, unequal] using ih
      · by_cases found : other = name
        · simp [found, same]
        · have apart : (other == name) = false := by simpa using found
          simpa [same, List.lookup_cons, apart] using ih

theorem mem_of_lookup [LawfulBEq Key] {entries : List (Key × Entry)} {key : Key} {entry : Entry}
    (found : entries.lookup key = some entry) : (key, entry) ∈ entries := by
  obtain ⟨before, after, split, _⟩ := List.lookup_eq_some_iff.mp found
  rw [split]
  exact List.mem_append_right before List.mem_cons_self

theorem lookup_of_mem [LawfulBEq Key] {entries : List (Key × Entry)} {key : Key} {entry : Entry}
    (distinct : (entries.map Prod.fst).Nodup) (member : (key, entry) ∈ entries) :
    entries.lookup key = some entry := by
  rw [List.lookup_eq_some_iff]
  obtain ⟨before, after, split⟩ := List.append_of_mem member
  refine ⟨before, after, split, fun other earlier => ?_⟩
  rw [split, List.map_append, List.map_cons, List.nodup_append] at distinct
  have apart := distinct.2.2 other.1 (List.mem_map_of_mem earlier) key List.mem_cons_self
  simpa using Ne.symm apart

end EventQuery.Entries
