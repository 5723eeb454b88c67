/-!
# Tables

What stands under each of some names, such as the calls under way. A table is used through three
operations, and two lemmas say what they do to what is looked up.
-/

namespace SnippetRunner

/-- Some things, each under a name of its own. -/
structure Table (κ α : Type) where
  entries : List (κ × α)

namespace Table

variable {κ α : Type} [DecidableEq κ]

/-- A table with nothing in it. -/
def empty : Table κ α := ⟨[]⟩

/-- What stands under a name. -/
def get? (t : Table κ α) (n : κ) : Option α := (t.entries.find? fun e => e.1 == n).map Prod.snd

/-- The table with something else under a name. -/
def set (t : Table κ α) (n : κ) (a : α) : Table κ α :=
  ⟨(t.entries.filter fun e => e.1 != n) ++ [(n, a)]⟩

/-- The table with nothing under a name. -/
def erase (t : Table κ α) (n : κ) : Table κ α := ⟨t.entries.filter fun e => e.1 != n⟩

@[simp] theorem get?_empty (n : κ) : (empty : Table κ α).get? n = none := rfl

/-- Leaving out one name does not change what is found under another one. -/
theorem find?_filter_ne {n m : κ} (h : m ≠ n) (l : List (κ × α)) :
    (l.filter fun e => e.1 != n).find? (fun e => e.1 == m) = l.find? fun e => e.1 == m := by
  induction l with
  | nil => rfl
  | cons e l ih =>
    by_cases he : e.1 = n
    · have hm : e.1 ≠ m := fun hc => h (hc.symm.trans he)
      rw [List.filter_cons_of_neg (by simp [he]), ih, List.find?_cons_of_neg (by simpa using hm)]
    · rw [List.filter_cons_of_pos (by simpa using he), List.find?_cons, List.find?_cons, ih]

/-- Once a name is left out, nothing is found under it. -/
theorem find?_filter_self (n : κ) (l : List (κ × α)) :
    (l.filter fun e => e.1 != n).find? (fun e => e.1 == n) = none := by
  rw [List.find?_eq_none]
  intro e he
  simpa using (List.mem_filter.1 he).2

@[simp] theorem get?_set (t : Table κ α) (n m : κ) (a : α) :
    (t.set n a).get? m = if m = n then some a else t.get? m := by
  unfold get? set
  rw [List.find?_append]
  by_cases h : m = n
  · subst h
    rw [find?_filter_self]
    simp
  · have hn : (n == m) = false := by simpa using fun hc => h hc.symm
    rw [find?_filter_ne h, if_neg h]
    simp [hn]

@[simp] theorem get?_erase (t : Table κ α) (n m : κ) :
    (t.erase n).get? m = if m = n then none else t.get? m := by
  unfold get? erase
  by_cases h : m = n
  · subst h
    rw [find?_filter_self]
    simp
  · rw [find?_filter_ne h, if_neg h]

/-- What is found stands under a name of the table. -/
theorem mem_names_of_get? {t : Table κ α} {n : κ} {a : α} (h : t.get? n = some a) :
    n ∈ t.entries.map Prod.fst := by
  obtain ⟨e, he, -⟩ := Option.map_eq_some_iff.1 h
  have hn : e.1 = n := by simpa using List.find?_some he
  rw [← hn]
  exact List.mem_map_of_mem (List.mem_of_find?_eq_some he)

end Table

end SnippetRunner
