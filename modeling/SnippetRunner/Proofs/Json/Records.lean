import Mathlib.Data.List.Nodup
import SnippetRunner.Json.Decoder

/-!
# Records by their members

A record is read by looking up each of its fields under its name. The order of the members makes no
difference as long as no name that is looked up stands there twice. A field that may be absent is a
member or none.
-/

namespace SnippetRunner.Json

variable {names : List String} {strict : Bool} {ms ns : List (String × Value)} {n : String}

/-! ## Members under a name -/

theorem get?_record_nil (n : String) : (Value.record []).get? n = none := rfl

theorem get?_record_cons (k : String) (v : Value) (ms : List (String × Value)) (n : String) :
    (Value.record ((k, v) :: ms)).get? n = if n = k then some v else (Value.record ms).get? n := by
  unfold Value.record Value.get?
  simp only [List.map_cons, List.find?_cons]
  by_cases same : n = k
  · rw [if_pos same, same, beq_self_eq_true (some k)]
    rfl
  · have other : ((some k : Option String) == some n) = false :=
      beq_false_of_ne fun e => same (Option.some.inj e).symm
    rw [if_neg same, other]

theorem get?_record_append (ms ns : List (String × Value)) (n : String) :
    (Value.record (ms ++ ns)).get? n = ((Value.record ms).get? n).or ((Value.record ns).get? n) := by
  induction ms with
  | nil => rfl
  | cons m ms ih =>
    rw [List.cons_append, get?_record_cons, get?_record_cons, ih]
    split <;> rfl

/-- A field that may be absent. -/
theorem get?_record_optional {α : Type} (o : Option α) (k : String) (f : α → Value) (n : String) :
    (Value.record (o.map fun a => (k, f a)).toList).get? n = if n = k then o.map f else none := by
  cases o with
  | none => exact (ite_self none).symm
  | some a => exact get?_record_cons k (f a) [] n

/-- The name of a field that may be absent is its only name. -/
theorem sublist_names_optional {α : Type} (o : Option α) (k : String) (f : α → Value) :
    ((o.map fun a => (k, f a)).toList.map Prod.fst).Sublist [k] := by
  cases o with
  | none => exact List.nil_sublist _
  | some a => exact List.Sublist.refl _

/-- The members under a name, in the order in which they are written. -/
theorem filter_record (ms : List (String × Value)) (n : String) :
    ((ms.map fun m => (some m.1, m.2)).filter fun m => m.1 == some n) =
      (ms.filter fun m => m.1 == n).map fun m => (some m.1, m.2) := by
  rw [List.filter_map]
  rfl

/-- The first member under a name is the one that is found. -/
theorem get?_record_eq_head? (ms : List (String × Value)) (n : String) :
    (Value.record ms).get? n = ((ms.filter fun m => m.1 == n).head?).map Prod.snd := by
  unfold Value.record Value.get?
  simp only
  rw [← List.head?_filter, filter_record, List.head?_map, Option.map_map]
  rfl

theorem length_filter_eq_count (ms : List (String × Value)) (n : String) :
    (ms.filter fun m => m.1 == n).length = (ms.map Prod.fst).count n := by
  rw [List.count_eq_countP, List.countP_map, List.countP_eq_length_filter]
  rfl

/-- A name that stands once at most has its member alone. -/
theorem filter_of_mem {v : Value} (once : (ms.map Prod.fst).count n ≤ 1) (inside : (n, v) ∈ ms) :
    (ms.filter fun m => m.1 == n) = [(n, v)] := by
  rw [← length_filter_eq_count] at once
  have found : (n, v) ∈ ms.filter fun m => m.1 == n := by simp [inside]
  generalize ms.filter (fun m => m.1 == n) = under at once found
  rcases under with _ | ⟨m, _ | ⟨m', rest⟩⟩
  · cases found
  · rw [List.mem_singleton.1 found]
  · simp only [List.length_cons] at once
    omega

theorem get?_record_of_mem {v : Value} (once : (ms.map Prod.fst).count n ≤ 1)
    (inside : (n, v) ∈ ms) : (Value.record ms).get? n = some v := by
  rw [get?_record_eq_head?, filter_of_mem once inside]
  rfl

theorem get?_record_of_not_mem (absent : n ∉ ms.map Prod.fst) : (Value.record ms).get? n = none := by
  have none_ : (ms.filter fun m => m.1 == n) = [] := by
    rw [← List.length_eq_zero_iff, length_filter_eq_count, List.count_eq_zero]
    exact absent
  rw [get?_record_eq_head?, none_]
  rfl

/-- Members under one name are no matter to the members under another one. -/
theorem get?_record_filter {k : String} (other : n ≠ k) :
    (Value.record (ms.filter fun m => m.1 != k)).get? n = (Value.record ms).get? n := by
  rw [get?_record_eq_head?, get?_record_eq_head?, List.filter_filter]
  congr 2
  refine List.filter_congr fun m _ => ?_
  by_cases same : m.1 = n
  · simp [same, other]
  · simp [same]

/-! ## Fields -/

theorem mapM_eq_some_map {α β : Type} {f : α → Option β} {g : α → β} {as : List α}
    (each : ∀ a ∈ as, f a = some (g a)) : as.mapM f = some (as.map g) := by
  induction as with
  | nil => rfl
  | cons a as ih =>
    rw [List.mapM_cons, each a (List.mem_cons_self ..),
      ih fun b inside => each b (List.mem_cons_of_mem _ inside)]
    rfl

/-- The fields of a record are what stands under their names, if each stands there once at most. -/
theorem fields_record (once : ∀ n ∈ names, (ms.map Prod.fst).count n ≤ 1)
    (known : strict = true → ∀ m ∈ ms, m.1 ∈ names) :
    Decoder.fields names strict (.record ms) = some (names.map (Value.record ms).get?) := by
  have named : ((ms.map fun m => (some m.1, m.2)).any fun m : Option String × Value =>
      m.1.isNone || (strict && !(names.any fun n => m.1 == some n))) = false := by
    rw [List.any_eq_false]
    intro member inside
    obtain ⟨m, present, rfl⟩ := List.mem_map.1 inside
    cases strict with
    | false => simp
    | true => simpa using known rfl m present
  show Decoder.members names strict (ms.map fun m => (some m.1, m.2)) = _
  unfold Decoder.members
  rw [named]
  refine mapM_eq_some_map fun n inside => ?_
  have few := once n inside
  rw [← length_filter_eq_count] at few
  rw [filter_record, get?_record_eq_head?]
  generalize ms.filter (fun m => m.1 == n) = under at few
  rcases under with _ | ⟨m, _ | ⟨m', rest⟩⟩
  · rfl
  · rfl
  · simp only [List.length_cons] at few
    omega

/-- A record with some of the fields in their order. -/
theorem fields_of_sublist (sublist : (ms.map Prod.fst).Sublist names) (distinct : names.Nodup) :
    Decoder.fields names strict (.record ms) = some (names.map (Value.record ms).get?) := by
  refine fields_record (fun n _ => ?_) fun _ m inside => ?_
  · exact List.nodup_iff_count_le_one.1 (distinct.sublist sublist) n
  · exact sublist.subset (List.mem_map_of_mem inside)

/-! ## Fields that may be absent -/

/-- A value that may be absent and is there. -/
theorem optional_of_some {α : Type} {d : Decoder α} {v : Value} {a : α} (refuses : d .null = none)
    (reads : d v = some a) : Decoder.optional d v = some (some a) := by
  cases v with
  | null => rw [refuses] at reads; cases reads
  | _ => exact congrArg (Option.map some) reads

theorem withDefault_some {α : Type} (d : Decoder α) (a : α) (v : Value) :
    Decoder.withDefault d a (some v) = d v := rfl

/-- A field that may be absent is read as it was written. -/
theorem withDefault_optional {α : Type} {d : Decoder α} {f : α → Value} {o : Option α}
    (refuses : d .null = none) (reads : ∀ a ∈ o, d (f a) = some a) :
    Decoder.withDefault (Decoder.optional d) none (o.map f) = some o := by
  cases o with
  | none => rfl
  | some a => exact optional_of_some refuses (reads a rfl)

/-- So is one for which null stands where it is absent. -/
theorem optional_elim {α : Type} {d : Decoder α} {f : α → Value} {o : Option α}
    (refuses : d .null = none) (reads : ∀ a ∈ o, d (f a) = some a) :
    Decoder.optional d (o.elim .null f) = some o := by
  cases o with
  | none => rfl
  | some a => exact optional_of_some refuses (reads a rfl)

end SnippetRunner.Json
