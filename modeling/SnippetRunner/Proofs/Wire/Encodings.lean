import SnippetRunner.Proofs.Json.Keeping
import SnippetRunner.Proofs.Json.Records
import SnippetRunner.Proofs.Json.RoundTrip
import SnippetRunner.Wire.Event

/-!
# All encodings of an event

An event has many JSON values: its members come in any order, the ones that have their defaults may be
left out, and there may be further members under other names. All of them, in all their spellings, are
read as the event.

There is one exception. The members of an event are kept before its type is known, those that count for
nothing included, and an integer cannot be kept if the reader takes it for one beyond the greatest
double. So a further member with such a value makes the whole line unreadable. The reader takes the first
digits of an integer as far as they fit in 64 bits and scales them by a power of ten, with two roundings,
so that the greatest double itself, written out, is one of these; no integer of up to 308 digits is.
-/

namespace SnippetRunner.Wire

open SnippetRunner.Json (Decoder Value)

/-! ## Encodings -/

/-- A value without parts: null, a truth value, a text or an integer. Zero may have a sign. -/
inductive IsScalar : Value → Prop where
  | null : IsScalar .null
  | bool (b : Bool) : IsScalar (.bool b)
  | text (s : String) : IsScalar (.text s)
  | integer (negative : Bool) (n : Nat) :
    IsScalar (.number ⟨negative, Json.digits n, none, none⟩)

/-- If the value is a number, the reader does not take it for one beyond the greatest double. -/
def InRange : Value → Prop
  | .number n => n.inRange = true
  | _ => True

/-- The members of a record with these fields. Fields with their defaults may be left out, and further
members under other names are added. -/
inductive Members (fields defaults further : List (String × Value)) :
    List (String × Value) → Prop where
  | intro {given ms : List (String × Value)} (fromFields : given.Sublist fields)
    (complete : ∀ m ∈ fields, m ∈ given ∨ m ∈ defaults)
    (unknown : ∀ m ∈ further, m.1 ∉ fields.map Prod.fst ∧ IsScalar m.2)
    (order : ms.Perm (given ++ further)) : Members fields defaults further ms

namespace RawFault

/-- The numbers of a fault have room in 64 bits with a sign. -/
def HasRoom (f : RawFault) : Prop :=
  (∀ i ∈ f.line, -(2 ^ 63) ≤ i ∧ i < 2 ^ 63) ∧ ∀ i ∈ f.column, -(2 ^ 63) ≤ i ∧ i < 2 ^ 63

/-- The members of a fault, where null stands for what is absent. -/
def members (f : RawFault) : List (String × Value) :=
  [("message", .text f.message), ("type", f.kind.elim .null .text), ("line", f.line.elim .null .int),
    ("column", f.column.elim .null .int)]

/-- The value encodes the fault, with some further members. -/
def EncodedBy (f : RawFault) (further : List (String × Value)) (v : Value) : Prop :=
  ∃ ms, v = .record ms ∧ Members f.members (members ⟨"", none, none, none⟩) further ms

end RawFault

namespace Event

/-- The numbers of an event have room in their fields. -/
def HasRoom : Event → Prop
  | .ready _ => True
  | .output _ id _ => id < 2 ^ 64
  | .done id fault => id < 2 ^ 64 ∧ ∀ f ∈ fault, f.HasRoom

/-- The value encodes the event, with some further members; those of a fault are counted among them. -/
inductive EncodedBy : Event → List (String × Value) → Value → Prop where
  | ready {version : String} {further ms : List (String × Value)}
    (members : Members [("type", .text "ready"), ("version", .text version)]
      [("version", .text "")] further ms) : EncodedBy (.ready version) further (.record ms)
  | output {channel : Channel} {id : Nat} {text : String} {further ms : List (String × Value)}
    (members : Members [("type", .text channel.name), ("id", .nat id), ("text", .text text)] []
      further ms) : EncodedBy (.output channel id text) further (.record ms)
  | success {id : Nat} {further ms : List (String × Value)}
    (members : Members [("type", .text "done"), ("id", .nat id), ("error", .null)]
      [("error", .null)] further ms) : EncodedBy (.done id none) further (.record ms)
  | failure {id : Nat} {fault : RawFault} {error : Value} {inner further ms : List (String × Value)}
    (encoded : fault.EncodedBy inner error)
    (members : Members [("type", .text "done"), ("id", .nat id), ("error", error)] [] further ms) :
    EncodedBy (.done id (some fault)) (further ++ inner) (.record ms)

end Event

/-! ## Scalars -/

theorem keeps_of_isScalar {v : Value} (scalar : IsScalar v) : v.Keeps ↔ InRange v := by
  cases scalar <;> simp [Value.Keeps, Value.tokens, Value.text, Json.Token.kept, InRange]

/-- An integer of up to 308 digits is in range, and so is whatever is no number. -/
theorem inRange_of_isScalar {v : Value} (scalar : IsScalar v)
    (few : ∀ n, v = .number n → n.whole.length ≤ 308) : InRange v := by
  cases scalar with
  | integer negative n =>
    exact Json.Numeral.inRange_of_length_le (few ⟨negative, Json.digits n, none, none⟩ rfl)
  | _ => trivial

-- the greatest double has 309 digits, and what the reader makes of them is rounded up
example : ¬InRange (.nat (Nat.pow 2 1024 - Nat.pow 2 971)) := by
  show ¬(Json.Numeral.ofNat (Nat.pow 2 1024 - Nat.pow 2 971)).inRange = true
  decide +kernel

/-- A scalar opens nothing. -/
theorem within_of_isScalar {v : Value} (scalar : IsScalar v) (depth : Nat) : v.Within depth := by
  intro s
  cases scalar <;> exact ⟨rfl, Nat.le_max_left ..⟩

theorem isScalar_nat (n : Nat) : IsScalar (.nat n) := .integer false n

theorem isScalar_int (i : Int) : IsScalar (.int i) := .integer (decide (i < 0)) i.natAbs

/-! ## Members -/

namespace Members

variable {fields defaults further ms : List (String × Value)} {n : String} {v : Value}

/-- The name of a field stands at most once. -/
theorem once (members : Members fields defaults further ms)
    (distinct : (fields.map Prod.fst).Nodup) (known : n ∈ fields.map Prod.fst) :
    (ms.map Prod.fst).count n ≤ 1 := by
  obtain ⟨fromFields, -, unknown, order⟩ := members
  have outside : n ∉ further.map Prod.fst := by
    intro inside
    obtain ⟨m, present, rfl⟩ := List.mem_map.1 inside
    exact (unknown m present).1 known
  rw [(order.map Prod.fst).count_eq, List.map_append, List.count_append,
    List.count_eq_zero.2 outside]
  exact List.nodup_iff_count_le_one.1 (distinct.sublist (fromFields.map Prod.fst)) n

/-- A field has its value, or it is missing and has its default. -/
theorem get? (members : Members fields defaults further ms)
    (distinct : (fields.map Prod.fst).Nodup) (field : (n, v) ∈ fields) :
    (Value.record ms).get? n = some v ∨
      (Value.record ms).get? n = none ∧ (n, v) ∈ defaults := by
  have known : n ∈ fields.map Prod.fst := List.mem_map_of_mem field
  have few := members.once distinct known
  obtain ⟨fromFields, complete, unknown, order⟩ := members
  rcases complete (n, v) field with inside | missing
  · exact .inl (Json.get?_record_of_mem few (order.mem_iff.2 (List.mem_append_left _ inside)))
  · by_cases present : n ∈ ms.map Prod.fst
    · -- what stands under the name is the field, since no other one has it
      obtain ⟨⟨k, w⟩, inside, rfl⟩ := List.mem_map.1 present
      rcases List.mem_append.1 (order.mem_iff.1 inside) with inside' | other
      · obtain rfl : w = v :=
          congrArg Prod.snd (List.inj_on_of_nodup_map distinct (fromFields.subset inside') field rfl)
        exact .inl (Json.get?_record_of_mem few inside)
      · exact absurd known (unknown _ other).1
    · exact .inr ⟨Json.get?_record_of_not_mem present, missing⟩

/-- A field that may be left out is read. -/
theorem withDefault {α : Type} {d : Decoder α} {a x : α} (members : Members fields defaults further ms)
    (distinct : (fields.map Prod.fst).Nodup) (field : (n, v) ∈ fields) (reads : d v = some a)
    (default : (n, v) ∈ defaults → x = a) :
    Decoder.withDefault d x ((Value.record ms).get? n) = some a := by
  rcases members.get? distinct field with found | ⟨missing, is⟩
  · rw [found]
    exact reads
  · rw [missing, default is]
    rfl

/-- A field that has to be there is read. -/
theorem required {α : Type} {d : Decoder α} {a : α} (members : Members fields defaults further ms)
    (distinct : (fields.map Prod.fst).Nodup) (field : (n, v) ∈ fields) (reads : d v = some a)
    (noDefault : (n, v) ∉ defaults) : Decoder.required d ((Value.record ms).get? n) = some a := by
  rcases members.get? distinct field with found | ⟨_, is⟩
  · rw [found]
    exact reads
  · exact absurd is noDefault

/-- A field that is null where it is absent, and may be left out then, is read. -/
theorem optional {α : Type} {d : Decoder α} {f : α → Value} {o : Option α}
    (members : Members fields defaults further ms) (distinct : (fields.map Prod.fst).Nodup)
    (field : (n, o.elim .null f) ∈ fields) (refuses : d .null = none) (other : ∀ a, f a ≠ .null)
    (reads : ∀ a ∈ o, d (f a) = some a) (default : ∀ v, (n, v) ∈ defaults → v = .null) :
    Decoder.withDefault (Decoder.optional d) none ((Value.record ms).get? n) = some o := by
  refine members.withDefault distinct field (Json.optional_elim refuses reads) fun is => ?_
  cases o with
  | none => rfl
  | some a => exact absurd (default _ is) (other a)

/-- Whether a record can be kept depends on its fields and on the further members. -/
theorem keeps_iff (members : Members fields defaults further ms)
    (kept : ∀ m ∈ defaults, m.2.Keeps) :
    (Value.record ms).Keeps ↔ (∀ m ∈ fields, m.2.Keeps) ∧ ∀ m ∈ further, InRange m.2 := by
  obtain ⟨fromFields, complete, unknown, order⟩ := members
  have scalars : ∀ m ∈ further, (m.2.Keeps ↔ InRange m.2) := fun m inside =>
    keeps_of_isScalar (unknown m inside).2
  rw [Json.keeps_record]
  simp only [order.mem_iff, List.mem_append]
  constructor
  · intro all
    refine ⟨fun m field => ?_, fun m other => (scalars m other).1 (all m (.inr other))⟩
    exact (complete m field).elim (fun inside => all m (.inl inside)) (kept m)
  · rintro ⟨own, others⟩ m (inside | other)
    · exact own m (fromFields.subset inside)
    · exact (scalars m other).2 (others m other)

/-- A record is one deeper than its fields. -/
theorem within {depth : Nat} (members : Members fields defaults further ms)
    (each : ∀ m ∈ fields, m.2.Within depth) : (Value.record ms).Within (depth + 1) := by
  obtain ⟨fromFields, -, unknown, order⟩ := members
  apply Json.within_record
  intro m inside
  rcases List.mem_append.1 (order.mem_iff.1 inside) with inside | other
  · exact each m (fromFields.subset inside)
  · exact within_of_isScalar (unknown m other).2 depth

/-- The fields are what stands under their names. -/
theorem fields_record {names : List String} (members : Members fields defaults further ms)
    (distinct : (fields.map Prod.fst).Nodup) (known : names ⊆ fields.map Prod.fst) :
    Decoder.fields names false (.record ms) = some (names.map (Value.record ms).get?) :=
  Json.fields_record (fun _ inside => members.once distinct (known inside)) nofun

end Members

/-! ## Faults -/

namespace RawFault

variable {f : RawFault} {further : List (String × Value)} {v : Value}

theorem members_distinct (f : RawFault) : (f.members.map Prod.fst).Nodup := by
  show ["message", "type", "line", "column"].Nodup
  decide

/-- A fault is read from each of its encodings. -/
theorem ofJson?_of_encodedBy (room : f.HasRoom) (encoded : f.EncodedBy further v) :
    ofJson? v = some f := by
  obtain ⟨ms, rfl, members⟩ := encoded
  have distinct := f.members_distinct
  have fields : Decoder.fields ["message", "type", "line", "column"] false (.record ms) = _ :=
    members.fields_record distinct (List.Subset.refl _)
  have message : Decoder.withDefault Decoder.text "" ((Value.record ms).get? "message") =
      some f.message :=
    members.withDefault distinct (List.mem_cons_self ..) rfl fun default => by
      simp only [RawFault.members, List.mem_cons, Prod.mk.injEq, Value.text] at default
      simpa using default.symm
  have kind : Decoder.withDefault (Decoder.optional Decoder.text) none
      ((Value.record ms).get? "type") = some f.kind :=
    members.optional (f := Value.text) distinct (by simp [RawFault.members]) rfl nofun
      (fun _ _ => rfl) (by simp [RawFault.members])
  have line : Decoder.withDefault (Decoder.optional Decoder.signed) none
      ((Value.record ms).get? "line") = some f.line :=
    members.optional (f := Value.int) distinct (by simp [RawFault.members]) rfl nofun
      (fun i is => Json.signed_int (room.1 i is).1 (room.1 i is).2) (by simp [RawFault.members])
  have column : Decoder.withDefault (Decoder.optional Decoder.signed) none
      ((Value.record ms).get? "column") = some f.column :=
    members.optional (f := Value.int) distinct (by simp [RawFault.members]) rfl nofun
      (fun i is => Json.signed_int (room.2 i is).1 (room.2 i is).2) (by simp [RawFault.members])
  unfold ofJson?
  rw [fields]
  simp [message, kind, line, column]

theorem isScalar_elim {α : Type} {g : α → Value} (each : ∀ a, IsScalar (g a)) (o : Option α) :
    IsScalar (o.elim .null g) := by
  cases o with
  | none => exact .null
  | some a => exact each a

/-- The members of a fault are scalars. -/
theorem isScalar_of_mem_members (f : RawFault) : ∀ m ∈ f.members, IsScalar m.2 := by
  have kind := isScalar_elim IsScalar.text f.kind
  have line := isScalar_elim isScalar_int f.line
  have column := isScalar_elim isScalar_int f.column
  simp [members, IsScalar.text f.message, kind, line, column]

theorem inRange_elim {o : Option Int} (room : ∀ i ∈ o, -(2 ^ 63) ≤ i ∧ i < 2 ^ 63) :
    InRange (o.elim .null .int) := by
  cases o with
  | none => exact trivial
  | some i =>
    have fits := room i rfl
    refine Json.Numeral.inRange_ofInt (?_ : i.natAbs ≤ 18446744073709551615)
    omega

/-- Its numbers are in range. -/
theorem inRange_of_mem_members (room : f.HasRoom) : ∀ m ∈ f.members, InRange m.2 := by
  have kind : InRange (f.kind.elim .null .text) := by cases f.kind <;> exact trivial
  have message : InRange (.text f.message) := trivial
  simp [members, message, kind, inRange_elim room.1, inRange_elim room.2]

/-- Whether an encoding of a fault can be kept depends on the further members. -/
theorem keeps_iff_of_encodedBy (room : f.HasRoom) (encoded : f.EncodedBy further v) :
    v.Keeps ↔ ∀ m ∈ further, InRange m.2 := by
  obtain ⟨ms, rfl, members⟩ := encoded
  have own {g : RawFault} (room : g.HasRoom) : ∀ m ∈ g.members, m.2.Keeps := fun m inside =>
    (keeps_of_isScalar (g.isScalar_of_mem_members m inside)).2 (inRange_of_mem_members room m inside)
  rw [members.keeps_iff (own ⟨nofun, nofun⟩)]
  exact and_iff_right (own room)

theorem within_of_encodedBy (encoded : f.EncodedBy further v) : v.Within 1 := by
  obtain ⟨ms, rfl, members⟩ := encoded
  exact members.within fun m inside => within_of_isScalar (f.isScalar_of_mem_members m inside) 0

end RawFault

/-! ## Events -/

namespace Event

section

variable {type : String} {fields defaults further ms : List (String × Value)}

/-- The type is found wherever it stands, and the other members are read without it. -/
theorem ofJson?_record (members : Members (("type", .text type) :: fields) defaults further ms)
    (distinct : ((("type", Value.text type) :: fields).map Prod.fst).Nodup)
    (noDefault : ("type", .text type) ∉ defaults) :
    ofJson? (.record ms) = ofBody? type (.record (ms.filter fun m => m.1 != "type")) := by
  have once := members.once distinct (List.mem_cons_self ..)
  obtain ⟨-, complete, -, order⟩ := members
  have inside : ("type", .text type) ∈ ms := by
    refine order.mem_iff.2 (List.mem_append_left _ ?_)
    exact (complete _ (List.mem_cons_self ..)).resolve_right noDefault
  have tag := Json.filter_record ms "type"
  rw [Json.filter_of_mem once inside] at tag
  have rest : ((ms.map fun m => (some m.1, m.2)).filter fun m => m.1 != some "type") =
      (ms.filter fun m => m.1 != "type").map fun m => (some m.1, m.2) := by
    rw [List.filter_map]
    rfl
  unfold Value.record ofJson?
  simp only [tag, rest]
  rfl

/-- The other members are the fields that follow the type. -/
theorem fields_body {v : Value} (members : Members (("type", v) :: fields) defaults further ms)
    (distinct : ((("type", v) :: fields).map Prod.fst).Nodup) :
    Decoder.fields (fields.map Prod.fst) false (.record (ms.filter fun m => m.1 != "type")) =
      some ((fields.map Prod.fst).map (Value.record ms).get?) := by
  refine (Json.fields_record (fun n inside => ?_) (by simp)).trans ?_
  · exact Nat.le_trans ((List.filter_sublist.map Prod.fst).count_le n)
      (members.once distinct (List.mem_cons_of_mem _ inside))
  · refine congrArg some (List.map_congr_left fun n inside => Json.get?_record_filter ?_)
    rintro rfl
    exact (List.nodup_cons.1 distinct).1 inside

/-- The end of an execution, whose fault is null where it is left out. -/
theorem ofJson?_of_done {id : Nat} {error : Value} {fault : Option RawFault} (room : id < 2 ^ 64)
    (members : Members [("type", .text "done"), ("id", .nat id), ("error", error)] defaults further ms)
    (noDefault : ∀ m ∈ defaults, m.1 = "error") (default : ("error", error) ∈ defaults → error = .null)
    (reads : Decoder.optional RawFault.ofJson? error = some fault) :
    ofJson? (.record ms) = some (.done id fault) := by
  have distinct : ["type", "id", "error"].Nodup := by decide
  have body : Decoder.fields ["id", "error"] false _ = _ := fields_body members distinct
  have id' : Decoder.required (Decoder.word 64) ((Value.record ms).get? "id") = some id :=
    members.required (v := .nat id) distinct (by simp) (Json.word_nat room) fun inside =>
      absurd (noDefault _ inside) (by simp)
  have fault' : Decoder.withDefault (Decoder.optional RawFault.ofJson?) none
      ((Value.record ms).get? "error") = some fault :=
    members.withDefault (v := error) distinct (by simp) reads fun is => by
      rw [default is] at reads
      exact Option.some.inj reads
  rw [ofJson?_record members distinct fun inside => absurd (noDefault _ inside) (by simp)]
  simp [ofBody?, body, id', fault']

end

variable {e : Event} {further : List (String × Value)} {v : Value}

/-- An event is read from each of its encodings. -/
theorem ofJson?_of_encodedBy (room : e.HasRoom) (encoded : e.EncodedBy further v) :
    ofJson? v = some e := by
  cases encoded with
  | @ready version further ms members =>
    have distinct : ["type", "version"].Nodup := by decide
    have body : Decoder.fields ["version"] false _ = _ := fields_body members distinct
    have version' : Decoder.withDefault Decoder.text "" ((Value.record ms).get? "version") =
        some version :=
      members.withDefault (v := .text version) distinct (by simp) rfl fun default => by
        simp only [List.mem_singleton, Prod.mk.injEq, Value.text] at default
        simpa using default.symm
    rw [ofJson?_record members distinct (by simp)]
    simp [ofBody?, body, version']
  | @output channel id text further ms members =>
    have distinct : ["type", "id", "text"].Nodup := by decide
    have body : Decoder.fields ["id", "text"] false _ = _ := fields_body members distinct
    have id' : Decoder.required (Decoder.word 64) ((Value.record ms).get? "id") = some id :=
      members.required (v := .nat id) distinct (by simp) (Json.word_nat room) List.not_mem_nil
    have text' : Decoder.required Decoder.text ((Value.record ms).get? "text") = some text :=
      members.required (v := .text text) distinct (by simp) rfl List.not_mem_nil
    rw [ofJson?_record members distinct (by simp)]
    cases channel <;> simp [ofBody?, ofBody?.output?, Channel.name, body, id', text']
  | success members =>
    exact ofJson?_of_done room.1 members (by simp) (fun _ => rfl) rfl
  | failure encoded members =>
    have read := RawFault.ofJson?_of_encodedBy (room.2 _ rfl) encoded
    exact ofJson?_of_done room.1 members nofun nofun (Json.optional_of_some rfl read)

theorem keeps_nat {id : Nat} (room : id < 2 ^ 64) : (Value.nat id).Keeps := by
  have number : Value.nat id = .int id := congrArg Value.number (Json.Numeral.ofInt_natCast id).symm
  rw [number]
  refine Json.keeps_int (?_ : id ≤ 18446744073709551615)
  omega

theorem keeps_text (text : String) : (Value.text text).Keeps := Json.keeps_string.2 rfl

/-- Whether an encoding of an event can be kept depends on the further members. -/
theorem keeps_iff_of_encodedBy (room : e.HasRoom) (encoded : e.EncodedBy further v) :
    v.Keeps ↔ ∀ m ∈ further, InRange m.2 := by
  cases encoded with
  | ready members =>
    rw [members.keeps_iff (by simp [keeps_text])]
    simp [keeps_text]
  | output members =>
    rw [members.keeps_iff (List.forall_mem_nil _)]
    simp [keeps_text, keeps_nat room]
  | success members =>
    have null : Value.null.Keeps := rfl
    rw [members.keeps_iff (by simp [null])]
    simp [keeps_text, keeps_nat room.1, null]
  | failure encoded members =>
    have inner := RawFault.keeps_iff_of_encodedBy (room.2 _ rfl) encoded
    rw [members.keeps_iff (List.forall_mem_nil _)]
    simp [keeps_text, keeps_nat room.1, inner, or_imp, forall_and, and_comm]

/-- All further members are scalars, those of a fault included. -/
theorem EncodedBy.isScalar (encoded : e.EncodedBy further v) : ∀ m ∈ further, IsScalar m.2 := by
  have known {fields defaults further ms : List (String × Value)}
      (members : Members fields defaults further ms) : ∀ m ∈ further, IsScalar m.2 := by
    obtain ⟨-, -, unknown, -⟩ := members
    exact fun m inside => (unknown m inside).2
  cases encoded with
  | ready members => exact known members
  | output members => exact known members
  | success members => exact known members
  | failure encoded members =>
    obtain ⟨ms, rfl, inner⟩ := encoded
    intro m inside
    rcases List.mem_append.1 inside with outside | within
    · exact known members m outside
    · exact known inner m within

theorem within_of_encodedBy (encoded : e.EncodedBy further v) : v.Within 2 := by
  have text (s : String) : (Value.text s).Within 1 := within_of_isScalar (.text s) 1
  have number (n : Nat) : (Value.nat n).Within 1 := within_of_isScalar (isScalar_nat n) 1
  cases encoded with
  | ready members => exact members.within (by simp [text])
  | output members => exact members.within (by simp [text, number])
  | success members =>
    have null := within_of_isScalar .null 1
    exact members.within (by simp [text, number, null])
  | failure encoded members =>
    exact members.within (by simp [text, number, RawFault.within_of_encodedBy encoded])

/-- A line that spells an encoding of an event is read as the event if all of it can be kept. -/
theorem decode?_eq_ite {line : String} (room : e.HasRoom) (encoded : e.EncodedBy further v)
    (spelled : v.SpelledBy line) :
    decode? line = if v.tokens.all Json.Token.kept = true then some e else none := by
  have shallow : Json.nesting v.tokens ≤ Json.maxNesting :=
    Nat.le_trans (Json.nesting_le_of_within (within_of_encodedBy encoded)) (by decide)
  unfold decode?
  rw [Json.parseKept?_of_shallow (Json.tokens?_of_spelledBy spelled) shallow]
  split
  · exact ofJson?_of_encodedBy room encoded
  · rfl

/-- Whatever the order of its members, however its strings are spelled and wherever white space
stands, an event is read from its line, unless a further member is an integer out of range: then
nothing is read. No integer of up to 308 digits is out of range. -/
theorem decode?_of_encodedBy {line : String} (room : e.HasRoom) (encoded : e.EncodedBy further v)
    (spelled : v.SpelledBy line) :
    ((∀ m ∈ further, InRange m.2) → decode? line = some e) ∧
      ((∃ m ∈ further, ¬InRange m.2) → decode? line = none) ∧
      ((∀ m ∈ further, ∀ n, m.2 = .number n → n.whole.length ≤ 308) → ∀ m ∈ further, InRange m.2) := by
  have keeps := keeps_iff_of_encodedBy room encoded
  have scalars := encoded.isScalar
  rw [decode?_eq_ite room encoded spelled]
  refine ⟨fun inRange => if_pos (keeps.2 inRange), fun ⟨m, inside, out⟩ => if_neg fun kept => ?_,
    fun few m inside => ?_⟩
  · exact out (keeps.1 kept m inside)
  · exact inRange_of_isScalar (scalars m inside) (few m inside)

/-- A line with a member out of order, escapes in a name and in texts, white space, what is absent
given once and left out once, and further members at both levels. -/
theorem decode?_of_encodedBy_shuffled :
    let fault : RawFault := ⟨"😀é", none, none, none⟩
    let further := [("x", Value.number ⟨true, Json.digits 0, none, none⟩), ("y", Value.text "/")]
    let error := Value.record [("type", .null), ("y", .text "/"), ("message", .text "😀é")]
    let value := Value.record [("x", .number ⟨true, Json.digits 0, none, none⟩),
      ("type", .text "done"), ("error", error), ("id", .nat 7)]
    let line := "\x7b\"x\":-0,\"\\u0074ype\":\"done\", \"error\":\x7b\"type\":null,\"y\":\"\\/\"," ++
      "\"message\":\"\\uD83D\\ude00é\"\x7d,\"id\":7\x7d\n"
    (done 7 (some fault)).HasRoom ∧ (done 7 (some fault)).EncodedBy further value ∧
      value.SpelledBy line ∧ (∀ m ∈ further, InRange m.2) ∧
      decode? line = some (done 7 (some fault)) := by
  intro fault further error value line
  have room : (done 7 (some fault)).HasRoom := by
    refine ⟨by decide, fun f is => ?_⟩
    rw [← Option.some.inj is]
    exact ⟨nofun, nofun⟩
  have inner : fault.EncodedBy [("y", .text "/")] error := by
    -- the message and the kind are given, and the position is left out
    have order : [("type", Value.null), ("y", .text "/"), ("message", .text "😀é")].Perm
        (fault.members.take 2 ++ [("y", .text "/")]) :=
      (List.perm_append_comm : List.Perm ([_, _] ++ [_]) _)
    refine ⟨_, rfl, .intro (List.take_sublist 2 _) ?_ ?_ order⟩
    · simp [RawFault.members, fault]
    · simp [RawFault.members, IsScalar.text]
  have encoded : (done 7 (some fault)).EncodedBy further value := by
    have order : [("x", Value.number ⟨true, Json.digits 0, none, none⟩), ("type", .text "done"),
        ("error", error), ("id", .nat 7)].Perm
        ([("type", .text "done"), ("id", .nat 7), ("error", error)] ++
          [("x", .number ⟨true, Json.digits 0, none, none⟩)]) :=
      (List.perm_append_comm : List.Perm ([_] ++ [_, _, _]) _) |>.trans ((List.Perm.swap ..).cons _)
    refine .failure inner (.intro (.refl _) (fun _ => .inl) ?_ order)
    simp [IsScalar.integer]
  have spelled : value.SpelledBy line := by
    have none_ : Json.IsWhite [] := List.forall_mem_nil _
    have space : Json.IsWhite [' '] := by simp [Json.IsWhite]
    have newline : Json.IsWhite ['\n'] := by simp [Json.IsWhite]
    have plain (s : String) := Json.spellsToken_text (s := some s) rfl
    have raw (c : Char) (h : c ≠ '"' ∧ c ≠ '\\' ∧ 0x20 ≤ c.toNat) := Json.SpellsChar.raw h.1 h.2.1 h.2.2
    have tag : Json.SpellsToken (.string (some "type")) "\"\\u0074ype\"".toList := by
      have unit : Json.SpellsUnit 0x74 ['\\', 'u', '0', '0', '7', '4'] := by
        apply Json.SpellsUnit.intro <;> decide
      have first := Json.SpellsChar.units (c := 't') (.cons unit .nil)
      have each : List.Forall₂ Json.SpellsChar "type".toList _ :=
        .cons first (.cons (raw 'y' (by decide)) (.cons (raw 'p' (by decide))
          (.cons (raw 'e' (by decide)) .nil)))
      exact .string each
    have slash : Json.SpellsToken (.string (some "/")) "\"\\/\"".toList := by
      have each : List.Forall₂ Json.SpellsChar "/".toList [['\\', '/']] :=
        .cons (.short (by decide)) .nil
      exact .string each
    have text : Json.SpellsToken (.string (some "😀é")) "\"\\uD83D\\ude00é\"".toList := by
      have high : Json.SpellsUnit 0xD83D ['\\', 'u', 'D', '8', '3', 'D'] := by
        apply Json.SpellsUnit.intro <;> decide
      have low : Json.SpellsUnit 0xDE00 ['\\', 'u', 'd', 'e', '0', '0'] := by
        apply Json.SpellsUnit.intro <;> decide
      have first := Json.SpellsChar.units (c := '😀') (.cons high (.cons low .nil))
      have each : List.Forall₂ Json.SpellsChar "😀é".toList _ :=
        .cons first (.cons (raw 'é' (by decide)) .nil)
      exact .string each
    have all := Json.SpellsAll.cons none_ .openObject <| .cons none_ (plain "x") <|
      .cons none_ .colon <| .cons none_ (.integer true 0) <| .cons none_ .comma <|
      .cons none_ tag <| .cons none_ .colon <| .cons none_ (plain "done") <| .cons none_ .comma <|
      .cons space (plain "error") <| .cons none_ .colon <| .cons none_ .openObject <|
      .cons none_ (plain "type") <| .cons none_ .colon <| .cons none_ .null <| .cons none_ .comma <|
      .cons none_ (plain "y") <| .cons none_ .colon <| .cons none_ slash <| .cons none_ .comma <|
      .cons none_ (plain "message") <| .cons none_ .colon <| .cons none_ text <|
      .cons none_ .closeObject <| .cons none_ .comma <| .cons none_ (plain "id") <|
      .cons none_ .colon <| .cons none_ (.integer false 7) <| .cons none_ .closeObject <|
      .nil newline
    exact (congrArg (Json.SpellsAll value.tokens) (by decide +kernel)).mp all
  have inRange : ∀ m ∈ further, InRange m.2 := by
    have zero : (⟨true, Json.digits 0, none, none⟩ : Json.Numeral).inRange = true := by decide +kernel
    simp [further, InRange, Value.text, zero]
  exact ⟨room, encoded, spelled, inRange, (decode?_of_encodedBy room encoded spelled).1 inRange⟩

/-- A further member that is ten to the power of 400 makes a line unreadable. -/
theorem exists_encodedBy_decode?_eq_none :
    let huge := Value.number ⟨false, 1 :: List.replicate 400 0, none, none⟩
    let value := Value.record [("type", .text "ready"), ("version", .text "1"), ("n", huge)]
    let line := String.ofList ("\x7b\"type\":\"ready\",\"version\":\"1\",\"n\":1".toList ++
      List.replicate 400 '0' ++ ['\x7d'])
    (ready "1").HasRoom ∧ (ready "1").EncodedBy [("n", huge)] value ∧ value.SpelledBy line ∧
      decode? line = none := by
  intro huge value line
  have room : (ready "1").HasRoom := trivial
  have integer : Value.nat (10 ^ 400) = huge := Json.nat_pow_ten 400
  have scalar : IsScalar huge := by
    rw [← integer]
    exact isScalar_nat _
  have encoded : (ready "1").EncodedBy [("n", huge)] value :=
    .ready (.intro (.refl _) (fun _ => .inl) (by simp [scalar]) (.refl _))
  have plain : value.Plain := by
    have number : huge.Plain := by
      rw [← integer]
      exact Json.plain_nat _
    apply Json.plain_record
    simp [number, Json.plain_text]
  have written : value.write = line := congrArg String.ofList (by decide +kernel)
  have spelled : value.SpelledBy line := written ▸ Json.spelledBy_write plain
  have out : ¬InRange huge := by
    show ¬Json.Numeral.inRange ⟨false, 1 :: List.replicate 400 0, none, none⟩ = true
    decide +kernel
  have lost : ¬value.Keeps := fun kept =>
    out ((keeps_iff_of_encodedBy room encoded).1 kept _ (List.mem_singleton_self _))
  refine ⟨room, encoded, spelled, ?_⟩
  rw [decode?_eq_ite room encoded spelled]
  exact if_neg lost

end Event

end SnippetRunner.Wire
