import SnippetRunner.Proofs.Driver.Values
import SnippetRunner.Proofs.Json.Keeping
import SnippetRunner.Wire.Event

/-!
# What the drivers' lines say

A line of a driver is read as its event, provided that every string in it denotes a text and every
number has room in its field. A string that denotes no text makes the whole line unreadable, since no
part of it may be left out.
-/

namespace SnippetRunner.Wire

open SnippetRunner.Json (Decoder Value)

/-! ## Events and faults by their members -/

/-- The event that a request is done, from its members. -/
theorem Event.ofJson?_done (id fault : Value) :
    ofJson? (.object [(some "type", .string (some "done")), (some "id", id),
      (some "error", fault)]) =
      (Decoder.word 64 id).bind fun id =>
        (Decoder.optional RawFault.ofJson? fault).bind fun fault => some (.done id fault) := by
  have members : Decoder.fields ["id", "error"] false
      (.object [(some "id", id), (some "error", fault)]) = some [some id, some fault] := by
    simp [Decoder.fields, Decoder.members]
  simp [ofJson?, ofBody?, members, Decoder.required, Decoder.withDefault]

/-- An output event, from its members. -/
theorem Event.ofJson?_output (c : Channel) (id text : Value) :
    ofJson? (.object [(some "type", .string (some c.name)), (some "id", id),
      (some "text", text)]) =
      (Decoder.word 64 id).bind fun id =>
        (Decoder.text text).bind fun text => some (.output c id text) := by
  have members : Decoder.fields ["id", "text"] false
      (.object [(some "id", id), (some "text", text)]) = some [some id, some text] := by
    simp [Decoder.fields, Decoder.members]
  cases c <;> simp [ofJson?, ofBody?, ofBody?.output?, members, Decoder.required, Channel.name]

/-- A fault with its position, from its members. -/
theorem RawFault.ofJson?_positioned (message kind line column : Value) :
    ofJson? (.object [(some "message", message), (some "type", kind), (some "line", line),
      (some "column", column)]) =
      (Decoder.text message).bind fun message =>
        (Decoder.optional Decoder.text kind).bind fun kind =>
          (Decoder.optional Decoder.signed line).bind fun line =>
            (Decoder.optional Decoder.signed column).bind fun column =>
              some ⟨message, kind, line, column⟩ := by
  simp [ofJson?, Decoder.fields, Decoder.members, Decoder.withDefault]

/-- A fault without a position, from its members. -/
theorem RawFault.ofJson?_bare (message kind : Value) :
    ofJson? (.object [(some "message", message), (some "type", kind)]) =
      (Decoder.text message).bind fun message =>
        (Decoder.optional Decoder.text kind).bind fun kind =>
          some ⟨message, kind, none, none⟩ := by
  simp [ofJson?, Decoder.fields, Decoder.members, Decoder.withDefault]

end SnippetRunner.Wire

namespace SnippetRunner.Driver

open SnippetRunner.Json (Decoder Value)
open SnippetRunner.Wire (RawFault)

variable {d : Dialect}

/-! ## Reports -/

/-- A number that has room in a field of 64 bits with a sign. -/
def HasRoom (i : Int) : Prop := -(2 ^ 63) ≤ i ∧ i < 2 ^ 63

/-- A string with the units of some text. -/
def Dialect.IsText (d : Dialect) (s : d.Str) : Prop := ∃ t, d.units s = Text.utf16 t

namespace Report

/-- The line of a report. -/
def line {σ : Type} (r : Report σ) : Option Int := r.position.bind Prod.fst

/-- The column of a report. -/
def column {σ : Type} (r : Report σ) : Option Int := r.position.bind Prod.snd

/-- The report says what the fault says. -/
structure Says (r : Report d.Str) (raw : RawFault) : Prop where
  message : d.text? r.message = some raw.message
  kind : r.kind.map d.text? = raw.kind.map some
  line : r.line = raw.line
  column : r.column = raw.column
  lineFits : ∀ i ∈ raw.line, HasRoom i
  columnFits : ∀ i ∈ raw.column, HasRoom i

end Report

theorem signed_int {i j : Int} : Decoder.signed (.int i) = some j ↔ i = j ∧ HasRoom j := by
  have bounds : (-(Int.pow 2 63) ≤ i ∧ i ≤ Int.pow 2 63 - 1) ↔ HasRoom i := by
    show (-9223372036854775808 ≤ i ∧ i ≤ 9223372036854775808 - 1) ↔ _
    unfold HasRoom
    omega
  unfold Decoder.signed
  rw [Json.int_int, Option.ite_none_right_eq_some, bounds, Option.some.injEq]
  constructor
  · rintro ⟨room, rfl⟩
    exact ⟨rfl, room⟩
  · rintro ⟨rfl, room⟩
    exact ⟨room, rfl⟩

/-- A number of a report, which may be absent. -/
theorem optional_number {i j : Option Int} :
    Decoder.optional Decoder.signed (Report.optional .number i : Datum d.Str).value = some j ↔
      i = j ∧ ∀ n ∈ j, HasRoom n := by
  cases i with
  | none =>
    show some none = some j ↔ _
    rw [Option.some.injEq]
    constructor
    · rintro rfl
      exact ⟨rfl, fun n h => absurd h (by simp)⟩
    · exact And.left
  | some i =>
    show (Decoder.signed (.int i)).map some = some j ↔ _
    rw [Option.map_eq_some_iff]
    constructor
    · rintro ⟨n, read, rfl⟩
      obtain ⟨rfl, room⟩ := signed_int.1 read
      exact ⟨rfl, fun n is => Option.some.inj is ▸ room⟩
    · rintro ⟨rfl, room⟩
      exact ⟨i, signed_int.2 ⟨rfl, room i rfl⟩, rfl⟩

/-- A string of a report, which may be absent. -/
theorem optional_string {s : Option d.Str} {t : Option String} :
    Decoder.optional Decoder.text (Report.optional .string s).value = some t ↔
      s.map d.text? = t.map some := by
  cases s with
  | none =>
    show some none = some t ↔ none = t.map some
    cases t <;> simp
  | some s =>
    show (d.text? s).map some = some t ↔ some (d.text? s) = t.map some
    cases t <;> simp

/-- The members of a report that has a position. -/
theorem value_positioned (message : d.Str) (kind : Option d.Str) (line column : Option Int) :
    (Report.datum ⟨message, kind, some (line, column)⟩).value =
      .object [(some "message", .string (d.text? message)),
        (some "type", (Report.optional .string kind).value),
        (some "line", (Report.optional .number line : Datum d.Str).value),
        (some "column", (Report.optional .number column : Datum d.Str).value)] := rfl

/-- The members of a report that has none. -/
theorem value_bare (message : d.Str) (kind : Option d.Str) :
    (Report.datum ⟨message, kind, none⟩).value =
      .object [(some "message", .string (d.text? message)),
        (some "type", (Report.optional .string kind).value)] := rfl

/-- A report is read as what it says. -/
theorem ofJson?_datum {r : Report d.Str} {raw : RawFault} :
    RawFault.ofJson? r.datum.value = some raw ↔ r.Says raw := by
  obtain ⟨message, kind, position⟩ := r
  obtain ⟨text, name, line, column⟩ := raw
  cases position with
  | none =>
    rw [value_bare, RawFault.ofJson?_bare]
    simp only [Option.bind_eq_some_iff, optional_string, Option.some.injEq, RawFault.mk.injEq]
    constructor
    · rintro ⟨_, message, _, kind, rfl, rfl, rfl, rfl⟩
      exact ⟨message, kind, rfl, rfl, fun i h => absurd h (by simp), fun i h => absurd h (by simp)⟩
    · rintro ⟨message, kind, line, column, -, -⟩
      exact ⟨_, message, _, kind, rfl, rfl, line, column⟩
  | some position =>
    obtain ⟨l, c⟩ := position
    rw [value_positioned, RawFault.ofJson?_positioned]
    simp only [Option.bind_eq_some_iff, optional_string, optional_number, Option.some.injEq,
      RawFault.mk.injEq]
    constructor
    · rintro ⟨_, message, _, kind, _, ⟨rfl, lineFits⟩, _, ⟨rfl, columnFits⟩, rfl, rfl, rfl, rfl⟩
      exact ⟨message, kind, rfl, rfl, lineFits, columnFits⟩
    · rintro ⟨message, kind, line, column, lineFits, columnFits⟩
      exact ⟨_, message, _, kind, _, ⟨line, lineFits⟩, _, ⟨column, columnFits⟩, rfl, rfl, rfl, rfl⟩

/-! ## Lines -/

/-- A line is read as the event that its members are, if all parts of it can be kept. -/
theorem decode?_line {ms : List (String × Datum d.Str)} {event : Wire.Event}
    (shallow : Json.nesting (Datum.object ms).value.tokens ≤ Json.maxNesting) :
    Wire.Event.decode? (d.line (.object ms)) = some event ↔
      (Datum.object ms).value.Keeps ∧ Wire.Event.ofJson? (Datum.object ms).value = some event := by
  unfold Wire.Event.decode? Value.Keeps
  rw [Json.parseKept?_of_shallow (Datum.tokens?_line _) shallow]
  cases (Datum.object ms).value.tokens.all Json.Token.kept with
  | false =>
    show none = some event ↔ false = true ∧ _
    simp
  | true =>
    show Wire.Event.ofJson? (Datum.object ms).value = some event ↔ true = true ∧ _
    simp

/-- Numbers that have room can be kept. -/
theorem keeps_optional_number {i : Option Int} (room : ∀ n ∈ i, HasRoom n) :
    (Report.optional .number i : Datum d.Str).value.Keeps := by
  cases i with
  | none => rfl
  | some i =>
    have fits := room i rfl
    apply Json.keeps_int
    unfold HasRoom at fits
    show i.natAbs ≤ 18446744073709551615
    omega

/-- Strings that denote texts can be kept. -/
theorem keeps_optional_string {s : Option d.Str} {t : Option String}
    (texts : s.map d.text? = t.map some) : (Report.optional .string s).value.Keeps := by
  cases s with
  | none => rfl
  | some s =>
    cases t with
    | none => cases texts
    | some t =>
      have text : d.text? s = some t := Option.some.inj texts
      apply Json.keeps_string.2
      rw [text]
      rfl

/-- A report that says something can be kept. -/
theorem Report.Says.keeps {r : Report d.Str} {raw : RawFault} (h : r.Says raw) :
    r.datum.value.Keeps := by
  obtain ⟨message, kind, position⟩ := r
  have text : (Value.string (d.text? message)).Keeps := by
    apply Json.keeps_string.2
    rw [h.message]
    rfl
  have name := keeps_optional_string h.kind
  cases position with
  | none =>
    rw [value_bare, Json.keeps_object]
    simp [text, name]
  | some position =>
    obtain ⟨l, c⟩ := position
    have sameLine : l = raw.line := h.line
    have sameColumn : c = raw.column := h.column
    have line : (Report.optional .number l : Datum d.Str).value.Keeps :=
      keeps_optional_number (sameLine ▸ h.lineFits)
    have column : (Report.optional .number c : Datum d.Str).value.Keeps :=
      keeps_optional_number (sameColumn ▸ h.columnFits)
    rw [value_positioned, Json.keeps_object]
    simp [text, name, line, column]

theorem keeps_id (id : UInt64) : (Value.int id.toNat).Keeps :=
  Json.keeps_int (Nat.le_of_lt_succ id.toNat_lt)

/-- What the event that a request is done says about an exception, or that there was none. -/
def SaysOf (report : Option (Report d.Str)) (fault : Option RawFault) : Prop :=
  match report, fault with
  | none, none => True
  | some r, some raw => r.Says raw
  | _, _ => False

/-- The fault of a done request is read as what its report says. -/
theorem optional_report {report : Option (Report d.Str)} {fault : Option RawFault} :
    Decoder.optional RawFault.ofJson? (Report.optional Report.datum report).value = some fault ↔
      SaysOf report fault := by
  cases report with
  | none =>
    show some none = some fault ↔ _
    cases fault <;> simp [SaysOf]
  | some r =>
    show (RawFault.ofJson? r.datum.value).map some = some fault ↔ _
    cases fault with
    | none => simp [SaysOf]
    | some raw =>
      rw [Option.map_eq_some_iff]
      constructor
      · rintro ⟨_, read, same⟩
        exact ofJson?_datum.1 (Option.some.inj same ▸ read)
      · intro told
        exact ⟨raw, ofJson?_datum.2 told, rfl⟩

theorem SaysOf.keeps {report : Option (Report d.Str)} {fault : Option RawFault}
    (h : SaysOf report fault) : (Report.optional Report.datum report).value.Keeps := by
  cases report with
  | none => rfl
  | some r =>
    cases fault with
    | none => exact h.elim
    | some raw => exact Report.Says.keeps h

/-- A request that is done is read as such exactly where its report says something. -/
theorem decode?_done {id : UInt64} {report : Option (Report d.Str)} {event : Wire.Event} :
    Wire.Event.decode? (d.line (d.done id report)) = some event ↔
      ∃ fault, SaysOf report fault ∧ event = .done id.toNat fault := by
  have shallow : Json.nesting (d.done id report).value.tokens ≤ Json.maxNesting := by
    -- how deep the values nest depends on which members there are, not on what they hold
    rcases report with _ | ⟨message, _ | kind, _ | ⟨_ | line, _ | column⟩⟩ <;>
      exact Nat.le_of_ble_eq_true rfl
  have members : (d.done id report).value = .object [(some "type", .string (some "done")),
      (some "id", .int id.toNat), (some "error", (Report.optional Report.datum report).value)] := by
    rw [← d.text?_ofString "done"]
    rfl
  have number : Decoder.word 64 (.int id.toNat) = some id.toNat := Json.word_int id.toNat_lt
  refine (decode?_line shallow).trans ?_
  show (d.done id report).value.Keeps ∧ Wire.Event.ofJson? (d.done id report).value = _ ↔ _
  rw [members, Wire.Event.ofJson?_done, number, Json.keeps_object]
  simp only [Option.bind_some, Option.bind_eq_some_iff, optional_report, Option.some.injEq]
  constructor
  · rintro ⟨-, fault, told, rfl⟩
    exact ⟨fault, told, rfl⟩
  · rintro ⟨fault, told, rfl⟩
    -- a report that says something has no part that cannot be kept
    refine ⟨?_, fault, told, rfl⟩
    have known : (Value.string (some "done")).Keeps := rfl
    simp [known, keeps_id id, told.keeps]

/-- A piece of output is read as such exactly where it denotes a text. -/
theorem decode?_output {c : Channel} {id : UInt64} {piece : d.Str} {event : Wire.Event} :
    Wire.Event.decode? (d.line (d.output c id piece)) = some event ↔
      ∃ text, d.text? piece = some text ∧ event = .output c id.toNat text := by
  have shallow : Json.nesting (d.output c id piece).value.tokens ≤ Json.maxNesting :=
    Nat.le_of_ble_eq_true rfl
  have members : (d.output c id piece).value = .object [(some "type", .string (some c.name)),
      (some "id", .int id.toNat), (some "text", .string (d.text? piece))] := by
    rw [← d.text?_ofString c.name]
    rfl
  have number : Decoder.word 64 (.int id.toNat) = some id.toNat := Json.word_int id.toNat_lt
  refine (decode?_line shallow).trans ?_
  show (d.output c id piece).value.Keeps ∧ Wire.Event.ofJson? (d.output c id piece).value = _ ↔ _
  rw [members, Wire.Event.ofJson?_output, number, Json.keeps_object]
  show _ ∧ Option.bind (some id.toNat) (fun id => (d.text? piece).bind _) = _ ↔ _
  simp only [Option.bind_some, Option.bind_eq_some_iff, Option.some.injEq]
  constructor
  · rintro ⟨-, text, told, rfl⟩
    exact ⟨text, told, rfl⟩
  · rintro ⟨text, told, rfl⟩
    refine ⟨?_, text, told, rfl⟩
    have known : (Value.string (some c.name)).Keeps := rfl
    have piece : (Value.string (d.text? piece)).Keeps := by
      rw [told]
      rfl
    simp [known, keeps_id id, piece]

end SnippetRunner.Driver
