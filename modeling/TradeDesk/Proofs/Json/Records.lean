import TradeDesk.Instrument
import TradeDesk.Proofs.Json.Reading

/-!
# Records are read from their members in any order

A record is written as members with different keys. Whatever order they are read in, every field is
found under its name, so the record that comes out is the one that was written.
-/

namespace TradeDesk.Json

variable {α β : Type}

/-! ### What readers of fields make of members -/

namespace FieldReader

/-- The members of an object as the fields of a record. -/
def fieldsOf (members : List (String × Value)) : Fields :=
  .byName (members.map fun m ↦ (m.1, m.2.document))

/-- Some fields, read from members in any order, are `a`, and all members are still there. -/
def Reads (r : FieldReader α) (depth : Nat) (members : List (String × Value)) (a : α) : Prop :=
  ∀ moved : List (String × Value), moved.Perm members →
    r depth (fieldsOf moved) = some (a, fieldsOf moved)

variable {r : FieldReader α} {depth : Nat} {members : List (String × Value)} {name : String}
  {v : Value} {a : α}

theorem Reads.pure (a : α) : Reads (Pure.pure a) depth members a := fun _ _ ↦ rfl

theorem Reads.bind {f : α → FieldReader β} {b : β} (hr : Reads r depth members a)
    (hf : Reads (f a) depth members b) : Reads (r >>= f) depth members b := by
  intro moved hmoved
  change (r depth (fieldsOf moved)).bind (fun p ↦ f p.1 depth p.2) = _
  rw [hr moved hmoved, Option.bind_some]
  exact hf moved hmoved

/-- The one member of a name. -/
theorem filter_eq_singleton (hkeys : (members.map Prod.fst).Nodup) (hmem : (name, v) ∈ members) :
    members.filter (fun m ↦ m.1 = name) = [(name, v)] := by
  induction members with
  | nil => cases hmem
  | cons m rest ih =>
    obtain ⟨hm, hrest⟩ := List.nodup_cons.mp hkeys
    cases List.mem_cons.mp hmem with
    | inl heq =>
      subst heq
      have hnone : rest.filter (fun m ↦ m.1 = name) = [] := by
        simp only [List.filter_eq_nil_iff, decide_eq_true_eq]
        intro n hn heq
        exact hm (List.mem_map.mpr ⟨n, hn, heq⟩)
      rw [List.filter_cons_of_pos (by simp), hnone]
    | inr hmem =>
      have hne : m.1 ≠ name := fun heq ↦ hm (List.mem_map.mpr ⟨(name, v), hmem, heq.symm⟩)
      rw [List.filter_cons_of_neg (by simpa using hne), ih hrest hmem]

/-- Among members, a name has what its one member says, or nothing. -/
theorem next_byName {documents : List (String × Document)}
    (h : (documents.filter fun m ↦ m.1 = name).length ≤ 1) :
    next name depth (.byName documents) =
      some ((documents.filter fun m ↦ m.1 = name).head?.map Prod.snd, .byName documents) := by
  unfold next
  simp only [bind, ReaderT.bind, StateT.bind, get, getThe, MonadStateOf.get, liftM, monadLift,
    MonadLift.monadLift, StateT.get, Pure.pure, Option.bind_some]
  cases hfound : documents.filter fun m ↦ m.1 = name with
  | nil => rfl
  | cons m rest =>
    cases rest with
    | nil => rfl
    | cons n rest => simp [hfound] at h

theorem filter_documents (members : List (String × Value)) (name : String) :
    (members.map fun m ↦ (m.1, m.2.document)).filter (fun m ↦ m.1 = name) =
      (members.filter fun m ↦ m.1 = name).map fun m ↦ (m.1, m.2.document) :=
  List.filter_map

theorem reads_next (hkeys : (members.map Prod.fst).Nodup) (hmem : (name, v) ∈ members) :
    Reads (next name) depth members (some v.document) := by
  intro moved hmoved
  have hone : moved.filter (fun m ↦ m.1 = name) = [(name, v)] :=
    filter_eq_singleton ((hmoved.map Prod.fst).nodup_iff.mpr hkeys) (hmoved.mem_iff.mpr hmem)
  rw [fieldsOf, next_byName (by simp [filter_documents, hone]), filter_documents, hone]
  rfl

theorem reads_next_none (hname : ∀ m ∈ members, m.1 ≠ name) :
    Reads (next name) depth members none := by
  intro moved hmoved
  have hnone : moved.filter (fun m ↦ m.1 = name) = [] := by
    simp only [List.filter_eq_nil_iff, decide_eq_true_eq]
    exact fun m hm ↦ hname m (hmoved.mem_iff.mp hm)
  rw [fieldsOf, next_byName (by simp [filter_documents, hnone]), filter_documents, hnone]
  rfl

theorem reads_document [Codec α] {d : Document} (hread : Codec.read depth d = some a) :
    Reads (fun depth fields ↦ (Codec.read depth d).map (·, fields)) depth members a := by
  intro moved _
  change (Codec.read depth d).map (·, fieldsOf moved) = _
  rw [hread, Option.map_some]

/-- A field that must be there is read from the member of its name. -/
theorem reads_required [Codec α] (hkeys : (members.map Prod.fst).Nodup)
    (hmem : (name, v) ∈ members) (hread : Codec.read depth v.document = some a) :
    Reads (required name) depth members a :=
  Reads.bind (reads_next hkeys hmem) (reads_document hread)

/-- So is one with a value for when it is missing. -/
theorem reads_optional [Codec α] (hkeys : (members.map Prod.fst).Nodup)
    (hmem : (name, v) ∈ members) (default : α) (hread : Codec.read depth v.document = some a) :
    Reads (optional name default) depth members a :=
  Reads.bind (reads_next hkeys hmem) (reads_document hread)

theorem reads_optional_none [Codec α] (hname : ∀ m ∈ members, m.1 ≠ name) (default : α) :
    Reads (optional name default) depth members default :=
  Reads.bind (reads_next_none hname) (Reads.pure default)

/-! ### Records -/

theorem members?_documents (members : List (String × Value)) :
    members? (members.map fun m ↦ (some m.1, m.2.document)) =
      some (members.map fun m ↦ (m.1, m.2.document)) :=
  Value.mapM_map_eq_some fun _ _ ↦ rfl

/-- A record is read from an object with its members in any order. -/
theorem Reads.record (hr : Reads r depth members a) {moved : List (String × Value)}
    (hmoved : moved.Perm members) :
    record r (depth + 1) (Value.object moved).document = some a := by
  have hread := hr moved hmoved
  rw [Value.document, Value.memberDocuments_eq]
  change (members? _).bind (fun fields ↦ (r depth (.byName fields)).bind fun p ↦ some p.1) = _
  rw [members?_documents, Option.bind_some]
  change (r depth (fieldsOf moved)).bind _ = _
  rw [hread, Option.bind_some]

/-- So is a keyed record, whose members of other names than its own must be readable as values. -/
theorem Reads.keyedRecord (hr : Reads r depth members a) (names : List String)
    (hlegible : ∀ m ∈ members, m.1 ∈ names ∨ m.2.Legible depth) {moved : List (String × Value)}
    (hmoved : moved.Perm members) :
    keyedRecord names r (depth + 1) (Value.object moved).document = some a := by
  have hread := hr moved hmoved
  have hall : (moved.map fun m ↦ (m.1, m.2.document)).all
      (fun m ↦ names.contains m.1 || (m.2.toValue? depth).isSome) = true := by
    simp only [List.all_map, List.all_eq_true, Function.comp_apply, Bool.or_eq_true]
    intro m hm
    refine (hlegible m (hmoved.mem_iff.mp hm)).imp List.contains_iff_mem.mpr fun hm ↦ ?_
    rw [hm.toValue?_document]
    rfl
  rw [Value.document, Value.memberDocuments_eq]
  unfold FieldReader.keyedRecord
  simp only [members?_documents, Option.bind_eq_bind, Option.bind_some, hall, if_true]
  change (r depth (fieldsOf moved)).bind _ = _
  rw [hread]
  rfl

/-! ### Where a record was read from -/

theorem bind_eq_some_iff {f : α → FieldReader β} {fields : Fields} {p : β × Fields} :
    (r >>= f) depth fields = some p ↔
      ∃ q, r depth fields = some q ∧ f q.1 depth q.2 = some p :=
  Option.bind_eq_some_iff

/-- A field that must be there was read from some document. -/
theorem exists_of_required [Codec α] {fields : Fields} {p : α × Fields}
    (h : required name depth fields = some p) : ∃ d, Codec.read depth d = some p.1 := by
  obtain ⟨⟨found, rest⟩, -, hread⟩ := bind_eq_some_iff.mp h
  cases found with
  | none => cases hread
  | some d =>
    obtain ⟨a, ha, rfl⟩ := Option.map_eq_some_iff.mp hread
    exact ⟨d, ha⟩

/-- A field with a value for when it is missing has that value, or was read from some document. -/
theorem eq_or_exists_of_optional [Codec α] {default : α} {fields : Fields} {p : α × Fields}
    (h : optional name default depth fields = some p) :
    p.1 = default ∨ ∃ d, Codec.read depth d = some p.1 := by
  obtain ⟨⟨found, rest⟩, -, hread⟩ := bind_eq_some_iff.mp h
  cases found with
  | none =>
    cases hread
    exact Or.inl rfl
  | some d =>
    obtain ⟨a, ha, rfl⟩ := Option.map_eq_some_iff.mp hread
    exact Or.inr ⟨d, ha⟩

/-- A record takes one container for itself, and its fields are read from the members of an object
or the items of an array. -/
theorem exists_of_record {d : Document} (h : record r (depth + 1) d = some a) :
    ∃ fields rest, r depth fields = some (a, rest) := by
  cases d with
  | object members =>
    obtain ⟨documents, -, hread⟩ := Option.bind_eq_some_iff.mp h
    obtain ⟨⟨a, rest⟩, hr, ⟨⟩⟩ := Option.bind_eq_some_iff.mp hread
    exact ⟨_, rest, hr⟩
  | array items =>
    obtain ⟨⟨a, rest⟩, hr, hrest⟩ := Option.bind_eq_some_iff.mp h
    cases rest with
    | byName => cases hrest
    | byPlace left =>
      cases left with
      | cons => cases hrest
      | nil =>
        cases hrest
        exact ⟨_, _, hr⟩
  | _ => cases h

/-- So are those of a keyed record, from the members of an object. -/
theorem exists_of_keyedRecord {names : List String} {d : Document}
    (h : keyedRecord names r (depth + 1) d = some a) : ∃ fields rest, r depth fields = some (a, rest) := by
  cases d with
  | object members =>
    obtain ⟨documents, -, hread⟩ := Option.bind_eq_some_iff.mp h
    split at hread
    · obtain ⟨⟨a, rest⟩, hr, ⟨⟩⟩ := Option.bind_eq_some_iff.mp hread
      exact ⟨_, rest, hr⟩
    · cases hread
  | _ => cases h

end FieldReader

/-! ### Fields -/

namespace Codec

variable {depth : Nat}

theorem integerIn_ofInt {low high n : Int} (h : low ≤ n ∧ n ≤ high) :
    integerIn low high (.number (.ofInt n)) = some n := by
  rw [integerIn, Numeral.toInt?_ofInt, Option.filter_some, if_pos (decide_eq_true h)]

theorem read_uint32 (n : UInt32) : read depth (write n).document = some n := by
  have hn : (0 : Int) ≤ n.toNat ∧ (n.toNat : Int) ≤ UInt32.size - 1 := by
    have := n.toNat_lt_size
    omega
  change (integerIn 0 (UInt32.size - 1) (.number (.ofInt n.toNat))).map _ = _
  rw [integerIn_ofInt hn, Option.map_some, Int.toNat_natCast, UInt32.ofNat_toNat]

theorem read_uint64 (n : UInt64) : read depth (write n).document = some n := by
  have hn : (0 : Int) ≤ n.toNat ∧ (n.toNat : Int) ≤ UInt64.size - 1 := by
    have := n.toNat_lt_size
    omega
  change (integerIn 0 (UInt64.size - 1) (.number (.ofInt n.toNat))).map _ = _
  rw [integerIn_ofInt hn, Option.map_some, Int.toNat_natCast, UInt64.ofNat_toNat]

theorem read_int64 (n : Int64) : read depth (write n).document = some n := by
  change (integerIn _ _ (.number (.ofInt n.toInt))).map _ = _
  rw [integerIn_ofInt ⟨n.minValue_le_toInt, n.toInt_le⟩, Option.map_some, Int64.ofInt_toInt]

theorem read_int32 (n : Int32) : read depth (write n).document = some n := by
  change (integerIn _ _ (.number (.ofInt n.toInt))).map _ = _
  rw [integerIn_ofInt ⟨n.minValue_le_toInt, n.toInt_le⟩, Option.map_some, Int32.ofInt_toInt]

theorem read_string (s : String) : read depth (write s).document = some s := rfl

theorem read_float {x : Float} (h : ReadsBack x) : read depth (write x).document = some x :=
  (numeral?_float h).2.2

end Codec

/-! ### Records that are read in any order -/

namespace Value

/-- A value inside a record with no members of its own: text, a number, or a list of these. -/
structure Plain (v : Value) : Prop where
  legible : v.Legible 1
  arranged : v.arrange = v

theorem plain_text (s : String) : Plain (.text s) := ⟨.text s, rfl⟩

theorem legible_uint32 (n : UInt32) {depth : Nat} : Legible depth (Codec.write n) :=
  have hlow : Int64.minValue.toInt ≤ 0 := by decide
  have hhigh : (n.toNat : Int) < UInt64.size :=
    Int.lt_trans (Int.ofNat_lt.mpr n.toNat_lt_size) (by decide)
  .int ⟨Int.le_trans hlow (Int.natCast_nonneg _), hhigh⟩

theorem plain_int64 (n : Int64) : Plain (Codec.write n) :=
  ⟨.int ⟨n.minValue_le_toInt, Int.lt_trans n.toInt_lt (by decide)⟩, rfl⟩

theorem plain_int32 (n : Int32) : Plain (Codec.write n) :=
  ⟨.int ⟨Int.le_trans (by decide) n.le_toInt, Int.lt_trans n.toInt_lt (by decide)⟩, rfl⟩

theorem plain_float {x : Float} (h : ReadsBack x) : Plain (Codec.write x) := ⟨.float h, rfl⟩

theorem plain_strings (items : List String) : Plain (Codec.write items) := by
  refine ⟨.array fun v hv ↦ ?_, ?_⟩
  · obtain ⟨s, -, rfl⟩ := List.mem_map.mp hv
    exact .text s
  · change Value.array (arrangeItems (items.map Codec.write)) = .array (items.map Codec.write)
    rw [arrangeItems_eq, List.map_map]
    rfl

end Value

/-- How many containers deep a field may be inside its record. -/
abbrev fieldDepth : Nat := Document.depthLimit - 1

/-- A record is written as members with different keys, none of which has members of its own, and
is read from them in any order. -/
structure Carries [Codec α] (a : α) (members : List (String × Value)) : Prop where
  written : Codec.write a = .object members
  distinct : (members.map Prod.fst).Nodup
  plain : ∀ m ∈ members, m.2.Plain
  read : ∀ moved : List (String × Value), moved.Perm members →
    Codec.read Document.depthLimit (Value.object moved).document = some a

namespace Carries

variable [Codec α] {a : α} {members : List (String × Value)}

theorem legible (h : Carries a members) : Value.Legible 2 (Codec.write a) := by
  rw [h.written]
  exact .object fun m hm ↦ (h.plain m hm).legible

theorem arrange_write (h : Carries a members) :
    (Codec.write a).arrange = .object (Value.putInOrder members) := by
  have hplain : ∀ m ∈ members, (m.1, m.2.arrange) = m := fun m hm ↦
    Prod.ext rfl (h.plain m hm).arranged
  rw [h.written, Value.arrange, Value.arrangeMembers_eq, List.map_congr_left hplain, List.map_id']

/-- Put in order and written again, the record is still read. -/
theorem parse?_arrange (h : Carries a members) :
    Codec.parse? (Codec.write a).arrange.write = some a := by
  rw [Codec.parse?, Value.parse?_write _ h.legible.arrange.readsBack, Option.bind_some,
    h.arrange_write]
  exact h.read _ (Value.putInOrder_perm h.distinct)

end Carries

end TradeDesk.Json

namespace TradeDesk.Instrument

open Json
open Json.FieldReader (Reads reads_required)

/-! ### The names of an instrument -/

variable {members : List (String × Value)} {depth : Nat}

theorem reads_fields (k : Instrument) (hkeys : (members.map Prod.fst).Nodup)
    (hmem : ∀ m ∈ k.members, m ∈ members) : Reads fields depth members k := by
  simp only [Instrument.members, List.forall_mem_cons] at hmem
  obtain ⟨hexchange, hsymbol, hcontract, -⟩ := hmem
  apply Reads.bind (reads_required hkeys hexchange (Codec.read_string k.exchange))
  apply Reads.bind (reads_required hkeys hsymbol (Codec.read_string k.symbol))
  apply Reads.bind (reads_required hkeys hcontract (Codec.read_string k.contract))
  exact Reads.pure k

theorem legible_members (k : Instrument) : ∀ m ∈ k.members, m.2.Legible depth := by
  simp only [Instrument.members, List.forall_mem_cons]
  exact ⟨.text _, .text _, .text _, nofun⟩

theorem plain_members (k : Instrument) : ∀ m ∈ k.members, m.2.Plain := by
  simp only [Instrument.members, List.forall_mem_cons]
  exact ⟨Value.plain_text _, Value.plain_text _, Value.plain_text _, nofun⟩

end TradeDesk.Instrument
