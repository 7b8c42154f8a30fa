import TradeDesk.Proofs.Json.Records

/-!
# Types that are read as they were written

A type is faithful when each of its values is read back from what is written of it, and when no value
that is read holds a double that is not finite. Numbers and texts are; lists, pairs and records of
faithful parts are faithful too. The fields of a record in order, each with its place in the record,
are its `Layout`; writing, reading and the names all follow from it.
-/

namespace TradeDesk.Json

open FieldReader (Reads)
open Value (memberFloats)

/-- The values of a type are read back from what is written of them, if their doubles are, and a value
that is read holds finite doubles only. -/
class Faithful (α : Type) [Codec α] where
  /-- How many containers what is written may be deep. -/
  height : Nat
  read_write (a : α) {depth : Nat} : height ≤ depth → (∀ x ∈ (write a).floats, ReadsBack x) →
    read depth (write a).document = some a
  finite {depth : Nat} {d : Document} {a : α} : read depth d = some a →
    ∀ x ∈ (write a).floats, x.isFinite = true

namespace Faithful

variable {α β : Type} [Codec α] [Codec β]

/-! ### Numbers, texts and lists -/

section Laws

variable {depth : Nat} {d : Document}

private theorem finite_float {x : Float} (h : read depth d = some x) :
    ∀ y ∈ (write x).floats, y.isFinite = true := by
  cases d with
  | number n => exact List.forall_mem_singleton.mpr (Numeral.isFinite_of_toFloat? h)
  | _ => cases h

private theorem read_list [Faithful α] (items : List α) (hdepth : height α + 1 ≤ depth)
    (hitems : ∀ x ∈ (write items).floats, ReadsBack x) :
    read depth (write items).document = some items := by
  obtain ⟨depth, rfl⟩ := Nat.exists_eq_add_of_le' (Nat.le_trans (Nat.le_add_left 1 _) hdepth)
  change ∀ x ∈ Value.itemFloats (items.map write), ReadsBack x at hitems
  rw [Value.itemFloats_eq, List.forall_mem_flatMap, List.forall_mem_map] at hitems
  have hread : (items.map fun a ↦ (write a).document).mapM (read depth) = some (items.map id) :=
    Value.mapM_map_eq_some fun a ha ↦ read_write a (Nat.le_of_succ_le_succ hdepth) (hitems a ha)
  rw [List.map_id] at hread
  change (Value.itemDocuments (items.map write)).mapM (read depth) = some items
  rw [Value.itemDocuments_eq, List.map_map]
  exact hread

private theorem finite_list [Faithful α] {items : List α} (h : read depth d = some items) :
    ∀ x ∈ (write items).floats, x.isFinite = true := by
  match depth, d, h with
  | depth + 1, .array documents, h =>
    change ∀ x ∈ Value.itemFloats (items.map write), x.isFinite = true
    rw [Value.itemFloats_eq, List.forall_mem_flatMap, List.forall_mem_map]
    intro a ha
    obtain ⟨d, -, hd⟩ := Value.exists_of_mem_mapM h ha
    exact finite hd

private theorem read_pair [Faithful α] [Faithful β] (p : α × β) (hfirst : height α + 1 ≤ depth)
    (hsecond : height β + 1 ≤ depth) (hp : ∀ x ∈ (write p).floats, ReadsBack x) :
    read depth (write p).document = some p := by
  obtain ⟨depth, rfl⟩ := Nat.exists_eq_add_of_le' (Nat.le_trans (Nat.le_add_left 1 _) hfirst)
  change ∀ x ∈ Value.itemFloats [write p.1, write p.2], ReadsBack x at hp
  simp only [Value.itemFloats, List.append_nil, List.forall_mem_append] at hp
  change (read depth (write p.1).document).bind (fun a ↦
    (read depth (write p.2).document).bind fun b ↦ some (a, b)) = some p
  rw [read_write p.1 (Nat.le_of_succ_le_succ hfirst) hp.1, Option.bind_some,
    read_write p.2 (Nat.le_of_succ_le_succ hsecond) hp.2, Option.bind_some]

private theorem finite_pair [Faithful α] [Faithful β] {p : α × β} (h : read depth d = some p) :
    ∀ x ∈ (write p).floats, x.isFinite = true := by
  match depth, d, h with
  | depth + 1, .array [d, d'], h =>
    obtain ⟨a, ha, h⟩ := Option.bind_eq_some_iff.mp h
    obtain ⟨b, hb, ⟨⟩⟩ := Option.bind_eq_some_iff.mp h
    change ∀ x ∈ Value.itemFloats [write a, write b], x.isFinite = true
    simp only [Value.itemFloats, List.append_nil, List.forall_mem_append]
    exact ⟨finite ha, finite hb⟩

end Laws

/-- Values without doubles and with no container. -/
@[reducible]
def ofPlain (hfloats : ∀ a : α, (write a).floats = [])
    (hread : ∀ (a : α) (depth : Nat), read depth (write a).document = some a) : Faithful α where
  height := 0
  read_write a depth _ _ := hread a depth
  finite {_ _ a} _ := by
    rw [hfloats a]
    exact nofun

instance : Faithful Bool := ofPlain (fun _ ↦ rfl) fun _ _ ↦ rfl

instance : Faithful String := ofPlain (fun _ ↦ rfl) fun s _ ↦ Codec.read_string s

instance : Faithful UInt64 := ofPlain (fun _ ↦ rfl) fun n _ ↦ Codec.read_uint64 n

instance : Faithful Int64 := ofPlain (fun _ ↦ rfl) fun n _ ↦ Codec.read_int64 n

instance : Faithful Int32 := ofPlain (fun _ ↦ rfl) fun n _ ↦ Codec.read_int32 n

instance : Faithful Float where
  height := 0
  read_write x _ _ hx := Codec.read_float (hx x List.mem_cons_self)
  finite h := finite_float h

instance [Faithful α] : Faithful (List α) where
  height := height α + 1
  read_write items _ hdepth hitems := read_list items hdepth hitems
  finite h := finite_list h

instance [Faithful α] [Faithful β] : Faithful (α × β) where
  height := max (height α) (height β) + 1
  read_write p _ hdepth hp :=
    read_pair p (Nat.le_trans (Nat.succ_le_succ (Nat.le_max_left _ _)) hdepth)
      (Nat.le_trans (Nat.succ_le_succ (Nat.le_max_right _ _)) hdepth) hp
  finite h := finite_pair h

end Faithful

/-! ### Fields -/

/-- A field of a record, or fields that are read together: how it is written as members and read from
them, with the names it may use. It is read from any members among which those of its names are the
ones that were written of it. -/
structure FieldCodec (β : Type) where
  names : List String
  height : Nat
  written : β → List (String × Value)
  reader : FieldReader β
  named (b : β) : ((written b).map Prod.fst).Sublist names
  reads {depth : Nat} {members : List (String × Value)} (b : β) : height ≤ depth →
    (members.map Prod.fst).Nodup → (∀ m ∈ written b, m ∈ members) →
    (∀ m ∈ members, m.1 ∈ names → m ∈ written b) →
    (∀ x ∈ memberFloats (written b), ReadsBack x) → Reads reader depth members b
  finite {depth : Nat} {fields : Fields} {p : β × Fields} : reader depth fields = some p →
    ∀ x ∈ memberFloats (written p.1), x.isFinite = true

namespace FieldCodec

variable {β : Type} [Codec β] [Faithful β]

private theorem memberFloats_singleton (name : String) (v : Value) :
    memberFloats [(name, v)] = v.floats := List.append_nil _

/-- A field that must be there. -/
def required (name : String) : FieldCodec β where
  names := [name]
  height := Faithful.height β
  written b := [(name, write b)]
  reader := FieldReader.required name
  named _ := List.Sublist.refl _
  reads b hdepth hkeys hmem _ hb := by
    rw [memberFloats_singleton] at hb
    exact FieldReader.reads_required hkeys (hmem _ List.mem_cons_self)
      (Faithful.read_write b hdepth hb)
  finite h := by
    obtain ⟨d, hd⟩ := FieldReader.exists_of_required h
    rw [memberFloats_singleton]
    exact Faithful.finite hd

/-- A field with a value for when it is missing. -/
def withDefault (name : String) (default : β)
    (hdefault : ∀ x ∈ (write default).floats, x.isFinite = true) : FieldCodec β where
  names := [name]
  height := Faithful.height β
  written b := [(name, write b)]
  reader := FieldReader.optional name default
  named _ := List.Sublist.refl _
  reads b hdepth hkeys hmem _ hb := by
    rw [memberFloats_singleton] at hb
    exact FieldReader.reads_optional hkeys (hmem _ List.mem_cons_self) default
      (Faithful.read_write b hdepth hb)
  finite {_ _ p} h := by
    rw [memberFloats_singleton]
    cases FieldReader.eq_or_exists_of_optional h with
    | inl heq =>
      rw [heq]
      exact hdefault
    | inr hread =>
      obtain ⟨d, hd⟩ := hread
      exact Faithful.finite hd

/-- A double that is zero when it is missing. -/
def orZero (name : String) : FieldCodec Float := withDefault name 0.0 (by decide +kernel)

omit [Faithful β] in
/-- What is read as a value is read as an optional one, unless it is `null`. -/
private theorem read_some {depth : Nat} {d : Document} {b : β}
    (hnull : read (α := β) depth .null = none) :
    read depth d = some (some b) ↔ read depth d = some b := by
  cases d with
  | null =>
    rw [hnull]
    exact ⟨nofun, nofun⟩
  | _ =>
    change (read depth _).map some = _ ↔ _
    rw [Option.map_eq_some_iff]
    exact ⟨fun ⟨b', hb', heq⟩ ↦ Option.some.inj heq ▸ hb', fun hb ↦ ⟨b, hb, rfl⟩⟩

/-- A field that is left out when it holds nothing, and may also be `null` then. -/
def omittable (name : String) (hnull : ∀ depth, read (α := β) depth .null = none) :
    FieldCodec (Option β) where
  names := [name]
  height := Faithful.height β
  written o := (o.map fun b => (name, write b)).toList
  reader := FieldReader.optional name none
  named o := by
    cases o with
    | none => exact List.nil_sublist _
    | some b => exact List.Sublist.refl _
  reads {depth members} o hdepth hkeys hmem hown ho := by
    cases o with
    | none =>
      apply FieldReader.reads_optional_none
      intro m hm hname
      cases hown m hm (List.mem_singleton.mpr hname)
    | some b =>
      rw [Option.map_some, Option.toList_some, memberFloats_singleton] at ho
      apply FieldReader.reads_optional hkeys (hmem (name, write b) List.mem_cons_self)
      exact (read_some (hnull depth)).mpr (Faithful.read_write b hdepth ho)
  finite {depth _ p} h := by
    cases ho : p.1 with
    | none => exact nofun
    | some b =>
      rw [Option.map_some, Option.toList_some, memberFloats_singleton]
      rcases FieldReader.eq_or_exists_of_optional h with heq | ⟨d, hd⟩
      · cases ho.symm.trans heq
      · rw [ho] at hd
        exact Faithful.finite ((read_some (hnull depth)).mp hd)

/-- The three names of an instrument among the other fields. -/
def instrument : FieldCodec Instrument where
  names := ["exchange", "symbol", "contract_type"]
  height := 0
  written := Instrument.members
  reader := Instrument.fields
  named _ := List.Sublist.refl _
  reads k _ hkeys hmem _ _ := k.reads_fields hkeys hmem
  finite _ := nofun

end FieldCodec

/-! ### Records -/

/-- The fields of a record in order, each with its place in the record. `F` is the type of what makes a
record of the fields, and `τ` that of the fields alone. -/
inductive Layout (α : Type) : Type → Type → Type 1 where
  | done : Layout α α Unit
  | field {β F τ : Type} (codec : FieldCodec β) (get : α → β) (rest : Layout α F τ) :
    Layout α (β → F) (β × τ)

namespace Layout

variable {α F τ : Type}

/-- The names of the fields. -/
def names {F τ : Type} : Layout α F τ → List String
  | done => []
  | field codec _ rest => codec.names ++ rest.names

/-- How many containers the fields may be deep. -/
def height {F τ : Type} : Layout α F τ → Nat
  | done => 0
  | field codec _ rest => max codec.height rest.height

/-- The fields of a record. -/
def project {F τ : Type} : Layout α F τ → α → τ
  | done, _ => ()
  | field _ get rest, a => (get a, rest.project a)

/-- The record of the fields. -/
def make {F τ : Type} : Layout α F τ → F → τ → α
  | done, a, _ => a
  | field _ _ rest, mk, t => rest.make (mk t.1) t.2

/-- The members that are written of the fields. -/
def written {F τ : Type} : Layout α F τ → τ → List (String × Value)
  | done, _ => []
  | field codec _ rest, t => codec.written t.1 ++ rest.written t.2

/-- Reads the fields in order. -/
def reader {F τ : Type} : Layout α F τ → F → FieldReader α
  | done, a => pure a
  | field codec _ rest, mk => codec.reader >>= fun b => rest.reader (mk b)

/-- The names of the members that are written are those of the fields, some of which may be missing. -/
theorem named (l : Layout α F τ) (t : τ) : ((l.written t).map Prod.fst).Sublist l.names := by
  induction l with
  | done => exact List.Sublist.refl _
  | field codec _ rest ih =>
    rw [written, List.map_append]
    exact (codec.named t.1).append (ih t.2)

theorem mem_names {l : Layout α F τ} {t : τ} {m : String × Value} (h : m ∈ l.written t) :
    m.1 ∈ l.names :=
  (l.named t).mem (List.mem_map_of_mem h)

/-- The fields are read from any members among which those of their names are the ones that were
written of them. -/
theorem reads (l : Layout α F τ) (mk : F) (t : τ) {depth : Nat} {members : List (String × Value)}
    (hdepth : l.height ≤ depth) (hnames : l.names.Nodup) (hkeys : (members.map Prod.fst).Nodup)
    (hmem : ∀ m ∈ l.written t, m ∈ members) (hown : ∀ m ∈ members, m.1 ∈ l.names → m ∈ l.written t)
    (ht : ∀ x ∈ memberFloats (l.written t), ReadsBack x) :
    Reads (l.reader mk) depth members (l.make mk t) := by
  induction l with
  | done => exact Reads.pure _
  | @field β F τ codec get rest ih =>
    obtain ⟨b, t⟩ := t
    obtain ⟨hdepth, hrestDepth⟩ := Nat.max_le.mp hdepth
    obtain ⟨-, hrestNames, hapart⟩ := List.nodup_append.mp hnames
    obtain ⟨hmem, hrestMem⟩ := List.forall_mem_append.mp hmem
    rw [written, Value.memberFloats_append, List.forall_mem_append] at ht
    -- A member with a name of this field was written of it, since the other fields have other names.
    have hfield : ∀ m ∈ members, m.1 ∈ codec.names → m ∈ codec.written b := by
      intro m hm hname
      cases List.mem_append.mp (hown m hm (List.mem_append_left _ hname)) with
      | inl hwritten => exact hwritten
      | inr hwritten => exact absurd rfl (hapart _ hname _ (mem_names hwritten))
    have hrest : ∀ m ∈ members, m.1 ∈ rest.names → m ∈ rest.written t := by
      intro m hm hname
      cases List.mem_append.mp (hown m hm (List.mem_append_right _ hname)) with
      | inl hwritten =>
        have hname' := (codec.named b).mem (List.mem_map_of_mem hwritten)
        exact absurd rfl (hapart _ hname' _ hname)
      | inr hwritten => exact hwritten
    apply Reads.bind (codec.reads b hdepth hkeys hmem hfield ht.1)
    exact ih (mk b) t hrestDepth hrestNames hrestMem hrest ht.2

/-- What is read is made of fields with finite doubles. -/
theorem exists_of_reader (l : Layout α F τ) (mk : F) {depth : Nat} {fields : Fields}
    {p : α × Fields} (h : l.reader mk depth fields = some p) :
    ∃ t, p.1 = l.make mk t ∧ ∀ x ∈ memberFloats (l.written t), x.isFinite = true := by
  induction l generalizing fields with
  | done =>
    cases h
    exact ⟨(), rfl, nofun⟩
  | field codec get rest ih =>
    obtain ⟨q, hq, hrest⟩ := FieldReader.bind_eq_some_iff.mp h
    obtain ⟨t, hmade, ht⟩ := ih (mk q.1) hrest
    refine ⟨(q.1, t), hmade, ?_⟩
    rw [written, Value.memberFloats_append, List.forall_mem_append]
    exact ⟨codec.finite hq, ht⟩

/-- The values of a type are written as the members of their fields, and are made of their fields. -/
structure Fits [Codec α] (l : Layout α F τ) (mk : F) : Prop where
  write_eq (a : α) : write a = .object (l.written (l.project a))
  make_project (a : α) : l.make mk (l.project a) = a
  project_make (t : τ) : l.project (l.make mk t) = t
  nodup_names : l.names.Nodup

variable [Codec α] {l : Layout α F τ} {mk : F} {depth : Nat} {a : α}

/-- A value is read from the members that are written of it. -/
theorem Fits.reads (h : l.Fits mk) (hdepth : l.height ≤ depth)
    (ha : ∀ x ∈ (write a).floats, ReadsBack x) :
    Reads (l.reader mk) depth (l.written (l.project a)) a := by
  rw [h.write_eq] at ha
  have hreads := l.reads mk (l.project a) hdepth h.nodup_names
    ((l.named (l.project a)).nodup h.nodup_names) (fun _ hm ↦ hm) (fun _ hm _ ↦ hm) ha
  rw [h.make_project] at hreads
  exact hreads

/-- A value that is read from fields holds finite doubles only. -/
theorem Fits.finite (h : l.Fits mk) {fields rest : Fields}
    (hread : l.reader mk depth fields = some (a, rest)) :
    ∀ x ∈ (write a).floats, x.isFinite = true := by
  obtain ⟨t, hmade, ht⟩ := l.exists_of_reader mk hread
  have hmade : a = l.make mk t := hmade
  rw [h.write_eq, hmade, h.project_make]
  exact ht

end Layout

namespace Faithful

variable {α F τ : Type} [Codec α]

/-- Records of faithful fields. -/
@[reducible]
def ofRecord {l : Layout α F τ} {mk : F} (hl : l.Fits mk)
    (hread : (read : Nat → Document → Option α) = FieldReader.record (l.reader mk)) :
    Faithful α where
  height := l.height + 1
  read_write a depth hdepth ha := by
    obtain ⟨depth, rfl⟩ := Nat.exists_eq_add_of_le' (Nat.le_trans (Nat.le_add_left 1 _) hdepth)
    have hreads := hl.reads (Nat.le_of_succ_le_succ hdepth) ha
    rw [hread, hl.write_eq]
    exact hreads.record (List.Perm.refl _)
  finite {depth d a} h := by
    rw [hread] at h
    cases depth with
    | zero => cases d <;> cases h
    | succ depth =>
      obtain ⟨fields, rest, hfields⟩ := FieldReader.exists_of_record h
      exact hl.finite hfields

/-- Keyed records of faithful fields. -/
@[reducible]
def ofKeyedRecord {key : α → Instrument} {l : Layout α F τ} {mk : Instrument → F}
    (hl : (Layout.field .instrument key l).Fits mk)
    (hread : (read : Nat → Document → Option α) =
      FieldReader.keyedRecord l.names ((Layout.field .instrument key l).reader mk)) :
    Faithful α where
  height := l.height + 1
  read_write a depth hdepth ha := by
    obtain ⟨depth, rfl⟩ := Nat.exists_eq_add_of_le' (Nat.le_trans (Nat.le_add_left 1 _) hdepth)
    have hheight : (Layout.field .instrument key l).height ≤ depth :=
      Nat.max_le.mpr ⟨Nat.zero_le _, Nat.le_of_succ_le_succ hdepth⟩
    have hlegible : ∀ m ∈ (key a).members ++ l.written (l.project a),
        m.1 ∈ l.names ∨ m.2.Legible depth :=
      List.forall_mem_append.mpr ⟨fun m hm ↦ Or.inr ((key a).legible_members m hm),
        fun _ hm ↦ Or.inl (Layout.mem_names hm)⟩
    rw [hread, hl.write_eq]
    exact (hl.reads hheight ha).keyedRecord l.names hlegible (List.Perm.refl _)
  finite {depth d a} h := by
    rw [hread] at h
    cases depth with
    | zero => cases d <;> cases h
    | succ depth =>
      obtain ⟨fields, rest, hfields⟩ := FieldReader.exists_of_keyedRecord h
      exact hl.finite hfields

end Faithful

/-! ### Records that are read in any order -/

namespace Carries

variable {α F τ : Type} [Codec α] {l : Layout α F τ} {mk : F} {a : α}
  {members : List (String × Value)}

private theorem ofFits (hl : l.Fits mk) (hheight : l.height ≤ fieldDepth)
    (hmembers : l.written (l.project a) = members) (hplain : ∀ m ∈ members, m.2.Plain)
    (hread : Reads (l.reader mk) fieldDepth members a → ∀ moved : List (String × Value),
      moved.Perm members → Codec.read Document.depthLimit (Value.object moved).document = some a) :
    Carries a members := by
  subst hmembers
  have hlegible : Value.Legible 2 (Codec.write a) := by
    rw [hl.write_eq]
    exact .object fun m hm ↦ (hplain m hm).legible
  exact ⟨hl.write_eq a, (l.named _).nodup hl.nodup_names, hplain,
    hread (hl.reads hheight hlegible.readsBack)⟩

theorem ofRecord (hl : l.Fits mk) (hheight : l.height ≤ fieldDepth)
    (hcodec : (Codec.read : Nat → Document → Option α) = FieldReader.record (l.reader mk))
    (hmembers : l.written (l.project a) = members) (hplain : ∀ m ∈ members, m.2.Plain) :
    Carries a members := by
  apply ofFits hl hheight hmembers hplain
  intro hreads moved hmoved
  rw [hcodec]
  exact hreads.record hmoved

theorem ofKeyedRecord {names : List String} (hl : l.Fits mk) (hheight : l.height ≤ fieldDepth)
    (hcodec : (Codec.read : Nat → Document → Option α) = FieldReader.keyedRecord names (l.reader mk))
    (hmembers : l.written (l.project a) = members) (hplain : ∀ m ∈ members, m.2.Plain) :
    Carries a members := by
  apply ofFits hl hheight hmembers hplain
  intro hreads moved hmoved
  rw [hcodec]
  exact hreads.keyedRecord names
    (fun m hm ↦ Or.inr ((hplain m hm).legible.mono (by decide))) hmoved

end Carries

end TradeDesk.Json
