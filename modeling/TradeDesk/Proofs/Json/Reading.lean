import TradeDesk.Proofs.Json.Members
import TradeDesk.Proofs.Json.Written
import TradeDesk.Proofs.Number.Finite

/-!
# Read values are read back

A value that was read has its members in the order of their keys, one for each key. Written and read
again, with as many containers allowed as the first time or more, it is the same value.
-/

namespace TradeDesk.Json

/-! ### Numerals as doubles -/

/-- A numeral is read as a finite double. -/
theorem Numeral.isFinite_of_toFloat? {n : Numeral} {x : Float} (h : n.toFloat? = some x) :
    x.isFinite = true := by
  obtain ⟨y, hy, rfl⟩ := Option.map_eq_some_iff.mp h
  have hdigits := Binary64.within_ofNat n.fst_scaled_lt
  have hmagnitude : y.isFinite = true := by
    simp only at hy
    split at hy
    · next e _ =>
      split at hy
      · cases hy
        rfl
      · split at hy
        · cases hy
        · next he =>
          split at hy
          · cases hy
          · next hinf =>
            cases hy
            exact Binary64.isFinite_mul_tenTo (by omega) hdigits.isFinite (Bool.eq_false_iff.mpr hinf)
    · next e _ =>
      split at hy
      · next he =>
        cases hy
        exact (Binary64.within_div_tenTo he hdigits (by decide) (by decide)).isFinite
      · split at hy
        · cases hy
          have hfirst := Binary64.within_div_tenTo (Nat.le_refl 308) hdigits (by decide) (by decide)
          exact (Binary64.within_div_tenTo (by omega) hfirst (by decide) (by decide)).isFinite
        · cases hy
          rfl
  split
  · exact Binary64.isFinite_neg hmagnitude
  · exact hmagnitude

namespace Value

/-! ### Values with their members in order -/

mutual

/-- A value with the members of every object in order. -/
def arrange : Value → Value
  | null => .null
  | bool b => .bool b
  | int n => .int n
  | float x => .float x
  | text s => .text s
  | array items => .array (arrangeItems items)
  | object members => .object (putInOrder (arrangeMembers members))

/-- Items with the members of every object in order. -/
def arrangeItems : List Value → List Value
  | [] => []
  | v :: rest => arrange v :: arrangeItems rest

/-- Members with those of every object inside them in order. -/
def arrangeMembers : List (String × Value) → List (String × Value)
  | [] => []
  | (k, v) :: rest => (k, arrange v) :: arrangeMembers rest

end

theorem arrangeItems_eq (items : List Value) : arrangeItems items = items.map arrange := by
  induction items with
  | nil => rfl
  | cons v rest ih => rw [arrangeItems, ih, List.map_cons]

theorem arrangeMembers_eq (members : List (String × Value)) :
    arrangeMembers members = members.map fun m ↦ (m.1, m.2.arrange) := by
  induction members with
  | nil => rfl
  | cons m rest ih => rw [arrangeMembers, ih, List.map_cons]

/-- The text of a value can be read with at most `depth` containers inside one another: integers
fit 64-bit words, and doubles are read back. -/
inductive Legible : Nat → Value → Prop where
  | null {depth : Nat} : Legible depth null
  | bool {depth : Nat} (b : Bool) : Legible depth (bool b)
  | int {depth : Nat} {n : Int} (h : Int64.minValue.toInt ≤ n ∧ n < UInt64.size) :
    Legible depth (int n)
  | float {depth : Nat} {x : Float} (h : ReadsBack x) : Legible depth (float x)
  | text {depth : Nat} (s : String) : Legible depth (text s)
  | array {depth : Nat} {items : List Value} (h : ∀ v ∈ items, Legible depth v) :
    Legible (depth + 1) (array items)
  | object {depth : Nat} {members : List (String × Value)} (h : ∀ m ∈ members, Legible depth m.2) :
    Legible (depth + 1) (object members)

variable {v : Value} {d : Document} {depth : Nat}

/-- A limit that is kept is kept when it is raised. -/
theorem Legible.mono (h : Legible depth v) {deeper : Nat} (hdepth : depth ≤ deeper) :
    Legible deeper v := by
  induction h generalizing deeper with
  | null => exact null
  | bool b => exact bool b
  | int h => exact int h
  | float h => exact float h
  | text s => exact text s
  | array _ ih =>
    obtain ⟨deeper, rfl⟩ := Nat.exists_eq_add_of_le' hdepth
    exact array fun v hv ↦ ih v hv (Nat.le_add_left _ _)
  | object _ ih =>
    obtain ⟨deeper, rfl⟩ := Nat.exists_eq_add_of_le' hdepth
    exact object fun m hm ↦ ih m hm (Nat.le_add_left _ _)

/-- The doubles of a value whose text can be read are read back. -/
theorem Legible.readsBack (h : Legible depth v) : ∀ x ∈ v.floats, ReadsBack x := by
  induction h with
  | null | bool | int | text => exact nofun
  | float h => exact List.forall_mem_singleton.mpr h
  | array _ ih =>
    intro x hx
    rw [floats, itemFloats_eq] at hx
    obtain ⟨v, hv, hx⟩ := List.mem_flatMap.mp hx
    exact ih v hv x hx
  | object _ ih =>
    intro x hx
    rw [floats, memberFloats_eq] at hx
    obtain ⟨m, hm, hx⟩ := List.mem_flatMap.mp hx
    exact ih m hm x hx

theorem Legible.arrange (h : Legible depth v) : Legible depth v.arrange := by
  induction h with
  | null => exact null
  | bool b => exact bool b
  | int h => exact int h
  | float h => exact float h
  | text s => exact text s
  | array _ ih =>
    rw [Value.arrange, arrangeItems_eq]
    exact array (List.forall_mem_map.mpr ih)
  | object _ ih =>
    rw [Value.arrange, arrangeMembers_eq]
    refine object fun m hm ↦ ?_
    obtain ⟨n, hn, rfl⟩ := List.mem_map.mp (mem_of_mem_putInOrder hm)
    exact ih n hn

/-! ### Values read from documents -/

section Lists

variable {α β γ : Type} {f : α → Option β} {as : List α}

/-- A list of readings succeeds when each of them does. -/
theorem mapM_map_eq_some {g : γ → α} {r : γ → β} {cs : List γ} (h : ∀ c ∈ cs, f (g c) = some (r c)) :
    (cs.map g).mapM f = some (cs.map r) := by
  induction cs with
  | nil => rfl
  | cons c cs ih =>
    obtain ⟨hc, hcs⟩ := List.forall_mem_cons.mp h
    rw [List.map_cons, List.mapM_cons, hc, ih hcs]
    rfl

/-- What comes out of a list of readings was read from one of the list. -/
theorem exists_of_mem_mapM {bs : List β} (h : as.mapM f = some bs) {b : β} (hb : b ∈ bs) :
    ∃ a ∈ as, f a = some b := by
  induction as generalizing bs with
  | nil =>
    cases h
    cases hb
  | cons a as ih =>
    simp only [List.mapM_cons, Option.bind_eq_bind, Option.bind_eq_some_iff, Option.pure_def,
      Option.some.injEq] at h
    obtain ⟨b', hb', bs, hbs, rfl⟩ := h
    cases List.mem_cons.mp hb with
    | inl heq => exact ⟨a, List.mem_cons_self, heq ▸ hb'⟩
    | inr hmem =>
      obtain ⟨a', ha', hread⟩ := ih hbs hmem
      exact ⟨a', List.mem_cons_of_mem a ha', hread⟩

end Lists

/-- A member of an object, read. -/
def readMember? (depth : Nat) (m : Option String × Document) : Option (String × Value) :=
  m.1.bind fun k ↦ (m.2.toValue? depth).map (k, ·)

theorem toValue?_object (members : List (Option String × Document)) :
    (Document.object members).toValue? (depth + 1) =
      (members.mapM (readMember? depth)).map fun values ↦ .object (putInOrder values) := by
  have hread : ∀ m : Option String × Document,
      (m.1.bind fun k ↦ (m.2.toValue? depth).bind fun v ↦ some (k, v)) = readMember? depth m := by
    intro m
    cases hv : m.2.toValue? depth <;> simp [readMember?, hv]
  simp only [Document.toValue?, Option.bind_eq_bind, hread, Option.map_eq_bind]
  rfl

theorem number?_ofInt {n : Int} (h : Int64.minValue.toInt ≤ n ∧ n < UInt64.size) :
    Document.number? (.ofInt n) = some (.int n) := by
  rw [Document.number?, Numeral.toInt?_ofInt]
  exact if_pos h

theorem number?_ofFloat {x : Float} (h : ReadsBack x) :
    Document.number? (.ofFloat x) = some (.float x) := by
  obtain ⟨-, hint, hfloat⟩ := numeral?_float h
  rw [Document.number?, hint, hfloat]
  rfl

/-- A number is read as an integer that fits a 64-bit word, or as a double. -/
theorem number?_eq_some {n : Numeral} (h : Document.number? n = some v) :
    (∃ i : Int, v = .int i ∧ Int64.minValue.toInt ≤ i ∧ i < UInt64.size) ∨
      ∃ x, v = .float x ∧ n.toFloat? = some x := by
  have hfloat : n.toFloat?.map Value.float = some v → ∃ x, v = .float x ∧ n.toFloat? = some x := by
    intro h
    obtain ⟨x, hx, rfl⟩ := Option.map_eq_some_iff.mp h
    exact ⟨x, rfl, hx⟩
  unfold Document.number? at h
  split at h
  · next i _ =>
    split at h
    · next hi =>
      cases h
      exact Or.inl ⟨i, rfl, hi⟩
    · exact Or.inr (hfloat h)
  · exact Or.inr (hfloat h)

/-- The document of a value is read as that value with its members in order. -/
theorem Legible.toValue?_document (h : Legible depth v) :
    v.document.toValue? depth = some v.arrange := by
  induction h with
  | null => rw [document, Document.toValue?, Value.arrange]
  | bool b => rw [document, Document.toValue?, Value.arrange]
  | int h => rw [document, Document.toValue?, number?_ofInt h, Value.arrange]
  | float h => rw [document, Document.toValue?, number?_ofFloat h, Value.arrange]
  | text s => rw [document, Document.toValue?, Value.arrange, Option.map_some]
  | array _ ih =>
    rw [document, Document.toValue?, itemDocuments_eq, mapM_map_eq_some ih, Value.arrange,
      arrangeItems_eq, Option.map_some]
  | @object depth members _ ih =>
    have hmembers : (members.map fun m ↦ (some m.1, m.2.document)).mapM (readMember? depth) =
        some (members.map fun m ↦ (m.1, m.2.arrange)) :=
      mapM_map_eq_some fun m hm ↦ by rw [readMember?, Option.bind_some, ih m hm, Option.map_some]
    rw [document, toValue?_object, memberDocuments_eq, hmembers, Value.arrange, arrangeMembers_eq,
      Option.map_some]

/-- A value read from a document has its members in order, and its text can be read with as many
containers inside one another. -/
theorem legible_of_toValue? (h : d.toValue? depth = some v)
    (hv : ∀ x ∈ v.floats, KeptIfFinite x) : Legible depth v ∧ v.arrange = v := by
  induction depth using Nat.strongRecOn generalizing d v with
  | ind depth ih =>
  cases d with
  | null =>
    rw [Document.toValue?] at h
    cases h
    exact ⟨.null, rfl⟩
  | bool b =>
    rw [Document.toValue?] at h
    cases h
    exact ⟨.bool b, rfl⟩
  | number n =>
    rw [Document.toValue?] at h
    cases number?_eq_some h with
    | inl hint =>
      obtain ⟨i, rfl, hi⟩ := hint
      exact ⟨.int hi, rfl⟩
    | inr hfloat =>
      obtain ⟨x, rfl, hx⟩ := hfloat
      exact ⟨.float (hv x List.mem_cons_self (Numeral.isFinite_of_toFloat? hx)), rfl⟩
  | text s =>
    rw [Document.toValue?] at h
    obtain ⟨s, -, rfl⟩ := Option.map_eq_some_iff.mp h
    exact ⟨.text s, rfl⟩
  | array items =>
    cases depth with
    | zero => cases h
    | succ depth =>
      rw [Document.toValue?] at h
      obtain ⟨values, hvalues, rfl⟩ := Option.map_eq_some_iff.mp h
      rw [floats, itemFloats_eq, List.forall_mem_flatMap] at hv
      have hitems : ∀ v ∈ values, Legible depth v ∧ v.arrange = v := by
        intro v hmem
        obtain ⟨d, -, hd⟩ := exists_of_mem_mapM hvalues hmem
        exact ih depth (Nat.lt_succ_self depth) hd (hv v hmem)
      refine ⟨.array fun v hmem ↦ (hitems v hmem).1, ?_⟩
      rw [arrange, arrangeItems_eq, List.map_congr_left fun v hmem ↦ (hitems v hmem).2,
        List.map_id']
  | object members =>
    cases depth with
    | zero => cases h
    | succ depth =>
      rw [toValue?_object] at h
      obtain ⟨values, hvalues, rfl⟩ := Option.map_eq_some_iff.mp h
      rw [floats, memberFloats_eq, List.forall_mem_flatMap] at hv
      have hmembers : ∀ m ∈ putInOrder values, Legible depth m.2 ∧ m.2.arrange = m.2 := by
        intro m hmem
        obtain ⟨n, -, hread⟩ := exists_of_mem_mapM hvalues (mem_of_mem_putInOrder hmem)
        obtain ⟨k, -, hk⟩ := Option.bind_eq_some_iff.mp hread
        obtain ⟨v, hd, rfl⟩ := Option.map_eq_some_iff.mp hk
        exact ih depth (Nat.lt_succ_self depth) hd (hv (k, v) hmem)
      have hsame : ∀ m ∈ putInOrder values, (m.1, m.2.arrange) = m := fun m hmem ↦
        Prod.ext rfl (hmembers m hmem).2
      refine ⟨.object fun m hmem ↦ (hmembers m hmem).1, ?_⟩
      rw [arrange, arrangeMembers_eq, List.map_congr_left hsame, List.map_id',
        (inOrder_putInOrder values).putInOrder_eq]

/-- Members that are in order already stay where they are. -/
theorem Legible.arrange_arrange (h : Legible depth v) : v.arrange.arrange = v.arrange :=
  (legible_of_toValue? h.toValue?_document fun x hx _ ↦ h.arrange.readsBack x hx).2

end Value

end TradeDesk.Json
