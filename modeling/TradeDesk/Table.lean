/-!
# Tables

A finite map that remembers in which order its keys first came. A key is looked up by its first
entry, and every operation keeps the keys distinct when they were.

It stands for the maps of `Keeper`, `Context`, `CandleBuffer`, `QuoteBoard` and `FsmBuilder`. Their
order is left open; here it is that in which the keys came.
-/

namespace TradeDesk

/-- Entries by key, in the order in which their keys first came. -/
structure Table (κ α : Type) where
  entries : List (κ × α) := []

namespace Table

variable {κ α : Type} [DecidableEq κ]

/-- The table without entries. -/
def empty : Table κ α := ⟨[]⟩

instance : Inhabited (Table κ α) := ⟨empty⟩

/-- The keys in order. -/
def keys (t : Table κ α) : List κ := t.entries.map Prod.fst

/-- The values in the order of their keys. -/
def values (t : Table κ α) : List α := t.entries.map Prod.snd

private def find (k : κ) : List (κ × α) → Option α
  | [] => none
  | (k', a) :: rest => if k' = k then some a else find k rest

/-- The value of a key. -/
def get? (t : Table κ α) (k : κ) : Option α := find k t.entries

def contains (t : Table κ α) (k : κ) : Bool := (t.get? k).isSome

private def put (k : κ) (a : α) : List (κ × α) → List (κ × α)
  | [] => [(k, a)]
  | (k', a') :: rest => if k' = k then (k, a) :: rest else (k', a') :: put k a rest

/-- Gives a key a value: in place if the key is there, otherwise at the end. -/
def insert (t : Table κ α) (k : κ) (a : α) : Table κ α := ⟨put k a t.entries⟩

/-- Removes a key. -/
def erase (t : Table κ α) (k : κ) : Table κ α := ⟨t.entries.filter fun e => e.1 ≠ k⟩

/-- Changes the value of a key, if it is there. -/
def modify (t : Table κ α) (k : κ) (f : α → α) : Table κ α :=
  match t.get? k with
  | some a => t.insert k (f a)
  | none => t

/-- The table that a list of entries makes; of two with one key the later counts. -/
def ofList (entries : List (κ × α)) : Table κ α :=
  entries.foldl (fun t e => t.insert e.1 e.2) empty

private theorem find_put_self (k : κ) (a : α) (l : List (κ × α)) : find k (put k a l) = some a := by
  induction l with
  | nil => simp [put, find]
  | cons e rest ih => by_cases h : e.1 = k <;> simp [put, find, h, ih]

private theorem find_put_ne {k k' : κ} (h : k' ≠ k) (a : α) (l : List (κ × α)) :
    find k' (put k a l) = find k' l := by
  induction l with
  | nil => simp [put, find, h.symm]
  | cons e rest ih =>
    by_cases hk : e.1 = k
    · simp [put, find, hk, h.symm]
    · by_cases hk' : e.1 = k' <;> simp [put, find, hk, hk', h, ih]

private theorem find_filter_self (k : κ) (l : List (κ × α)) :
    find k (l.filter fun e => e.1 ≠ k) = none := by
  induction l with
  | nil => rfl
  | cons e rest ih => by_cases h : e.1 = k <;> simp_all [find]

private theorem find_filter_ne {k k' : κ} (h : k' ≠ k) (l : List (κ × α)) :
    find k' (l.filter fun e => e.1 ≠ k) = find k' l := by
  induction l with
  | nil => rfl
  | cons e rest ih =>
    by_cases hk : e.1 = k
    · have : e.1 ≠ k' := fun h' => h (h' ▸ hk)
      simp_all [find]
    · by_cases hk' : e.1 = k' <;> simp_all [find]

private theorem mem_of_find {k : κ} {a : α} {l : List (κ × α)} (h : find k l = some a) :
    (k, a) ∈ l := by
  induction l with
  | nil => cases h
  | cons e rest ih =>
    unfold find at h
    split at h
    · next hk =>
      cases h
      rw [← hk]
      exact List.mem_cons_self
    · exact List.mem_cons_of_mem _ (ih h)

private theorem eq_or_mem_of_mem_put {k : κ} {a : α} {e : κ × α} {l : List (κ × α)}
    (h : e ∈ put k a l) : e = (k, a) ∨ e ∈ l := by
  induction l with
  | nil => exact Or.inl (List.mem_singleton.mp h)
  | cons c rest ih =>
    unfold put at h
    split at h
    · exact (List.mem_cons.mp h).imp_right (List.mem_cons_of_mem _)
    · cases List.mem_cons.mp h with
      | inl he =>
        rw [he]
        exact Or.inr List.mem_cons_self
      | inr he => exact (ih he).imp_right (List.mem_cons_of_mem _)

private theorem filter_put {k : κ} {a : α} {p : κ × α → Bool} {l : List (κ × α)}
    (ha : p (k, a) = false) (hk : ∀ e ∈ l, e.1 = k → p e = false) :
    (put k a l).filter p = l.filter p := by
  induction l with
  | nil => simp [put, ha]
  | cons c rest ih =>
    unfold put
    split
    · next h => simp [ha, hk _ List.mem_cons_self h]
    · rw [List.filter_cons, List.filter_cons,
        ih fun e he => hk e (List.mem_cons_of_mem _ he)]

private theorem not_mem_of_find {k : κ} {l : List (κ × α)} (h : find k l = none) :
    k ∉ l.map Prod.fst := by
  induction l with
  | nil => exact List.not_mem_nil
  | cons e rest ih =>
    unfold find at h
    split at h
    · cases h
    · next hk =>
      intro hm
      cases List.mem_cons.mp hm with
      | inl he => exact hk he.symm
      | inr he => exact ih h he

private theorem put_of_find {k : κ} {l : List (κ × α)} (h : find k l = none) (a : α) :
    put k a l = l ++ [(k, a)] := by
  induction l with
  | nil => rfl
  | cons e rest ih =>
    unfold find at h
    split at h
    · cases h
    · next hk => simp [put, hk, ih h]

private theorem find_of_mem {k : κ} {a : α} {l : List (κ × α)} (hl : (l.map Prod.fst).Nodup)
    (h : (k, a) ∈ l) : find k l = some a := by
  induction l with
  | nil => cases h
  | cons e rest ih =>
    obtain ⟨he, hrest⟩ := List.nodup_cons.mp hl
    cases List.mem_cons.mp h with
    | inl hm =>
      subst hm
      simp [find]
    | inr hm =>
      have hk : e.1 ≠ k := fun hk ↦ he (hk ▸ List.mem_map_of_mem (f := Prod.fst) hm)
      simp [find, hk, ih hrest hm]

private theorem put_put (k : κ) (a b : α) (l : List (κ × α)) :
    put k b (put k a l) = put k b l := by
  induction l with
  | nil => simp [put]
  | cons e rest ih => by_cases h : e.1 = k <;> simp [put, h, ih]

private theorem map_fst_put {k : κ} {l : List (κ × α)} (h : k ∈ l.map Prod.fst) (a : α) :
    (put k a l).map Prod.fst = l.map Prod.fst := by
  induction l with
  | nil => cases h
  | cons e rest ih =>
    unfold put
    split
    · next hk => simp [hk]
    · next hk =>
      have hrest : k ∈ rest.map Prod.fst := (List.mem_cons.mp h).resolve_left fun he ↦ hk he.symm
      simp [ih hrest]

private theorem find_eq_find? (k : κ) (l : List (κ × α)) :
    find k l = (l.find? fun e => e.1 = k).map Prod.snd := by
  induction l with
  | nil => rfl
  | cons e rest ih => by_cases h : e.1 = k <;> simp [find, h, ih]

@[simp] theorem get?_empty (k : κ) : (empty : Table κ α).get? k = none := rfl

theorem get?_insert (t : Table κ α) (k k' : κ) (a : α) :
    (t.insert k a).get? k' = if k' = k then some a else t.get? k' := by
  by_cases h : k' = k
  · subst h; simp [insert, get?, find_put_self]
  · simp [insert, get?, find_put_ne h, h]

@[simp] theorem get?_insert_self (t : Table κ α) (k : κ) (a : α) :
    (t.insert k a).get? k = some a := by simp [get?_insert]

theorem get?_erase (t : Table κ α) (k k' : κ) :
    (t.erase k).get? k' = if k' = k then none else t.get? k' := by
  by_cases h : k' = k
  · subst h; simp only [erase, get?, find_filter_self, if_true]
  · simp only [erase, get?, find_filter_ne h, h, if_false]

/-- An entry that is found is there. -/
theorem mem_entries_of_get? {t : Table κ α} {k : κ} {a : α} (h : t.get? k = some a) :
    (k, a) ∈ t.entries := mem_of_find h

/-- Insertion brings in no entry but its own. -/
theorem eq_or_mem_of_mem_insert {t : Table κ α} {k : κ} {a : α} {e : κ × α}
    (h : e ∈ (t.insert k a).entries) : e = (k, a) ∨ e ∈ t.entries := eq_or_mem_of_mem_put h

/-- A filter that passes neither the new entry nor those of its key sees nothing of an insertion. -/
theorem filter_entries_insert (t : Table κ α) (k : κ) (a : α) {p : κ × α → Bool}
    (ha : p (k, a) = false) (hk : ∀ e ∈ t.entries, e.1 = k → p e = false) :
    (t.insert k a).entries.filter p = t.entries.filter p := filter_put ha hk

/-- A key without a value is not among the keys. -/
theorem not_mem_keys {t : Table κ α} {k : κ} (h : t.get? k = none) : k ∉ t.keys :=
  not_mem_of_find h

/-- The keys are what has a value. -/
theorem contains_iff_mem_keys {t : Table κ α} {k : κ} : t.contains k = true ↔ k ∈ t.keys := by
  unfold contains
  cases h : t.get? k with
  | none => exact iff_of_false Bool.false_ne_true (not_mem_keys h)
  | some a => exact iff_of_true rfl (List.mem_map_of_mem (f := Prod.fst) (mem_entries_of_get? h))

theorem isNone_get?_iff {t : Table κ α} {k : κ} : (t.get? k).isNone = true ↔ k ∉ t.keys := by
  rw [← contains_iff_mem_keys, contains]
  cases t.get? k <;> simp

/-- Another value for a key leaves the keys as they are. -/
theorem keys_insert {t : Table κ α} {k : κ} (h : k ∈ t.keys) (a : α) :
    (t.insert k a).keys = t.keys := map_fst_put h a

/-- A new key comes last. -/
theorem entries_insert {t : Table κ α} {k : κ} (h : t.get? k = none) (a : α) :
    (t.insert k a).entries = t.entries ++ [(k, a)] := put_of_find h a

/-- A key is looked up by its first entry. -/
theorem get?_eq_find? (t : Table κ α) (k : κ) :
    t.get? k = (t.entries.find? fun e => e.1 = k).map Prod.snd := find_eq_find? k t.entries

/-- With distinct keys every entry is found. -/
theorem mem_entries_iff {t : Table κ α} (ht : t.keys.Nodup) {k : κ} {a : α} :
    (k, a) ∈ t.entries ↔ t.get? k = some a :=
  ⟨find_of_mem ht, mem_entries_of_get?⟩

/-- Of two insertions under one key the later counts. -/
@[simp] theorem insert_insert (t : Table κ α) (k : κ) (a b : α) :
    (t.insert k a).insert k b = t.insert k b := by simp [insert, put_put]

theorem get?_modify (t : Table κ α) (k k' : κ) (f : α → α) :
    (t.modify k f).get? k' = if k' = k then (t.get? k).map f else t.get? k' := by
  unfold modify
  split
  · next a ha => rw [get?_insert]; split <;> simp_all
  · next ha => split <;> simp_all

private theorem get?_foldl_insert (keys : List κ) (a : α) (t : Table κ α) (k : κ) :
    ((keys.map fun k => (k, a)).foldl (fun t e => t.insert e.1 e.2) t).get? k =
      if k ∈ keys then some a else t.get? k := by
  induction keys generalizing t with
  | nil => simp
  | cons k' rest ih =>
    rw [List.map_cons, List.foldl_cons, ih, get?_insert]
    by_cases hk : k = k' <;> simp [hk]

/-- A table that gives all its keys one value. -/
theorem get?_ofList_map (keys : List κ) (a : α) (k : κ) :
    (ofList (keys.map fun k => (k, a))).get? k = if k ∈ keys then some a else none :=
  get?_foldl_insert keys a empty k

private theorem entries_foldl_insert (l : List (κ × α)) (t : Table κ α)
    (hl : (t.keys ++ l.map Prod.fst).Nodup) :
    (l.foldl (fun t e => t.insert e.1 e.2) t).entries = t.entries ++ l := by
  induction l generalizing t with
  | nil => simp
  | cons e rest ih =>
    have hfree : t.get? e.1 = none := by
      cases h : t.get? e.1 with
      | none => rfl
      | some a =>
        have hmem : e.1 ∈ t.keys := contains_iff_mem_keys.mp (by rw [contains, h]; rfl)
        exact absurd rfl ((List.nodup_append.mp hl).2.2 e.1 hmem e.1 List.mem_cons_self)
    have hkeys : (t.insert e.1 e.2).keys = t.keys ++ [e.1] := by
      simp [keys, entries_insert hfree]
    rw [List.foldl_cons, ih (t.insert e.1 e.2), entries_insert hfree, List.append_assoc]
    · rfl
    · rw [hkeys, List.append_assoc]
      exact hl

/-- A list of entries with distinct keys is the entries of the table that it makes. -/
theorem entries_ofList {l : List (κ × α)} (h : (l.map Prod.fst).Nodup) :
    (ofList l).entries = l := entries_foldl_insert l empty h

/-- A change that makes no difference the second time is made once. -/
theorem modify_modify (t : Table κ α) (k : κ) {f : α → α} (hf : ∀ a, f (f a) = f a) :
    (t.modify k f).modify k f = t.modify k f := by
  cases h : t.get? k with
  | none => simp [modify, h]
  | some a => simp [modify, h, hf]

end Table

end TradeDesk
