import Mathlib.Data.List.Induction
import TradeDesk.Json.Value

/-!
# Members in the order of their keys

Reading puts the members of an object in one after another, each at the place of its key. What comes
out is in order with no key twice, whatever went in; what went in in order comes out as it was, and
members with different keys are only moved.
-/

namespace TradeDesk.Json.Value

variable {k : String} {v : Value} {m : String × Value} {members : List (String × Value)}

/-- Members in the order of their keys, with no key twice. -/
def InOrder (members : List (String × Value)) : Prop := members.Pairwise (·.1 < ·.1)

private theorem lt_of_not_lt {s t : String} (hne : s ≠ t) (h : ¬ s < t) : t < s :=
  Decidable.byContradiction fun h' ↦ hne (String.le_antisymm (String.not_lt.mp h') (String.not_lt.mp h))

/-- Insertion brings in no member but its own. -/
theorem eq_or_mem_of_mem_insertMember (h : m ∈ insertMember k v members) :
    m = (k, v) ∨ m ∈ members := by
  induction members with
  | nil => exact Or.inl (List.mem_singleton.mp h)
  | cons n rest ih =>
    obtain ⟨k', v'⟩ := n
    unfold insertMember at h
    split at h
    · exact (List.mem_cons.mp h).imp_right (List.mem_cons_of_mem _)
    · split at h
      · exact List.mem_cons.mp h
      · cases List.mem_cons.mp h with
        | inl h => exact Or.inr (h ▸ List.mem_cons_self)
        | inr h => exact (ih h).imp_right (List.mem_cons_of_mem _)

theorem InOrder.insertMember (h : InOrder members) (k : String) (v : Value) :
    InOrder (insertMember k v members) := by
  induction members with
  | nil => exact List.pairwise_singleton _ _
  | cons n rest ih =>
    obtain ⟨k', v'⟩ := n
    obtain ⟨hfirst, hrest⟩ := List.pairwise_cons.mp h
    unfold Value.insertMember
    split
    · next heq =>
      subst heq
      exact List.pairwise_cons.mpr ⟨hfirst, hrest⟩
    · next hne =>
      split
      · next hlt =>
        refine List.pairwise_cons.mpr ⟨fun m hm ↦ ?_, h⟩
        cases List.mem_cons.mp hm with
        | inl hm => rw [hm]; exact hlt
        | inr hm => exact String.lt_trans hlt (hfirst m hm)
      · next hge =>
        refine List.pairwise_cons.mpr ⟨fun m hm ↦ ?_, ih hrest⟩
        cases eq_or_mem_of_mem_insertMember hm with
        | inl hm => rw [hm]; exact lt_of_not_lt hne hge
        | inr hm => exact hfirst m hm

/-- A key behind all others comes last. -/
theorem insertMember_of_lt (h : ∀ m ∈ members, m.1 < k) (v : Value) :
    insertMember k v members = members ++ [(k, v)] := by
  induction members with
  | nil => rfl
  | cons n rest ih =>
    obtain ⟨hn, hrest⟩ := List.forall_mem_cons.mp h
    have hne : k ≠ n.1 := fun heq ↦ String.lt_irrefl k (heq ▸ hn)
    rw [insertMember, if_neg hne, if_neg (String.lt_asymm hn), ih hrest, List.cons_append]

/-- Members put in the order of their keys, one after another. -/
def putInOrder (members : List (String × Value)) : List (String × Value) :=
  members.foldl (fun sorted m ↦ insertMember m.1 m.2 sorted) []

theorem putInOrder_concat (members : List (String × Value)) (m : String × Value) :
    putInOrder (members ++ [m]) = insertMember m.1 m.2 (putInOrder members) := by
  simp only [putInOrder, List.foldl_append, List.foldl_cons, List.foldl_nil]

theorem inOrder_putInOrder (members : List (String × Value)) : InOrder (putInOrder members) := by
  induction members using List.reverseRecOn with
  | nil => exact List.Pairwise.nil
  | append_singleton members m ih =>
    rw [putInOrder_concat]
    exact ih.insertMember m.1 m.2

/-- Putting in order brings in no member. -/
theorem mem_of_mem_putInOrder (h : m ∈ putInOrder members) : m ∈ members := by
  induction members using List.reverseRecOn with
  | nil => exact h
  | append_singleton members n ih =>
    rw [putInOrder_concat] at h
    apply List.mem_append.mpr
    cases eq_or_mem_of_mem_insertMember h with
    | inl h => exact Or.inr (List.mem_singleton.mpr h)
    | inr h => exact Or.inl (ih h)

/-- Members in order stay as they are. -/
theorem InOrder.putInOrder_eq (h : InOrder members) : putInOrder members = members := by
  induction members using List.reverseRecOn with
  | nil => rfl
  | append_singleton members m ih =>
    obtain ⟨hmembers, -, hlast⟩ := List.pairwise_append.mp h
    have hm : ∀ n ∈ members, n.1 < m.1 := fun n hn ↦ hlast n hn m List.mem_cons_self
    rw [putInOrder_concat, ih hmembers, insertMember_of_lt hm]

theorem insertMember_perm (h : ∀ m ∈ members, m.1 ≠ k) (v : Value) :
    (Value.insertMember k v members).Perm ((k, v) :: members) := by
  induction members with
  | nil => exact List.Perm.refl _
  | cons n rest ih =>
    obtain ⟨hn, hrest⟩ := List.forall_mem_cons.mp h
    rw [Value.insertMember, if_neg (Ne.symm hn)]
    split
    · exact List.Perm.refl _
    · exact ((ih hrest).cons n).trans (List.Perm.swap _ _ _)

/-- Members with different keys are the same members in order. -/
theorem putInOrder_perm (h : (members.map Prod.fst).Nodup) :
    (putInOrder members).Perm members := by
  induction members using List.reverseRecOn with
  | nil => exact List.Perm.refl _
  | append_singleton members m ih =>
    rw [List.map_append, List.nodup_append] at h
    obtain ⟨hmembers, -, hdistinct⟩ := h
    have hm : ∀ n ∈ putInOrder members, n.1 ≠ m.1 := fun n hn ↦
      hdistinct n.1 (List.mem_map_of_mem (mem_of_mem_putInOrder hn)) m.1 List.mem_cons_self
    rw [putInOrder_concat]
    exact (insertMember_perm hm m.2).trans
      (((ih hmembers).cons m).trans (List.perm_append_singleton m members).symm)

end TradeDesk.Json.Value
