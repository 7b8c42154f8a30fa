import TradeDesk.Account.Pending

/-!
# How pending requests are kept

What each operation on the pending requests makes of the entry of a serial. No serial has two
entries, so an entry that is changed or removed leaves none behind.
-/

namespace TradeDesk

namespace Pending

variable {p : Pending}

/-- A request under a free serial is pending, and all others stay. -/
theorem get?_add {serial : UInt32} (h : p.entries.get? serial = none) (strategy : String)
    (kind : MessageKind) (data : String) (n : UInt32) :
    (p.add strategy serial kind data).2.entries.get? n =
      if n = serial then some ⟨strategy, serial, kind, data, 0⟩ else p.entries.get? n := by
  rw [add, Table.contains, h, if_neg (by simp), Table.get?_insert]

/-- A request under a free serial comes last. -/
theorem entries_add {serial : UInt32} (h : p.entries.get? serial = none) (strategy : String)
    (kind : MessageKind) (data : String) :
    (p.add strategy serial kind data).2.entries.entries =
      p.entries.entries ++ [(serial, ⟨strategy, serial, kind, data, 0⟩)] := by
  rw [add, Table.contains, h, if_neg (by simp), Table.entries_insert h]

/-- A request that is noted is the only new one. -/
theorem eq_or_mem_of_mem_add {strategy : String} {serial : UInt32} {kind : MessageKind}
    {data : String} {x : UInt32 × PendingRequest}
    (h : x ∈ (p.add strategy serial kind data).2.entries.entries) :
    x = (serial, ⟨strategy, serial, kind, data, 0⟩) ∨ x ∈ p.entries.entries := by
  unfold add at h
  split at h
  · exact Or.inr h
  · exact Table.eq_or_mem_of_mem_insert h

/-- At most one more request is pending once one was noted. -/
theorem size_add_le (p : Pending) (strategy : String) (serial : UInt32) (kind : MessageKind)
    (data : String) : (p.add strategy serial kind data).2.size ≤ p.size + 1 := by
  cases hs : p.entries.get? serial with
  | none =>
    rw [size, entries_add hs, List.length_append]
    exact Nat.le_refl _
  | some e =>
    rw [add, Table.contains, hs]
    exact Nat.le_succ _

/-- A request that is noted takes no serial twice. -/
theorem nodup_add (h : p.entries.keys.Nodup) (strategy : String) (serial : UInt32)
    (kind : MessageKind) (data : String) :
    (p.add strategy serial kind data).2.entries.keys.Nodup := by
  cases hs : p.entries.get? serial with
  | none =>
    rw [Table.keys, entries_add hs, List.map_append, List.nodup_append]
    refine ⟨h, by simp, fun n hn n' hn' heq ↦ ?_⟩
    rw [heq, List.mem_singleton.mp hn'] at hn
    exact Table.not_mem_keys hs hn
  | some e =>
    rw [add, Table.contains, hs]
    exact h

/-- A removed request is not pending, and all others stay. -/
theorem get?_remove (p : Pending) (serial n : UInt32) :
    (p.remove serial).2.entries.get? n = if n = serial then none else p.entries.get? n :=
  Table.get?_erase p.entries serial n

/-- A confirmation that comes again finds nothing to remove. -/
theorem remove_remove (p : Pending) (serial : UInt32) :
    ((p.remove serial).2.remove serial).2 = (p.remove serial).2 := by
  simp [remove, Table.erase]

/-- Removing a request takes no serial twice. -/
theorem nodup_remove (h : p.entries.keys.Nodup) (serial : UInt32) :
    (p.remove serial).2.entries.keys.Nodup :=
  h.sublist (List.filter_sublist.map Prod.fst)

private theorem sublist_filterMap {κ α : Type} (f : α → Option α) (l : List (κ × α)) :
    ((l.filterMap fun e => (f e.2).map (e.1, ·)).map Prod.fst).Sublist (l.map Prod.fst) := by
  induction l with
  | nil => exact .slnil
  | cons e rest ih =>
    cases he : f e.2 with
    | none =>
      rw [List.filterMap_cons_none (by rw [he]; rfl)]
      exact ih.cons _
    | some a =>
      rw [List.filterMap_cons_some (by rw [he]; rfl)]
      exact ih.cons_cons _

/-- A look takes no serial twice. -/
theorem nodup_review (h : p.entries.keys.Nodup) (strategy : String) (maxChecks : Nat) :
    (p.review strategy maxChecks).2.entries.keys.Nodup :=
  h.sublist (sublist_filterMap _ p.entries.entries)

/-- What is pending after a look is what the look has left of an entry. -/
theorem mem_review {strategy : String} {maxChecks : Nat} {n : UInt32} {e : PendingRequest} :
    (n, e) ∈ (p.review strategy maxChecks).2.entries.entries ↔
      ∃ e₀, (n, e₀) ∈ p.entries.entries ∧ look strategy maxChecks e₀ = some e := by
  show (n, e) ∈ p.entries.entries.filterMap _ ↔ _
  rw [List.mem_filterMap]
  constructor
  · rintro ⟨⟨n', e₀⟩, hm, he⟩
    obtain ⟨e₁, hlook, heq⟩ := Option.map_eq_some_iff.mp he
    cases heq
    exact ⟨e₀, hm, hlook⟩
  · rintro ⟨e₀, hm, hlook⟩
    exact ⟨(n, e₀), hm, Option.map_eq_some_iff.mpr ⟨e, hlook, rfl⟩⟩

/-- A look at all entries is a look at each. -/
theorem get?_review (h : p.entries.keys.Nodup) (strategy : String) (maxChecks : Nat)
    (n : UInt32) :
    (p.review strategy maxChecks).2.entries.get? n =
      (p.entries.get? n).bind (look strategy maxChecks) := by
  ext e
  rw [← Table.mem_entries_iff (nodup_review h strategy maxChecks), Option.bind_eq_some_iff,
    mem_review]
  simp only [Table.mem_entries_iff h]

/-- A strategy's own entry is looked at once more, and stays until its last look. -/
theorem look_own {e : PendingRequest} (maxChecks : Nat) :
    look e.strategy maxChecks e =
      if e.checks + 1 < maxChecks then some { e with checks := e.checks + 1 } else none := by
  rw [look, if_pos rfl]
  split
  · next h => rw [if_neg (Nat.not_lt.mpr h)]
  · next h => rw [if_pos (Nat.lt_of_not_le h)]

/-- A strategy's own entry that stays was looked at once more. -/
theorem of_look_own {strategy : String} {maxChecks : Nat} {e e' : PendingRequest}
    (hs : e.strategy = strategy) (h : look strategy maxChecks e = some e') :
    e.checks + 1 < maxChecks ∧ e' = { e with checks := e.checks + 1 } := by
  rw [← hs, look_own] at h
  split at h
  · next hlt =>
    cases h
    exact ⟨hlt, rfl⟩
  · cases h

/-- Entries of other strategies are left alone. -/
theorem look_of_ne {strategy : String} {e : PendingRequest} (h : e.strategy ≠ strategy)
    (maxChecks : Nat) : look strategy maxChecks e = some e := if_neg h

end Pending

end TradeDesk
