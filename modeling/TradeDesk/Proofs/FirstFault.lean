import Mathlib.Data.List.Induction
import Mathlib.Data.List.Nodup

/-!
# The first fault of a list

Entries of a list are looked at from the front, and what is wrong with one may depend on those
before it. The fault of a list is that of the first entry with which something is wrong.
-/

namespace TradeDesk

variable {α ε : Type}

/-- With no entry of a list is anything wrong after those before it. -/
def Faultless (fault : List α → α → ε → Prop) (l : List α) : Prop :=
  ∀ before a after e, l = before ++ a :: after → ¬ fault before a e

/-- What is wrong with the first entry of a list with which something is wrong. -/
def FirstFault (fault : List α → α → ε → Prop) (l : List α) (e : ε) : Prop :=
  ∃ before a after, l = before ++ a :: after ∧ Faultless fault before ∧ fault before a e

variable {fault : List α → α → ε → Prop} {l before after : List α} {a : α} {e e' : ε}

private theorem concat_eq_append_cons {b : α} :
    l ++ [a] = before ++ b :: after ↔
      (after = [] ∧ l = before ∧ a = b) ∨
        ∃ rest, after = rest ++ [a] ∧ l = before ++ b :: rest := by
  constructor
  · intro h
    rcases List.eq_nil_or_concat after with rfl | ⟨rest, c, rfl⟩
    · obtain ⟨hl, ha⟩ := List.append_inj' h rfl
      exact Or.inl ⟨rfl, hl, List.singleton_inj.mp ha⟩
    · rw [List.concat_eq_append, ← List.cons_append, ← List.append_assoc] at h
      obtain ⟨hl, ha⟩ := List.append_inj' h rfl
      cases ha
      exact Or.inr ⟨rest, List.concat_eq_append, hl⟩
  · rintro (⟨rfl, rfl, rfl⟩ | ⟨rest, rfl, rfl⟩)
    · rfl
    · simp

theorem faultless_nil : Faultless fault [] := by
  intro before a after e h
  simp at h

/-- One more entry. -/
theorem faultless_concat :
    Faultless fault (l ++ [a]) ↔ Faultless fault l ∧ ∀ e, ¬ fault l a e := by
  constructor
  · intro h
    refine ⟨fun before b after e hl ↦ h before b (after ++ [a]) e ?_, fun e ↦ h l a [] e rfl⟩
    rw [hl, List.append_assoc, List.cons_append]
  · rintro ⟨hl, ha⟩ before b after e h
    obtain ⟨-, rfl, rfl⟩ | ⟨rest, -, hrest⟩ := concat_eq_append_cons.mp h
    · exact ha e
    · exact hl before b rest e hrest

/-- One more entry counts only where nothing was wrong before. -/
theorem firstFault_concat :
    FirstFault fault (l ++ [a]) e ↔ FirstFault fault l e ∨ Faultless fault l ∧ fault l a e := by
  constructor
  · rintro ⟨before, b, after, h, hbefore, hb⟩
    obtain ⟨-, rfl, rfl⟩ | ⟨rest, -, hrest⟩ := concat_eq_append_cons.mp h
    · exact Or.inr ⟨hbefore, hb⟩
    · exact Or.inl ⟨before, b, rest, hrest, hbefore, hb⟩
  · rintro (⟨before, b, after, rfl, hbefore, hb⟩ | ⟨hl, ha⟩)
    · exact ⟨before, b, after ++ [a], by simp, hbefore, hb⟩
    · exact ⟨l, a, [], rfl, hl, ha⟩

theorem FirstFault.not_faultless (h : FirstFault fault l e) : ¬ Faultless fault l := by
  obtain ⟨before, a, after, hl, -, ha⟩ := h
  exact fun hfaultless ↦ hfaultless before a after e hl ha

/-- A list in which something is wrong has a first fault. -/
theorem faultless_iff : Faultless fault l ↔ ∀ e, ¬ FirstFault fault l e := by
  constructor
  · exact fun h e hfirst ↦ hfirst.not_faultless h
  · intro h
    induction l using List.reverseRecOn with
    | nil => exact faultless_nil
    | append_singleton l a ih =>
      have hl : Faultless fault l := ih fun e hfirst ↦ h e (firstFault_concat.mpr (Or.inl hfirst))
      exact faultless_concat.mpr
        ⟨hl, fun e ha ↦ h e (firstFault_concat.mpr (Or.inr ⟨hl, ha⟩))⟩

/-- A list has a fault exactly if something is wrong with one of its entries. -/
theorem exists_firstFault_iff :
    (∃ e, FirstFault fault l e) ↔
      ∃ before a after, l = before ++ a :: after ∧ ∃ e, fault before a e := by
  constructor
  · rintro ⟨e, before, a, after, hl, -, ha⟩
    exact ⟨before, a, after, hl, e, ha⟩
  · rintro ⟨before, a, after, hl, e, ha⟩
    by_contra h
    exact faultless_iff.mpr (not_exists.mp h) before a after e hl ha

/-- Whatever is the fault of a list is wrong with the same entry. -/
theorem FirstFault.same_place (h : FirstFault fault l e) (h' : FirstFault fault l e') :
    ∃ before a, fault before a e ∧ fault before a e' := by
  induction l using List.reverseRecOn with
  | nil => exact absurd faultless_nil h.not_faultless
  | append_singleton l a ih =>
    rcases firstFault_concat.mp h, firstFault_concat.mp h' with ⟨h | h, h' | h'⟩
    · exact ih h h'
    · exact absurd h'.1 h.not_faultless
    · exact absurd h.1 h'.not_faultless
    · exact ⟨l, a, h.2, h'.2⟩

/-- Entries are distinct when none is among those before it. -/
theorem nodup_concat_iff : (l ++ [a]).Nodup ↔ l.Nodup ∧ a ∉ l := by
  rw [← List.concat_eq_append, List.nodup_concat, and_comm]

end TradeDesk
