import TradeDesk.Proofs.FirstFault
import TradeDesk.Strategy.Machine

/-!
# Registrations

A machine is assembled from a list of registrations. Registrations that go wrong are noted and passed
over, and the first of them is what is reported. When none goes wrong, a machine comes about if there
is a mode to start in and one for every identifier.
-/

namespace TradeDesk

/-- What is registered for a machine. -/
inductive Registration (ι μ ο : Type) where
  | mode (m : μ)
  | observer (o : ο)
  /-- The mode to start in. -/
  | initial (i : ι)

variable {ι μ ο δ : Type} [DecidableEq ι]

namespace Registration

def mode? : Registration ι μ ο → Option μ
  | mode m => some m
  | _ => none

def observer? : Registration ι μ ο → Option ο
  | observer o => some o
  | _ => none

def initial? : Registration ι μ ο → Option ι
  | initial i => some i
  | _ => none

variable [Mode μ ι δ] [Observer ο]

/-- The identifiers under which modes are registered. -/
def ids (rs : List (Registration ι μ ο)) : List ι := (rs.filterMap mode?).map Mode.id

/-- The names under which observers are registered. -/
def names (rs : List (Registration ι μ ο)) : List String :=
  (rs.filterMap observer?).map Observer.name

/-- What is wrong with a registration after others: a mode for an identifier that has one, an
observer without a name, or with a name that another one has. -/
inductive Offends [ModeId ι] (before : List (Registration ι μ ο)) :
    Registration ι μ ο → DeskError → Prop where
  | modeTwice {m : μ} (h : Mode.id m ∈ ids before) :
    Offends before (.mode m) (.duplicateState (ModeId.label (Mode.id m)))
  | unnamed {o : ο} (h : Observer.name o = "") :
    Offends before (.observer o) (.invalidRegistration .unnamedObserver)
  | observerTwice {o : ο} (hname : Observer.name o ≠ "") (h : Observer.name o ∈ names before) :
    Offends before (.observer o) (.duplicateHandler (Observer.name o))

variable {before rs : List (Registration ι μ ο)} {r : Registration ι μ ο} {e : DeskError}

omit [DecidableEq ι] [Observer ο] in
@[simp] theorem ids_concat_mode (m : μ) : ids (rs ++ [.mode m]) = ids rs ++ [Mode.id m] := by
  simp [ids, mode?]

omit [DecidableEq ι] [Observer ο] in
@[simp] theorem ids_concat_observer (o : ο) : ids (rs ++ [.observer o]) = ids rs := by
  simp [ids, mode?]

omit [DecidableEq ι] [Observer ο] in
@[simp] theorem ids_concat_initial (i : ι) : ids (rs ++ [.initial i]) = ids rs := by
  simp [ids, mode?]

omit [DecidableEq ι] [Mode μ ι δ] in
@[simp] theorem names_concat_mode (m : μ) : names (rs ++ [.mode m]) = names rs := by
  simp [names, observer?]

omit [DecidableEq ι] [Mode μ ι δ] in
@[simp] theorem names_concat_observer (o : ο) :
    names (rs ++ [.observer o]) = names rs ++ [Observer.name o] := by
  simp [names, observer?]

omit [DecidableEq ι] [Mode μ ι δ] in
@[simp] theorem names_concat_initial (i : ι) : names (rs ++ [.initial i]) = names rs := by
  simp [names, observer?]

/-- Nothing is wrong with registrations when no identifier comes twice, and no name is empty or comes
twice. -/
theorem faultless_offends_iff [ModeId ι] :
    Faultless Offends rs ↔ (ids rs).Nodup ∧ "" ∉ names rs ∧ (names rs).Nodup := by
  induction rs using List.reverseRecOn with
  | nil => exact iff_of_true faultless_nil ⟨List.nodup_nil, List.not_mem_nil, List.nodup_nil⟩
  | append_singleton rs r ih =>
    rw [faultless_concat, ih]
    cases r with
    | mode m =>
      rw [ids_concat_mode, names_concat_mode, nodup_concat_iff]
      have hmode : (∀ e, ¬ Offends rs (.mode m) e) ↔ Mode.id m ∉ ids rs := by
        constructor
        · exact fun h hm ↦ h _ (.modeTwice hm)
        · rintro hm e (h | _ | _)
          exact hm h
      rw [hmode]
      tauto
    | observer o =>
      rw [ids_concat_observer, names_concat_observer, nodup_concat_iff, List.mem_append,
        List.mem_singleton]
      have hobserver : (∀ e, ¬ Offends rs (.observer o) e) ↔
          Observer.name o ≠ "" ∧ Observer.name o ∉ names rs := by
        constructor
        · intro h
          have hname : Observer.name o ≠ "" := fun hname ↦ h _ (.unnamed hname)
          exact ⟨hname, fun hm ↦ h _ (.observerTwice hname hm)⟩
        · rintro ⟨hname, hm⟩ e (_ | h | ⟨_, h⟩)
          · exact hname h
          · exact hm h
      rw [hobserver, eq_comm (a := "")]
      tauto
    | initial i =>
      rw [ids_concat_initial, names_concat_initial]
      exact and_iff_left nofun

end Registration

namespace Blueprint

open Registration

variable [ModeId ι] [Mode μ ι δ] [Observer ο] {b : Blueprint ι μ ο} {name : String}
  {rs : List (Registration ι μ ο)} {r : Registration ι μ ο} {e : DeskError}

/-- Registers one thing. -/
def register (b : Blueprint ι μ ο) : Registration ι μ ο → Blueprint ι μ ο
  | .mode m => b.mode m
  | .observer o => b.observer o
  | .initial i => b.initialMode i

/-- A machine under assembly after registrations. -/
def ofRegistrations (name : String) (rs : List (Registration ι μ ο)) : Blueprint ι μ ο :=
  rs.foldl register { name := name }

theorem ofRegistrations_concat :
    ofRegistrations name (rs ++ [r]) = (ofRegistrations name rs).register r := by
  rw [ofRegistrations, List.foldl_concat, ofRegistrations]

/-- What faultless registrations make of a machine under assembly. -/
structure Holds (b : Blueprint ι μ ο) (rs : List (Registration ι μ ο)) : Prop where
  error_eq : b.error = none
  entries_eq : b.modes.entries = (rs.filterMap mode?).map fun m ↦ (Mode.id m, m)
  observers_eq : b.observers = rs.filterMap observer?

omit [DecidableEq ι] [ModeId ι] [Observer ο] in
theorem Holds.keys_eq (h : b.Holds rs) : b.modes.keys = ids rs := by
  rw [Table.keys, h.entries_eq, List.map_map]
  rfl

omit [ModeId ι] [Observer ο] in
theorem Holds.contains_iff (h : b.Holds rs) {i : ι} : b.modes.contains i = true ↔ i ∈ ids rs := by
  rw [Table.contains_iff_mem_keys, h.keys_eq]

omit [DecidableEq ι] [ModeId ι] in
theorem Holds.any_name_iff (h : b.Holds rs) {s : String} :
    (b.observers.any fun o ↦ Observer.name o = s) = true ↔ s ∈ names rs := by
  simp [h.observers_eq, names, List.any_eq_true, -List.any_filterMap]

/-- What is wrong with a registration is noted. -/
theorem Holds.register_of_offends (h : b.Holds rs) (ho : Offends rs r e) :
    (b.register r).error = some e := by
  have hnoted (e : DeskError) : some (b.error.getD e) = some e := by
    rw [h.error_eq, Option.getD_none]
  cases ho with
  | modeTwice hm =>
    rw [register, Blueprint.mode, if_pos (h.contains_iff.mpr hm)]
    exact hnoted _
  | unnamed hname =>
    rw [register, Blueprint.observer, if_pos hname]
    exact hnoted _
  | observerTwice hname hm =>
    rw [register, Blueprint.observer, if_neg hname, if_pos (h.any_name_iff.mpr hm)]
    exact hnoted _

/-- A registration with which nothing is wrong is taken. -/
theorem Holds.register_of_not_offends (h : b.Holds rs) (ho : ∀ e, ¬ Offends rs r e) :
    (b.register r).Holds (rs ++ [r]) := by
  cases r with
  | mode m =>
    have hfree : ¬ b.modes.contains (Mode.id m) = true := fun hm ↦
      ho _ (.modeTwice (h.contains_iff.mp hm))
    have hnone : b.modes.get? (Mode.id m) = none := by
      simpa [Table.contains] using hfree
    rw [register, Blueprint.mode, if_neg hfree]
    refine ⟨h.error_eq, ?_, ?_⟩
    · simp [Table.entries_insert hnone, h.entries_eq, mode?]
    · simp [h.observers_eq, observer?]
  | observer o =>
    have hname : Observer.name o ≠ "" := fun hname ↦ ho _ (.unnamed hname)
    have hfree : ¬ (b.observers.any fun o' ↦ Observer.name o' = Observer.name o) = true := fun hm ↦
      ho _ (.observerTwice hname (h.any_name_iff.mp hm))
    rw [register, Blueprint.observer, if_neg hname, if_neg hfree]
    refine ⟨h.error_eq, ?_, ?_⟩
    · simp [h.entries_eq, mode?]
    · simp [h.observers_eq, observer?]
  | initial i =>
    refine ⟨h.error_eq, ?_, ?_⟩
    · simp [register, initialMode, h.entries_eq, mode?]
    · simp [register, initialMode, h.observers_eq, observer?]

/-- What was noted first stays noted. -/
theorem error_register (h : b.error = some e) : (b.register r).error = some e := by
  have hkept (e' : DeskError) : some (b.error.getD e') = some e := by
    rw [h, Option.getD_some]
  cases r with
  | mode m =>
    rw [register, Blueprint.mode]
    split
    · exact hkept _
    · exact h
  | observer o =>
    rw [register, Blueprint.observer]
    split
    · exact hkept _
    · split
      · exact hkept _
      · exact h
  | initial i => exact h

/-- Registering leaves the name as it is, and of two modes to start in the later counts. -/
theorem register_frame :
    (b.register r).name = b.name ∧ (b.register r).initial = r.initial?.or b.initial := by
  cases r with
  | mode m =>
    rw [register, Blueprint.mode]
    split
    · exact ⟨rfl, rfl⟩
    · exact ⟨rfl, rfl⟩
  | observer o =>
    rw [register, Blueprint.observer]
    split
    · exact ⟨rfl, rfl⟩
    · split
      · exact ⟨rfl, rfl⟩
      · exact ⟨rfl, rfl⟩
  | initial i => exact ⟨rfl, rfl⟩

theorem name_ofRegistrations : (ofRegistrations name rs).name = name := by
  induction rs using List.reverseRecOn with
  | nil => rfl
  | append_singleton rs r ih => rw [ofRegistrations_concat, register_frame.1, ih]

theorem initial_ofRegistrations :
    (ofRegistrations name rs).initial = (rs.filterMap initial?).getLast? := by
  induction rs using List.reverseRecOn with
  | nil => rfl
  | append_singleton rs r ih =>
    rw [ofRegistrations_concat, register_frame.2, ih, List.filterMap_append, List.getLast?_append]
    cases r with
    | mode m => rfl
    | observer o => rfl
    | initial i => rfl

/-- The first fault of the registrations is noted, and without any all of them are taken. -/
private theorem error_and_holds :
    (∀ e, FirstFault Offends rs e → (ofRegistrations name rs).error = some e) ∧
      (Faultless Offends rs → (ofRegistrations name rs).Holds rs) := by
  induction rs using List.reverseRecOn with
  | nil =>
    refine ⟨fun e h ↦ absurd faultless_nil h.not_faultless, fun _ ↦ ⟨rfl, rfl, rfl⟩⟩
  | append_singleton rs r ih =>
    obtain ⟨herror, hholds⟩ := ih
    rw [ofRegistrations_concat]
    constructor
    · intro e h
      cases firstFault_concat.mp h with
      | inl h => exact error_register (herror e h)
      | inr h => exact (hholds h.1).register_of_offends h.2
    · intro h
      obtain ⟨hrs, hr⟩ := faultless_concat.mp h
      exact (hholds hrs).register_of_not_offends hr

theorem holds_ofRegistrations (h : Faultless Offends rs) : (ofRegistrations name rs).Holds rs :=
  error_and_holds.2 h

/-- What is noted is the first fault of the registrations. -/
theorem error_ofRegistrations :
    (ofRegistrations name rs).error = some e ↔ FirstFault Offends rs e := by
  constructor
  · intro h
    by_contra hfirst
    have hfaultless : Faultless Offends rs := faultless_iff.mpr fun e' h' ↦ by
      have he : some e = some e' := h.symm.trans (error_and_holds.1 e' h')
      exact hfirst (Option.some.inj he ▸ h')
    have hnone : (ofRegistrations name rs).error = none :=
      (holds_ofRegistrations hfaultless).error_eq
    rw [h] at hnone
    cases hnone
  · exact error_and_holds.1 e

end Blueprint

end TradeDesk
