import Mathlib.Data.List.Nodup
import TradeDesk.Settings.Record

/-!
# Settings that can be used

What the check of settings ensures: exchanges with names of their own, and a strategy, if there is
one, on a configured exchange that aggregates the timeframe that it reads.
-/

namespace TradeDesk

namespace Settings

variable {s : Settings} {m : MavgSettings} {seen : List String} {l : List ExchangeSettings}
  {name : String} {tf : Timeframe}

/-- Settings that can be used have passed every part of their check. -/
private theorem parts_of_validate (hs : s.validate = .ok ()) :
    s.maxChecks ≠ 0 ∧ checkExchanges [] s.exchanges = .ok () ∧
      ∀ m, s.mavg = some m → s.checkMavg m = .ok () := by
  have hcheck : s.check = .ok () := by
    cases hc : s.check with
    | error fault =>
      rw [validate, hc] at hs
      cases hs
    | ok u => rfl
  unfold check at hcheck
  split at hcheck
  · cases hcheck
  split at hcheck
  · cases hcheck
  split at hcheck
  · cases hcheck
  next hchecks =>
    split at hcheck
    · cases hcheck
    split at hcheck
    · cases hcheck
    next hexchanges =>
      refine ⟨hchecks, hexchanges, fun m hm ↦ ?_⟩
      rw [hm] at hcheck
      exact hcheck

/-- A strategy looks at a request at least once. -/
theorem maxChecks_pos (hs : s.validate = .ok ()) : 0 < s.maxChecks.toNat :=
  Nat.pos_of_ne_zero fun h ↦ (parts_of_validate hs).1 (UInt32.toNat_inj.mp h)

/-- The strategy of settings that can be used was checked. -/
theorem checkMavg_of_validate (hs : s.validate = .ok ()) (hm : s.mavg = some m) :
    s.checkMavg m = .ok () :=
  (parts_of_validate hs).2.2 m hm

private theorem nodup_of_checkExchanges (h : checkExchanges seen l = .ok ()) :
    (l.map (·.name)).Nodup ∧ ∀ e ∈ l, e.name ∉ seen := by
  induction l generalizing seen with
  | nil => exact ⟨List.nodup_nil, nofun⟩
  | cons e rest ih =>
    unfold checkExchanges at h
    split at h
    · cases h
    split at h
    · cases h
    next hseen =>
      split at h
      · cases h
      split at h
      · cases h
      obtain ⟨hnodup, hrest⟩ := ih h
      rw [List.contains_iff_mem] at hseen
      have he : e.name ∉ rest.map (·.name) := by
        intro hmem
        obtain ⟨e', he', hname⟩ := List.mem_map.mp hmem
        exact hrest e' he' (hname ▸ List.mem_cons_self)
      refine ⟨List.nodup_cons.mpr ⟨he, hnodup⟩, fun e' he' ↦ ?_⟩
      cases List.mem_cons.mp he' with
      | inl heq => exact heq ▸ hseen
      | inr hmem => exact fun hm ↦ hrest e' hmem (List.mem_cons_of_mem _ hm)

/-- Every exchange has a name of its own. -/
theorem nodup_names (hs : s.validate = .ok ()) : (s.exchanges.map (·.name)).Nodup :=
  (nodup_of_checkExchanges (parts_of_validate hs).2.1).1

/-- The strategy trades on a configured exchange and reads one of its timeframes. -/
theorem exists_signalExchange (hs : s.validate = .ok ()) (hm : s.mavg = some m) :
    ∃ e ∈ s.exchanges, e.name = m.exchange ∧ m.signalTimeframe ∈ e.timeframes := by
  have hcheck := checkMavg_of_validate hs hm
  unfold checkMavg at hcheck
  split at hcheck
  · cases hcheck
  next e he =>
    split at hcheck
    · cases hcheck
    next htf =>
      rw [not_not, List.contains_iff_mem] at htf
      refine ⟨e, List.mem_of_find?_eq_some he, ?_, htf⟩
      simpa using List.find?_some he

/-- An exchange is configured when one has its name. -/
theorem isSome_exchange?_iff : (s.exchange? name).isSome ↔ ∃ e ∈ s.exchanges, e.name = name := by
  simp [exchange?]

private theorem mem_foldl_new (found all : List Timeframe) :
    tf ∈ all.foldl (fun seen tf ↦ if seen.contains tf then seen else seen ++ [tf]) found ↔
      tf ∈ found ∨ tf ∈ all := by
  induction all generalizing found with
  | nil => simp
  | cons tf' rest ih =>
    rw [List.foldl_cons, ih, List.mem_cons, ← or_assoc]
    refine or_congr_left ?_
    split
    · next h =>
      rw [List.contains_iff_mem] at h
      exact (or_iff_left_of_imp fun heq ↦ heq ▸ h).symm
    · rw [List.mem_append, List.mem_singleton]

/-- The timeframes are those that some exchange lists. -/
theorem mem_timeframes_iff : tf ∈ s.timeframes ↔ ∃ e ∈ s.exchanges, tf ∈ e.timeframes := by
  rw [timeframes, mem_foldl_new]
  simp

end Settings

end TradeDesk
