import Mathlib.Data.List.Induction
import TradeDesk.Market.Quotes

/-!
# The newest quote

Ticks, trade prints and index prices of many instruments come in between each other, and some come
late. Of each kind and for each instrument the record held is the newest that came: the last to
arrive of those with the greatest timestamp. Nothing else has a part in it.
-/

namespace TradeDesk

/-! ### The newest of records -/

/-- The newest of records in the order of their arrival: no other has a greater timestamp, and those
that came after it have lesser ones. Of no records there is none. -/
def IsNewest {α : Type} (timestamp : α → UInt64) (arrived : List α) : Option α → Prop
  | none => arrived = []
  | some a => ∃ before after, arrived = before ++ a :: after ∧
      (∀ b ∈ before, timestamp b ≤ timestamp a) ∧ ∀ b ∈ after, timestamp b < timestamp a

namespace IsNewest

variable {α : Type} {timestamp : α → UInt64} {arrived : List α} {held : Option α} {a b : α}

/-- No record has a greater timestamp than the newest. -/
theorem le_of_mem (h : IsNewest timestamp arrived (some a)) (hb : b ∈ arrived) :
    timestamp b ≤ timestamp a := by
  obtain ⟨before, after, rfl, hbefore, hafter⟩ := h
  rcases List.mem_append.mp hb with hb | hb
  · exact hbefore b hb
  · rcases List.mem_cons.mp hb with rfl | hb
    · exact UInt64.le_refl _
    · exact UInt64.le_of_lt (hafter b hb)

/-- The newest record is one of those that came. -/
theorem mem (h : IsNewest timestamp arrived (some a)) : a ∈ arrived := by
  obtain ⟨before, after, rfl, -⟩ := h
  exact List.mem_append_right _ List.mem_cons_self

/-- Once something came there is a newest record. -/
theorem exists_of_mem (h : IsNewest timestamp arrived held) (hb : b ∈ arrived) :
    ∃ a, held = some a ∧ timestamp b ≤ timestamp a := by
  cases held with
  | none =>
    have hempty : arrived = [] := h
    rw [hempty] at hb
    cases hb
  | some a => exact ⟨a, rfl, h.le_of_mem hb⟩

/-- After a record that is newer than all that follow comes none that is as new. -/
private theorem eq_of_append_cons {between after after' : List α}
    (h : a :: after = between ++ b :: after') (hafter : ∀ c ∈ after, timestamp c < timestamp a)
    (hle : timestamp a ≤ timestamp b) : a = b := by
  cases between with
  | nil => exact (List.cons.inj h).1
  | cons c between =>
    have hb : b ∈ after := by
      rw [(List.cons.inj h).2]
      exact List.mem_append_right _ List.mem_cons_self
    exact absurd hle (UInt64.not_le.mpr (hafter b hb))

/-- Of records there is one newest only. -/
theorem unique {held' : Option α} (h : IsNewest timestamp arrived held)
    (h' : IsNewest timestamp arrived held') : held = held' := by
  cases held with
  | none =>
    cases held' with
    | none => rfl
    | some b =>
      obtain ⟨a, ha, -⟩ := h.exists_of_mem h'.mem
      cases ha
  | some a =>
    obtain ⟨b, rfl, -⟩ := h'.exists_of_mem h.mem
    have hab := h'.le_of_mem h.mem
    have hba := h.le_of_mem h'.mem
    obtain ⟨before, after, rfl, -, hafter⟩ := h
    obtain ⟨before', after', heq, -, hafter'⟩ := h'
    -- One of the two comes first, and the other is not behind it.
    rcases List.append_eq_append_iff.mp heq with ⟨between, -, hrest⟩ | ⟨between, -, hrest⟩
    · exact congrArg some (eq_of_append_cons hrest hafter hab)
    · exact congrArg some (eq_of_append_cons hrest hafter' hba).symm

end IsNewest

/-- A record that came, or the one held if that has a greater timestamp. -/
def newer {α : Type} (timestamp : α → UInt64) (held : Option α) (a : α) : α :=
  match held with
  | some current => if timestamp a < timestamp current then current else a
  | none => a

/-- One more record is the newest unless the newest before has a greater timestamp. -/
theorem IsNewest.concat {α : Type} {timestamp : α → UInt64} {arrived : List α} {held : Option α}
    (h : IsNewest timestamp arrived held) (a : α) :
    IsNewest timestamp (arrived ++ [a]) (some (newer timestamp held a)) := by
  cases held with
  | none =>
    have hempty : arrived = [] := h
    exact ⟨[], [], by rw [hempty]; rfl, by simp, by simp⟩
  | some current =>
    by_cases hlt : timestamp a < timestamp current
    · have hnewer : newer timestamp (some current) a = current := if_pos hlt
      obtain ⟨before, after, rfl, hbefore, hafter⟩ := h
      rw [hnewer]
      refine ⟨before, after ++ [a], by simp, hbefore, fun b hb ↦ ?_⟩
      rcases List.mem_append.mp hb with hb | hb
      · exact hafter b hb
      · rw [List.mem_singleton.mp hb]
        exact hlt
    · have hnewer : newer timestamp (some current) a = a := if_neg hlt
      rw [hnewer]
      refine ⟨arrived, [], rfl, fun b hb ↦ ?_, by simp⟩
      exact UInt64.le_trans (h.le_of_mem hb) (UInt64.not_lt.mp hlt)

/-! ### Records of three kinds -/

/-- A record that comes in. -/
inductive Quote where
  | tick (t : Tick)
  | trade (t : TradePrint)
  | index (i : IndexQuote)

/-- A kind of records. -/
inductive QuoteKind where
  | tick
  | trade
  | index

namespace QuoteKind

/-- What a record of a kind is. -/
def Record : QuoteKind → Type
  | tick => Tick
  | trade => TradePrint
  | index => IndexQuote

/-- The instrument that a record is for. -/
def key : (kind : QuoteKind) → kind.Record → Instrument
  | tick => Tick.key
  | trade => TradePrint.key
  | index => IndexQuote.key

def timestamp : (kind : QuoteKind) → kind.Record → UInt64
  | tick => Tick.timestamp
  | trade => TradePrint.timestamp
  | index => IndexQuote.timestamp

/-- A record if it is of the kind. -/
def pick? : (kind : QuoteKind) → Quote → Option kind.Record
  | tick, .tick t => some t
  | trade, .trade t => some t
  | index, .index i => some i
  | _, _ => none

/-- A record if it is of the kind and for an instrument. -/
def pickFor? (kind : QuoteKind) (key : Instrument) (r : Quote) : Option kind.Record :=
  (kind.pick? r).filter fun a => kind.key a = key

/-- The records of the kind for an instrument, in the order in which they came. -/
def arrived (kind : QuoteKind) (key : Instrument) (records : List Quote) : List kind.Record :=
  records.filterMap (kind.pickFor? key)

end QuoteKind

namespace Quotes

/-- Stores a record with those of its kind. -/
def store (q : Quotes) : Quote → Quotes
  | .tick t => q.storeTick t
  | .trade t => q.storeTrade t
  | .index i => q.storeIndex i

/-- The quotes after records that came one after another. -/
def ofRecords (records : List Quote) : Quotes := records.foldl store {}

/-- The table of the records of a kind. -/
def table (q : Quotes) : (kind : QuoteKind) → Table Instrument kind.Record
  | .tick => q.ticks
  | .trade => q.trades
  | .index => q.indices

/-- The record of a kind that is held for an instrument. -/
def last? (q : Quotes) (kind : QuoteKind) (key : Instrument) : Option kind.Record :=
  (q.table kind).get? key

/-- Storing a record leaves the newer of it and the one held. -/
theorem get?_storeLatest {α : Type} (timestamp : α → UInt64) (held : Table Instrument α)
    (key key' : Instrument) (a : α) :
    (storeLatest timestamp held key a).get? key' =
      if key' = key then some (newer timestamp (held.get? key) a) else held.get? key' := by
  unfold storeLatest newer
  cases h : held.get? key with
  | none => exact Table.get?_insert held key key' a
  | some current =>
    by_cases hlt : timestamp a < timestamp current
    · simp only [if_pos hlt]
      split
      · next hk => rw [hk, h]
      · rfl
    · simp only [if_neg hlt]
      exact Table.get?_insert held key key' a

/-- A record goes into the table of its kind and leaves the others alone. -/
theorem table_store (q : Quotes) (kind : QuoteKind) (r : Quote) :
    (q.store r).table kind =
      match kind.pick? r with
      | some a => storeLatest kind.timestamp (q.table kind) (kind.key a) a
      | none => q.table kind := by
  cases kind <;> cases r <;> rfl

/-- A record takes part in what is held of its kind for its instrument, and in nothing else. -/
theorem last?_store (q : Quotes) (kind : QuoteKind) (key : Instrument) (r : Quote) :
    (q.store r).last? kind key =
      match kind.pickFor? key r with
      | some a => some (newer kind.timestamp (q.last? kind key) a)
      | none => q.last? kind key := by
  rw [last?, table_store, QuoteKind.pickFor?]
  cases kind.pick? r with
  | none => rfl
  | some a =>
    simp only [get?_storeLatest, Option.filter_some, decide_eq_true_eq]
    by_cases ha : kind.key a = key
    · rw [if_pos ha, if_pos ha.symm, ha]
      rfl
    · rw [if_neg ha, if_neg (Ne.symm ha)]
      rfl

/-- What is held of a kind for an instrument is the newest that came. -/
theorem isNewest_last? (records : List Quote) (kind : QuoteKind) (key : Instrument) :
    IsNewest kind.timestamp (kind.arrived key records) ((ofRecords records).last? kind key) := by
  induction records using List.reverseRecOn with
  | nil => cases kind <;> rfl
  | append_singleton records r ih =>
    have hstore : ofRecords (records ++ [r]) = (ofRecords records).store r := List.foldl_append
    have harrived : kind.arrived key (records ++ [r]) =
        kind.arrived key records ++ (kind.pickFor? key r).toList := by
      simp only [QuoteKind.arrived, List.filterMap_append]
      cases h : kind.pickFor? key r <;> simp [h]
    rw [hstore, last?_store, harrived]
    cases kind.pickFor? key r with
    | none =>
      rw [Option.toList_none, List.append_nil]
      exact ih
    | some a => exact ih.concat a

/-- However records of all kinds and instruments come in between each other, what is held of each kind
for each instrument is the last to arrive of those with the greatest timestamp among the records of
that kind for that instrument, or nothing if there are none. What is held never gets older. And
whatever else comes, the same records of the kind for the instrument leave the same. -/
theorem newest_of_records (records : List Quote) (kind : QuoteKind) (key : Instrument) :
    let held? (records : List Quote) := (ofRecords records).last? kind key
    IsNewest kind.timestamp (kind.arrived key records) (held? records) ∧
    (∀ earlier, earlier <+: records → ∀ a, held? earlier = some a →
      ∃ b, held? records = some b ∧ kind.timestamp a ≤ kind.timestamp b) ∧
    ∀ others, kind.arrived key others = kind.arrived key records →
      held? others = held? records := by
  intro held?
  have hnewest (records : List Quote) :
      IsNewest kind.timestamp (kind.arrived key records) (held? records) :=
    isNewest_last? records kind key
  refine ⟨hnewest records, fun earlier hfirst a ha ↦ ?_, fun others harrived ↦ ?_⟩
  · have hearlier := hnewest earlier
    rw [ha] at hearlier
    have hmem : a ∈ kind.arrived key records := (hfirst.filterMap _).subset hearlier.mem
    exact (hnewest records).exists_of_mem hmem
  · have hothers := hnewest others
    rw [harrived] at hothers
    exact hothers.unique (hnewest records)

-- Of two records of one time the later is held, and one that comes late is not.
example :
    let key : Instrument := ⟨"okex", "btc_usd", "quarter"⟩
    let quotes := ofRecords
      [.index ⟨key, 2, 6400.0⟩, .index ⟨key, 2, 6500.0⟩, .index ⟨key, 1, 6300.0⟩]
    (quotes.indices.get? key).any (·.index == 6500.0) := by
  decide

end Quotes

end TradeDesk
