import Mathlib.Algebra.BigOperators.Group.Finset.Piecewise
import TradeDesk.Proofs.Mavg.OpenLimit

/-!
# What the tally counts

Every deal that is carried out is counted once under its symbol and once in all. The strategy only
follows instruments of its symbols, so no deal is missed, and the symbols together are the totals.
-/

namespace TradeDesk

namespace Mavg

/-- The integer counters of the tally. -/
inductive Counter where
  | operations
  | opens
  | closes
  | wins
  | losses

namespace Counter

/-- The value of a counter. -/
def value (c : Counters) : Counter → UInt32
  | operations => c.operations
  | opens => c.opens
  | closes => c.closes
  | wins => c.wins
  | losses => c.losses

/-- Whether a counter counts a deal. A closing without profit is a loss. -/
def counts : Counter → Deal → Bool
  | operations, _ => true
  | opens, deal => deal.isOpening
  | closes, deal => !deal.isOpening
  | wins, .closing _ profit => 0.0 < profit
  | losses, .closing _ profit => !(0.0 < profit : Bool)
  | wins, .opening _ => false
  | losses, .opening _ => false

end Counter

namespace Deal

def symbol (deal : Deal) : String := deal.command.key.symbol

/-- Counters with one more deal. -/
def countIn (c : Counters) : Deal → Counters
  | opening _ => c.countOpen
  | closing _ profit => c.countClose profit

theorem note_eq (t : Tally) (deal : Deal) : deal.note t = t.count deal.symbol deal.countIn := by
  cases deal <;> rfl

end Deal

/-- Only the counters of a deal go up, by one. -/
theorem Counter.value_countIn (k : Counter) (c : Counters) (deal : Deal) :
    k.value (deal.countIn c) = k.value c + UInt32.ofNat (if k.counts deal then 1 else 0) := by
  cases deal with
  | opening command =>
    cases k <;> simp [value, counts, Deal.countIn, Counters.countOpen, Deal.isOpening]
  | closing command profit =>
    by_cases hwin : 0.0 < profit
    · cases k <;>
        simp [value, counts, Deal.countIn, Counters.countClose, Deal.isOpening, hwin]
    · cases k <;>
        simp [value, counts, Deal.countIn, Counters.countClose, Deal.isOpening, hwin]

/-! ### Counting deals -/

variable {deals deals' : List Deal} {c : Counters} {t : Tally} {symbols : List String}

/-- Counters that have counted deals, in whatever turn. -/
def Counted (deals : List Deal) (c : Counters) : Prop :=
  ∀ k : Counter, k.value c = UInt32.ofNat (deals.countP k.counts)

namespace Counted

theorem nil : Counted [] {} := by
  intro k
  cases k <;> rfl

theorem cons (h : Counted deals c) (deal : Deal) : Counted (deal :: deals) (deal.countIn c) := by
  intro k
  rw [k.value_countIn, h, List.countP_cons, UInt32.ofNat_add]

theorem perm (h : Counted deals c) (hperm : deals.Perm deals') : Counted deals' c := by
  intro k
  rw [h, hperm.countP_eq]

/-- No counter wraps around as long as the number of deals is a word. -/
theorem toNat_value (h : Counted deals c) (hfits : deals.length < UInt32.size) (k : Counter) :
    (k.value c).toNat = deals.countP k.counts := by
  rw [h, UInt32.toNat_ofNat_of_lt' (Nat.lt_of_le_of_lt List.countP_le_length hfits)]

end Counted

/-- A tally of some symbols that has counted deals, each under its symbol and in all. -/
structure Tallied (symbols : List String) (deals : List Deal) (t : Tally) : Prop where
  totals : Counted deals t.totals
  tracked : ∀ symbol ∈ symbols, ∃ c, t.symbols.get? symbol = some c ∧
    Counted (deals.filter (·.symbol = symbol)) c
  untracked : ∀ symbol, symbol ∉ symbols → t.symbols.get? symbol = none

namespace Tallied

theorem start (symbols : List String) (step : UInt32) :
    Tallied symbols [] (.start symbols step) where
  totals := .nil
  tracked symbol hsymbol := by
    refine ⟨{}, ?_, .nil⟩
    rw [Tally.start, Table.get?_ofList_map, if_pos hsymbol]
  untracked symbol hsymbol := by rw [Tally.start, Table.get?_ofList_map, if_neg hsymbol]

theorem perm (h : Tallied symbols deals t) (hperm : deals.Perm deals') :
    Tallied symbols deals' t where
  totals := h.totals.perm hperm
  tracked symbol hsymbol := by
    obtain ⟨c, hget, hc⟩ := h.tracked symbol hsymbol
    exact ⟨c, hget, hc.perm (hperm.filter _)⟩
  untracked := h.untracked

/-- The limit has no part in what is counted. -/
theorem raiseLimit (h : Tallied symbols deals t) : Tallied symbols deals t.raiseLimit :=
  ⟨h.totals, h.tracked, h.untracked⟩

/-- A deal on one of the symbols is counted under it, and in all. -/
theorem note {deal : Deal} (h : Tallied symbols deals t) (hdeal : deal.symbol ∈ symbols) :
    Tallied symbols (deal :: deals) (deal.note t) := by
  obtain ⟨c, hget, hc⟩ := h.tracked deal.symbol hdeal
  have hnote : deal.note t = { t with
      symbols := t.symbols.insert deal.symbol (deal.countIn c), totals := deal.countIn t.totals } := by
    rw [Deal.note_eq, Tally.count, hget]
  rw [hnote]
  refine ⟨h.totals.cons deal, fun symbol hsymbol ↦ ?_, fun symbol hsymbol ↦ ?_⟩
  · rw [Table.get?_insert]
    split
    · next heq =>
      subst heq
      rw [List.filter_cons_of_pos (by simp)]
      exact ⟨_, rfl, hc.cons deal⟩
    · next hne =>
      rw [List.filter_cons_of_neg (by simpa using Ne.symm hne)]
      exact h.tracked symbol hsymbol
  · have hne : symbol ≠ deal.symbol := fun heq ↦ hsymbol (heq ▸ hdeal)
    rw [Table.get?_insert, if_neg hne]
    exact h.untracked symbol hsymbol

theorem foldl_note {more : List Deal} (h : Tallied symbols deals t)
    (hmore : ∀ deal ∈ more, deal.symbol ∈ symbols) :
    Tallied symbols (more ++ deals) (more.foldl Deal.note t) := by
  induction more generalizing t deals with
  | nil => exact h
  | cons deal rest ih =>
    have hrest := ih (h.note (hmore deal List.mem_cons_self)) fun deal hdeal ↦
      hmore deal (List.mem_cons_of_mem _ hdeal)
    exact hrest.perm List.perm_middle

end Tallied

/-! ### The books balance -/

/-- Every deal is an opening or a closing. -/
theorem countP_operations (deals : List Deal) :
    deals.countP Counter.operations.counts =
      deals.countP Counter.opens.counts + deals.countP Counter.closes.counts := by
  induction deals with
  | nil => rfl
  | cons deal rest ih =>
    simp only [List.countP_cons, ih]
    cases deal with
    | opening command =>
      simp only [Counter.counts, Deal.isOpening, Bool.not_true, Bool.false_eq_true, if_true, if_false]
      omega
    | closing command profit =>
      simp only [Counter.counts, Deal.isOpening, Bool.not_false, Bool.false_eq_true, if_true,
        if_false]
      omega

/-- Every closing is a win or a loss. -/
theorem countP_closes (deals : List Deal) :
    deals.countP Counter.closes.counts =
      deals.countP Counter.wins.counts + deals.countP Counter.losses.counts := by
  induction deals with
  | nil => rfl
  | cons deal rest ih =>
    simp only [List.countP_cons, ih]
    cases deal with
    | opening command => simp [Counter.counts, Deal.isOpening]
    | closing command profit =>
      by_cases hwin : 0.0 < profit
      · simp only [Counter.counts, Deal.isOpening, hwin, decide_true, Bool.not_true, Bool.not_false,
          Bool.false_eq_true, if_true, if_false]
        omega
      · simp only [Counter.counts, Deal.isOpening, hwin, decide_false, Bool.not_false,
          Bool.false_eq_true, if_true, if_false]
        omega

/-- Deals of some kind are counted symbol by symbol. -/
theorem countP_eq_sum (p : Deal → Bool) {keys : Finset String}
    (hkeys : ∀ deal ∈ deals, deal.symbol ∈ keys) :
    deals.countP p = ∑ symbol ∈ keys, (deals.filter (·.symbol = symbol)).countP p := by
  induction deals with
  | nil => simp
  | cons deal rest ih =>
    have hone : ∀ symbol, ((deal :: rest).filter (·.symbol = symbol)).countP p =
        (rest.filter (·.symbol = symbol)).countP p +
          if deal.symbol = symbol then (if p deal then 1 else 0) else 0 := by
      intro symbol
      by_cases hsymbol : deal.symbol = symbol
      · rw [List.filter_cons_of_pos (by simpa using hsymbol), if_pos hsymbol, List.countP_cons]
      · rw [List.filter_cons_of_neg (by simpa using hsymbol), if_neg hsymbol, Nat.add_zero]
    simp only [hone]
    rw [Finset.sum_add_distrib, ← ih fun deal hdeal ↦ hkeys deal (List.mem_cons_of_mem _ hdeal),
      Finset.sum_ite_eq, if_pos (hkeys deal List.mem_cons_self), List.countP_cons]

/-- Every operation is an opening or a closing, and every closing a win or a loss. -/
structure Counters.Balanced (c : Counters) : Prop where
  operations_eq : c.operations.toNat = c.opens.toNat + c.closes.toNat
  closes_eq : c.closes.toNat = c.wins.toNat + c.losses.toNat

theorem Counted.balanced (h : Counted deals c) (hfits : deals.length < UInt32.size) :
    c.Balanced := by
  have hvalue := h.toNat_value hfits
  have hoperations : c.operations.toNat = _ := hvalue .operations
  have hopens : c.opens.toNat = _ := hvalue .opens
  have hcloses : c.closes.toNat = _ := hvalue .closes
  have hwins : c.wins.toNat = _ := hvalue .wins
  have hlosses : c.losses.toNat = _ := hvalue .losses
  constructor
  · rw [hoperations, hopens, hcloses, countP_operations]
  · rw [hcloses, hwins, hlosses, countP_closes]

/-- The books of a tally about orders: its totals are those of the orders, all counters balance, and
the symbols together are the totals. -/
structure Tally.Books (symbols : List String) (orders : List OrderCommand) (t : Tally) : Prop where
  opens_eq : t.totals.opens.toNat = orders.countP (·.orderType.isOpening)
  closes_eq : t.totals.closes.toNat = orders.countP (!·.orderType.isOpening)
  totals_balanced : t.totals.Balanced
  symbols_balanced : ∀ symbol c, t.symbols.get? symbol = some c → c.Balanced
  isSome_iff : ∀ symbol, (t.symbols.get? symbol).isSome ↔ symbol ∈ symbols
  totals_eq_sum : ∀ k : Counter, (k.value t.totals).toNat =
    ∑ symbol ∈ symbols.toFinset, (t.symbols.get? symbol).elim 0 fun c ↦ (k.value c).toNat

theorem Tallied.books (h : Tallied symbols deals t) (hfits : deals.length < UInt32.size)
    (hdeals : ∀ deal ∈ deals, deal.symbol ∈ symbols ∧
      deal.command.orderType.isOpening = deal.isOpening) :
    t.Books symbols (deals.map Deal.command) where
  opens_eq := by
    rw [List.countP_map]
    refine (h.totals.toNat_value hfits .opens).trans (List.countP_congr fun deal hdeal ↦ ?_)
    rw [Function.comp_apply, (hdeals deal hdeal).2]
    rfl
  closes_eq := by
    rw [List.countP_map]
    refine (h.totals.toNat_value hfits .closes).trans (List.countP_congr fun deal hdeal ↦ ?_)
    rw [Function.comp_apply, (hdeals deal hdeal).2]
    rfl
  totals_balanced := h.totals.balanced hfits
  symbols_balanced symbol c hget := by
    by_cases hsymbol : symbol ∈ symbols
    · obtain ⟨c', hget', hc⟩ := h.tracked symbol hsymbol
      rw [hget] at hget'
      cases hget'
      exact hc.balanced (Nat.lt_of_le_of_lt (List.length_filter_le _ _) hfits)
    · rw [h.untracked symbol hsymbol] at hget
      cases hget
  isSome_iff symbol := by
    by_cases hsymbol : symbol ∈ symbols
    · obtain ⟨c, hget, -⟩ := h.tracked symbol hsymbol
      simp [hget, hsymbol]
    · simp [h.untracked symbol hsymbol, hsymbol]
  totals_eq_sum k := by
    have hkeys : ∀ deal ∈ deals, deal.symbol ∈ symbols.toFinset :=
      fun deal hdeal ↦ List.mem_toFinset.mpr (hdeals deal hdeal).1
    rw [h.totals.toNat_value hfits, countP_eq_sum k.counts hkeys]
    refine Finset.sum_congr rfl fun symbol hsymbol ↦ ?_
    obtain ⟨c, hget, hc⟩ := h.tracked symbol (List.mem_toFinset.mp hsymbol)
    rw [hget, Option.elim_some,
      hc.toNat_value (Nat.lt_of_le_of_lt (List.length_filter_le _ _) hfits)]

end Mavg

namespace MavgStrategy

open Mavg

variable {s₀ s : MavgStrategy} {settings : MavgSettings} {ticks : List (Desk × Tick)}
  {rounds : List Round}

/-- The tally has counted the deals of the run, each once. -/
theorem tallied_history (h₀ : ofSettings settings = .ok s₀)
    (h : s₀.history ticks = .ok (rounds, s)) :
    Tallied settings.symbols (dealsOf rounds) s.tally := by
  induction ticks generalizing rounds s with
  | nil =>
    cases h
    rw [tally_ofSettings h₀]
    exact .start settings.symbols settings.lossLimitStep
  | cons x ticks ih =>
    obtain ⟨earlier, s₁, d', hearlier, htick, rfl⟩ := history_cons_eq_ok.mp h
    have hsymbols : ∀ deal ∈ s₁.dealsOn x.1 x.2, deal.symbol ∈ settings.symbols :=
      fun deal hdeal ↦ (of_mem_dealsOf h₀ h (List.mem_append_left _ hdeal)).1
    have hround := (ih hearlier).foldl_note hsymbols
    rw [tally_onTick ((steady_ofSettings h₀).history hearlier).named htick, dealsOf_cons]
    split
    · exact hround.raiseLimit
    · exact hround

/-- However a run goes, the tally keeps the books of the orders that the desk accepted, which are all
that the strategy does to a desk, as long as their number is a word. -/
theorem tally_books (h₀ : ofSettings settings = .ok s₀) (h : s₀.history ticks = .ok (rounds, s))
    (hfits : (ordersOf rounds).length < UInt32.size) :
    s.tally.Books settings.symbols (ordersOf rounds) ∧
      ∀ (d : Desk) (tick : Tick) (s' : MavgStrategy) (d' : Desk), s.onTick d tick = .ok (s', d') →
        d.Accepts strategyName (ordersOf [s.round d tick s']) d' := by
  rw [ordersOf, List.length_map] at hfits
  exact ⟨(tallied_history h₀ h).books hfits fun deal ↦ of_mem_dealsOf h₀ h,
    fun d tick s' d' ↦ accepts_round⟩

/-- The books of a closing at a loss and an opening. -/
theorem books_of_loss_and_opening :
    ∃ (s₀ s : MavgStrategy) (rounds : List Round),
      ofSettings {} = .ok s₀ ∧
      s₀.history [(risingDesk, tickAt litecoin 2000), (losingDesk, tickAt litecoin 1000)] =
        .ok (rounds, s) ∧
      (ordersOf rounds).map (·.orderType) = [.openLong, .closeLong] ∧
      s.tally.Books ["ltc_usd", "etc_usd"] (ordersOf rounds) := by
  have hrun : ((ofSettings {}).toOption.any fun s₀ ↦
      (s₀.history [(risingDesk, tickAt litecoin 2000),
        (losingDesk, tickAt litecoin 1000)]).toOption.any fun x ↦
          decide ((ordersOf x.1).map (·.orderType) = [.openLong, .closeLong])) = true := by
    decide +kernel
  obtain ⟨s₀, h₀, hrun⟩ := Except.any_toOption.mp hrun
  obtain ⟨⟨rounds, s⟩, h, hrun⟩ := Except.any_toOption.mp hrun
  have horders : (ordersOf rounds).map (·.orderType) = [.openLong, .closeLong] :=
    of_decide_eq_true hrun
  have hlength : (ordersOf rounds).length = 2 := by
    rw [← List.length_map (·.orderType), horders]
    rfl
  exact ⟨s₀, s, rounds, h₀, h, horders, (tally_books h₀ h (hlength ▸ by decide)).1⟩

end MavgStrategy

end TradeDesk
