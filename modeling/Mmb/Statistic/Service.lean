import Mathlib.Algebra.BigOperators.Group.Finset
import Mathlib.Algebra.Order.Ring.Rat

/-!
# Statistics service: data model

This module models `core/statistic_service.rs`: the per-account counters
(`TradePlaceAccountStatistic`), the account map behind a reader-writer lock
(`StatisticServiceState`), and the set of partially filled orders behind its
own mutex (`StatisticService`).

Counters (`u64` in the source) are natural numbers and `Amount` (a decimal in
the source) is a rational, so every increment and every sum is exact.

The account map is only touched through `entry(..).or_default()`.  It is
modelled as a total function together with the finite set of accounts that
have an entry; an account without an entry reads as the zero statistic.

Every public method of the service takes its locks one after another.  Its
critical sections (`Section`) are the points at which concurrent calls
interleave, and `call_eq_sections` shows that each method is the run of its
sections.
-/

namespace Mmb
namespace Statistic

/-- `Amount` and `Price`: decimals in the source, exact rationals here.  The identifiers below
are only compared for equality. -/
abbrev Amount := ℚ

abbrev ExchangeAccountId := String

abbrev CurrencyPair := String

abbrev ClientOrderId := String

/-- `TradePlaceAccount`: the key of the statistics map. -/
structure TradePlaceAccount where
  exchangeAccountId : ExchangeAccountId
  currencyPair : CurrencyPair
  deriving DecidableEq, Repr

/-- `TradePlaceAccountStatistic`, whose derived default is all zeros. -/
structure TradePlaceAccountStatistic where
  openedOrdersCount : Nat := 0
  canceledOrdersCount : Nat := 0
  partiallyFilledOrdersCount : Nat := 0
  fullyFilledOrdersCount : Nat := 0
  summaryFilledAmount : Amount := 0
  summaryCommission : Amount := 0
  deriving DecidableEq, Repr

instance : Inhabited TradePlaceAccountStatistic := ⟨{}⟩

namespace TradePlaceAccountStatistic

@[simp] theorem default_partiallyFilledOrdersCount :
    (default : TradePlaceAccountStatistic).partiallyFilledOrdersCount = 0 := rfl

@[simps] def registerCreatedOrder (s : TradePlaceAccountStatistic) :
    TradePlaceAccountStatistic :=
  { s with openedOrdersCount := s.openedOrdersCount + 1 }

@[simps] def registerCanceledOrder (s : TradePlaceAccountStatistic) :
    TradePlaceAccountStatistic :=
  { s with canceledOrdersCount := s.canceledOrdersCount + 1 }

@[simps] def incrementPartiallyFilledOrders (s : TradePlaceAccountStatistic) :
    TradePlaceAccountStatistic :=
  { s with partiallyFilledOrdersCount := s.partiallyFilledOrdersCount + 1 }

/-- `decrement_partially_filled_orders`: at zero it only logs an error. -/
def decrementPartiallyFilledOrders (s : TradePlaceAccountStatistic) :
    TradePlaceAccountStatistic :=
  if s.partiallyFilledOrdersCount = 0 then s
  else { s with partiallyFilledOrdersCount := s.partiallyFilledOrdersCount - 1 }

@[simps] def incrementCompletelyFilledOrders (s : TradePlaceAccountStatistic) :
    TradePlaceAccountStatistic :=
  { s with fullyFilledOrdersCount := s.fullyFilledOrdersCount + 1 }

@[simps] def addSummaryFilledAmount (s : TradePlaceAccountStatistic) (filledAmount : Amount) :
    TradePlaceAccountStatistic :=
  { s with summaryFilledAmount := s.summaryFilledAmount + filledAmount }

@[simps] def addSummaryCommission (s : TradePlaceAccountStatistic) (commission : Amount) :
    TradePlaceAccountStatistic :=
  { s with summaryCommission := s.summaryCommission + commission }

@[simp] theorem decrementPartiallyFilledOrders_eq (s : TradePlaceAccountStatistic) :
    s.decrementPartiallyFilledOrders =
      { s with partiallyFilledOrdersCount := s.partiallyFilledOrdersCount - 1 } := by
  unfold decrementPartiallyFilledOrders
  split
  · rename_i h
    cases s
    simp_all
  · rfl

end TradePlaceAccountStatistic

/-- The account map of `StatisticServiceState`, read through `entry(..).or_default()`:
an account outside `keys` has no entry and reads as the default statistic. -/
structure TradePlaceStats where
  get : TradePlaceAccount → TradePlaceAccountStatistic
  keys : Finset TradePlaceAccount
  get_of_not_mem : ∀ t ∉ keys, get t = default

namespace TradePlaceStats

def empty : TradePlaceStats :=
  ⟨fun _ => default, ∅, fun _ _ => rfl⟩

/-- `entry(t).or_default()` followed by an update `f` of the entry. -/
def modify (m : TradePlaceStats) (t : TradePlaceAccount)
    (f : TradePlaceAccountStatistic → TradePlaceAccountStatistic) : TradePlaceStats where
  get := Function.update m.get t (f (m.get t))
  keys := insert t m.keys
  get_of_not_mem t' ht' := by
    rw [Finset.mem_insert, not_or] at ht'
    rw [Function.update_noteq ht'.1]
    exact m.get_of_not_mem t' ht'.2

/-- A counter summed over every account of the map; a missing entry counts as zero. -/
def sum (m : TradePlaceStats) (g : TradePlaceAccountStatistic → Nat) : Nat :=
  ∑ t ∈ m.keys, g (m.get t)

@[simp] theorem empty_get (t : TradePlaceAccount) : empty.get t = default := rfl

@[simp] theorem modify_get (m : TradePlaceStats) (t : TradePlaceAccount)
    (f : TradePlaceAccountStatistic → TradePlaceAccountStatistic) (t' : TradePlaceAccount) :
    (m.modify t f).get t' = if t' = t then f (m.get t) else m.get t' := by
  simp [modify, Function.update_apply]

@[simp] theorem sum_empty (g : TradePlaceAccountStatistic → Nat) : empty.sum g = 0 := rfl

theorem sum_eq_add_sum_erase (m : TradePlaceStats) (t : TradePlaceAccount)
    {g : TradePlaceAccountStatistic → Nat} (hg : g default = 0) :
    m.sum g = g (m.get t) + ∑ x ∈ m.keys.erase t, g (m.get x) := by
  by_cases ht : t ∈ m.keys
  · exact (Finset.add_sum_erase _ _ ht).symm
  · rw [m.get_of_not_mem t ht, hg, zero_add, Finset.erase_eq_of_not_mem ht]
    rfl

/-- How an update of one entry moves a counter summed over all accounts. -/
theorem sum_modify (m : TradePlaceStats) (t : TradePlaceAccount)
    (f : TradePlaceAccountStatistic → TradePlaceAccountStatistic)
    {g : TradePlaceAccountStatistic → Nat} (hg : g default = 0) :
    (m.modify t f).sum g + g (m.get t) = m.sum g + g (f (m.get t)) := by
  have hrest : ∑ x ∈ (m.modify t f).keys.erase t, g ((m.modify t f).get x) =
      ∑ x ∈ m.keys.erase t, g (m.get x) := by
    refine Finset.sum_congr (Finset.erase_insert_eq_erase _ _) fun x hx => ?_
    rw [modify_get, if_neg (Finset.ne_of_mem_erase hx)]
  rw [sum_eq_add_sum_erase _ t hg, sum_eq_add_sum_erase m t hg, hrest, modify_get, if_pos rfl]
  omega

end TradePlaceStats

structure DispositionExecutorStatistic where
  skippedEventsAmount : Nat := 0
  deriving DecidableEq, Repr

/-- `StatisticServiceState`: the account map (under a reader-writer lock) and the
disposition executor's counter (under a mutex). -/
structure StatisticServiceState where
  tradePlaceStats : TradePlaceStats
  dispositionExecutorStats : DispositionExecutorStatistic

namespace StatisticServiceState

def new : StatisticServiceState := ⟨TradePlaceStats.empty, {}⟩

/-- `self.trade_place_stats.write().entry(t).or_default().f()`: the shape shared by
every per-account method below. -/
def updateStat (st : StatisticServiceState) (t : TradePlaceAccount)
    (f : TradePlaceAccountStatistic → TradePlaceAccountStatistic) : StatisticServiceState :=
  { st with tradePlaceStats := st.tradePlaceStats.modify t f }

def registerCreatedOrder (st : StatisticServiceState) (t : TradePlaceAccount) :=
  st.updateStat t TradePlaceAccountStatistic.registerCreatedOrder

def registerCanceledOrder (st : StatisticServiceState) (t : TradePlaceAccount) :=
  st.updateStat t TradePlaceAccountStatistic.registerCanceledOrder

def registerPartiallyFilledOrder (st : StatisticServiceState) (t : TradePlaceAccount) :=
  st.updateStat t TradePlaceAccountStatistic.incrementPartiallyFilledOrders

def decrementPartiallyFilledOrders (st : StatisticServiceState) (t : TradePlaceAccount) :=
  st.updateStat t TradePlaceAccountStatistic.decrementPartiallyFilledOrders

def registerCompletelyFilledOrder (st : StatisticServiceState) (t : TradePlaceAccount) :=
  st.updateStat t TradePlaceAccountStatistic.incrementCompletelyFilledOrders

def registerFilledAmount (st : StatisticServiceState) (t : TradePlaceAccount)
    (filledAmount : Amount) :=
  st.updateStat t (·.addSummaryFilledAmount filledAmount)

def registerCommission (st : StatisticServiceState) (t : TradePlaceAccount)
    (commission : Amount) :=
  st.updateStat t (·.addSummaryCommission commission)

def registerSkippedEvent (st : StatisticServiceState) : StatisticServiceState :=
  { st with dispositionExecutorStats :=
      ⟨st.dispositionExecutorStats.skippedEventsAmount + 1⟩ }

@[simp] theorem updateStat_tradePlaceStats (st : StatisticServiceState) (t : TradePlaceAccount)
    (f : TradePlaceAccountStatistic → TradePlaceAccountStatistic) :
    (st.updateStat t f).tradePlaceStats = st.tradePlaceStats.modify t f := rfl

@[simp] theorem registerSkippedEvent_tradePlaceStats (st : StatisticServiceState) :
    st.registerSkippedEvent.tradePlaceStats = st.tradePlaceStats := rfl

end StatisticServiceState

/-- `StatisticService`: the statistics and the set of partially filled orders, the
latter under its own mutex. -/
structure StatisticService where
  statisticServiceState : StatisticServiceState
  partiallyFilledOrders : Finset ClientOrderId

namespace StatisticService

def new : StatisticService := ⟨StatisticServiceState.new, ∅⟩

def stats (svc : StatisticService) : TradePlaceStats :=
  svc.statisticServiceState.tradePlaceStats

@[simp] theorem new_stats_get (t : TradePlaceAccount) : new.stats.get t = {} := rfl

def registerCreatedOrder (svc : StatisticService) (t : TradePlaceAccount) : StatisticService :=
  { svc with statisticServiceState := svc.statisticServiceState.registerCreatedOrder t }

/-- `remove_filled_order_if_exist`: under the set's mutex, decrement and remove. -/
def removeFilledOrderIfExist (svc : StatisticService) (t : TradePlaceAccount)
    (c : ClientOrderId) : StatisticService :=
  if c ∈ svc.partiallyFilledOrders then
    ⟨svc.statisticServiceState.decrementPartiallyFilledOrders t,
      svc.partiallyFilledOrders.erase c⟩
  else svc

def registerCanceledOrder (svc : StatisticService) (t : TradePlaceAccount)
    (c : ClientOrderId) : StatisticService :=
  ({ svc with statisticServiceState := svc.statisticServiceState.registerCanceledOrder t }
    : StatisticService).removeFilledOrderIfExist t c

/-- `register_partially_filled_order`: under the set's mutex, increment and insert. -/
def registerPartiallyFilledOrder (svc : StatisticService) (t : TradePlaceAccount)
    (c : ClientOrderId) : StatisticService :=
  if c ∉ svc.partiallyFilledOrders then
    ⟨svc.statisticServiceState.registerPartiallyFilledOrder t,
      insert c svc.partiallyFilledOrders⟩
  else svc

def registerCompletelyFilledOrder (svc : StatisticService) (t : TradePlaceAccount)
    (c : ClientOrderId) (filledAmount commission : Amount) : StatisticService :=
  let svc₁ : StatisticService :=
    { svc with
      statisticServiceState := svc.statisticServiceState.registerCompletelyFilledOrder t }
  let svc₂ := svc₁.removeFilledOrderIfExist t c
  let svc₃ : StatisticService :=
    { svc₂ with
      statisticServiceState := svc₂.statisticServiceState.registerFilledAmount t filledAmount }
  { svc₃ with
    statisticServiceState := svc₃.statisticServiceState.registerCommission t commission }

def registerSkippedEvent (svc : StatisticService) : StatisticService :=
  { svc with statisticServiceState := svc.statisticServiceState.registerSkippedEvent }

end StatisticService

/-- A critical section of the service: the work done under one lock, the `trade_place_stats`
write lock, the `disposition_executor_stats` mutex, or the `partially_filled_orders` mutex with
the counter update nested inside.  Concurrent calls interleave only between sections. -/
inductive Section
  | registerCreatedOrder (t : TradePlaceAccount)
  | registerCanceledOrder (t : TradePlaceAccount)
  | registerCompletelyFilledOrder (t : TradePlaceAccount)
  | registerFilledAmount (t : TradePlaceAccount) (filledAmount : Amount)
  | registerCommission (t : TradePlaceAccount) (commission : Amount)
  | registerSkippedEvent
  | registerPartiallyFilledOrder (t : TradePlaceAccount) (c : ClientOrderId)
  | removeFilledOrderIfExist (t : TradePlaceAccount) (c : ClientOrderId)
  deriving DecidableEq, Repr

def Section.run (svc : StatisticService) : Section → StatisticService
  | .registerCreatedOrder t => svc.registerCreatedOrder t
  | .registerCanceledOrder t =>
      { svc with statisticServiceState := svc.statisticServiceState.registerCanceledOrder t }
  | .registerCompletelyFilledOrder t =>
      { svc with
        statisticServiceState := svc.statisticServiceState.registerCompletelyFilledOrder t }
  | .registerFilledAmount t a =>
      { svc with statisticServiceState := svc.statisticServiceState.registerFilledAmount t a }
  | .registerCommission t a =>
      { svc with statisticServiceState := svc.statisticServiceState.registerCommission t a }
  | .registerSkippedEvent => svc.registerSkippedEvent
  | .registerPartiallyFilledOrder t c => svc.registerPartiallyFilledOrder t c
  | .removeFilledOrderIfExist t c => svc.removeFilledOrderIfExist t c

/-- A call of one of the service's public methods. -/
inductive ServiceCall
  | registerCreatedOrder (t : TradePlaceAccount)
  | registerCanceledOrder (t : TradePlaceAccount) (c : ClientOrderId)
  | registerPartiallyFilledOrder (t : TradePlaceAccount) (c : ClientOrderId)
  | registerCompletelyFilledOrder (t : TradePlaceAccount) (c : ClientOrderId)
      (filledAmount commission : Amount)
  | registerSkippedEvent
  deriving DecidableEq, Repr

def ServiceCall.run (svc : StatisticService) : ServiceCall → StatisticService
  | .registerCreatedOrder t => svc.registerCreatedOrder t
  | .registerCanceledOrder t c => svc.registerCanceledOrder t c
  | .registerPartiallyFilledOrder t c => svc.registerPartiallyFilledOrder t c
  | .registerCompletelyFilledOrder t c a m => svc.registerCompletelyFilledOrder t c a m
  | .registerSkippedEvent => svc.registerSkippedEvent

/-- The critical sections of a call, in the order the method takes its locks. -/
def ServiceCall.sections : ServiceCall → List Section
  | .registerCreatedOrder t => [.registerCreatedOrder t]
  | .registerCanceledOrder t c => [.registerCanceledOrder t, .removeFilledOrderIfExist t c]
  | .registerPartiallyFilledOrder t c => [.registerPartiallyFilledOrder t c]
  | .registerCompletelyFilledOrder t c a m =>
      [.registerCompletelyFilledOrder t, .removeFilledOrderIfExist t c,
        .registerFilledAmount t a, .registerCommission t m]
  | .registerSkippedEvent => [.registerSkippedEvent]

/-- Each method is the run of its critical sections. -/
theorem call_eq_sections (svc : StatisticService) (call : ServiceCall) :
    call.run svc = call.sections.foldl Section.run svc := by
  cases call <;> rfl

end Statistic
end Mmb
