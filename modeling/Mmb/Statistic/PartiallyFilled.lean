import Mmb.Statistic.Service

/-!
# Partially filled counters against the partially filled set

`StatisticService` keeps two views of the partially filled orders: the set
`partially_filled_orders` and, per account, `partially_filled_orders_count`.
Both are changed only together, inside the two critical sections that hold the
set's mutex (`register_partially_filled_order`, `remove_filled_order_if_exist`).

We show, for every sequence of critical sections from the empty service, and so
for every interleaving of concurrent calls:

* `countCovers_runSections`: the counters summed over all accounts are at
  least the size of the set;
* `ownedCounts_runSections`: when every client order id `c` always comes with
  the same account `owner c`, the counter of each account is the number of its
  orders in the set;
* `underflowCount_eq_zero`: under the same condition the underflow branch of
  `decrement_partially_filled_orders` is never taken.

`partiallyFilled_counts_agree` states all three for calls run one after
another and for any interleaving of their critical sections.
-/

namespace Mmb
namespace Statistic

namespace TradePlaceStats

/-- `partially_filled_orders_count` of an account; zero for an account without entry. -/
def partiallyFilled (m : TradePlaceStats) (t : TradePlaceAccount) : Nat :=
  (m.get t).partiallyFilledOrdersCount

/-- `partially_filled_orders_count` summed over every account. -/
def partiallyFilledTotal (m : TradePlaceStats) : Nat :=
  m.sum (·.partiallyFilledOrdersCount)

theorem partiallyFilled_modify (m : TradePlaceStats) (t : TradePlaceAccount)
    (f : TradePlaceAccountStatistic → TradePlaceAccountStatistic) (t' : TradePlaceAccount) :
    (m.modify t f).partiallyFilled t' =
      if t' = t then (f (m.get t)).partiallyFilledOrdersCount else m.partiallyFilled t' := by
  simp only [partiallyFilled, modify_get]
  split <;> rfl

theorem partiallyFilledTotal_modify (m : TradePlaceStats) (t : TradePlaceAccount)
    (f : TradePlaceAccountStatistic → TradePlaceAccountStatistic) :
    (m.modify t f).partiallyFilledTotal + m.partiallyFilled t =
      m.partiallyFilledTotal + (f (m.get t)).partiallyFilledOrdersCount :=
  sum_modify m t f rfl

/-- An update that leaves `partially_filled_orders_count` alone changes neither the
counters nor their sum. -/
theorem modify_of_preserves (m : TradePlaceStats) (t : TradePlaceAccount)
    (f : TradePlaceAccountStatistic → TradePlaceAccountStatistic)
    (hf : ∀ x, (f x).partiallyFilledOrdersCount = x.partiallyFilledOrdersCount) :
    (m.modify t f).partiallyFilled = m.partiallyFilled ∧
      (m.modify t f).partiallyFilledTotal = m.partiallyFilledTotal := by
  have htot := partiallyFilledTotal_modify m t f
  rw [hf] at htot
  refine ⟨funext fun t' => ?_, by unfold partiallyFilled at htot; omega⟩
  rw [partiallyFilled_modify, hf]
  split
  · subst_vars
    rfl
  · rfl

end TradePlaceStats

open TradePlaceStats

/-- What one critical section does to the partially filled set and counters: nothing,
an insertion with an increment, or a removal with a decrement. -/
theorem Section.run_cases (svc : StatisticService) (sec : Section) :
    ((sec.run svc).partiallyFilledOrders = svc.partiallyFilledOrders ∧
      (sec.run svc).stats.partiallyFilled = svc.stats.partiallyFilled ∧
      (sec.run svc).stats.partiallyFilledTotal = svc.stats.partiallyFilledTotal) ∨
    (∃ t c, sec = .registerPartiallyFilledOrder t c ∧ c ∉ svc.partiallyFilledOrders ∧
      (sec.run svc).partiallyFilledOrders = insert c svc.partiallyFilledOrders ∧
      (sec.run svc).stats =
        svc.stats.modify t TradePlaceAccountStatistic.incrementPartiallyFilledOrders) ∨
    (∃ t c, sec = .removeFilledOrderIfExist t c ∧ c ∈ svc.partiallyFilledOrders ∧
      (sec.run svc).partiallyFilledOrders = svc.partiallyFilledOrders.erase c ∧
      (sec.run svc).stats =
        svc.stats.modify t TradePlaceAccountStatistic.decrementPartiallyFilledOrders) := by
  cases sec with
  | registerPartiallyFilledOrder t c =>
      by_cases hc : c ∈ svc.partiallyFilledOrders
      · left
        simp [Section.run, StatisticService.registerPartiallyFilledOrder, hc]
      · refine .inr (.inl ⟨t, c, rfl, hc, ?_, ?_⟩) <;>
          simp only [Section.run, StatisticService.registerPartiallyFilledOrder, if_pos hc]
        rfl
  | removeFilledOrderIfExist t c =>
      by_cases hc : c ∈ svc.partiallyFilledOrders
      · refine .inr (.inr ⟨t, c, rfl, hc, ?_, ?_⟩) <;>
          simp only [Section.run, StatisticService.removeFilledOrderIfExist, if_pos hc]
        rfl
      · left
        simp [Section.run, StatisticService.removeFilledOrderIfExist, hc]
  | registerSkippedEvent =>
      exact .inl ⟨rfl, rfl, rfl⟩
  | registerCreatedOrder t =>
      exact .inl ⟨rfl, modify_of_preserves svc.stats t
        TradePlaceAccountStatistic.registerCreatedOrder fun _ => rfl⟩
  | registerCanceledOrder t =>
      exact .inl ⟨rfl, modify_of_preserves svc.stats t
        TradePlaceAccountStatistic.registerCanceledOrder fun _ => rfl⟩
  | registerCompletelyFilledOrder t =>
      exact .inl ⟨rfl, modify_of_preserves svc.stats t
        TradePlaceAccountStatistic.incrementCompletelyFilledOrders fun _ => rfl⟩
  | registerFilledAmount t a =>
      exact .inl ⟨rfl, modify_of_preserves svc.stats t (·.addSummaryFilledAmount a) fun _ => rfl⟩
  | registerCommission t a =>
      exact .inl ⟨rfl, modify_of_preserves svc.stats t (·.addSummaryCommission a) fun _ => rfl⟩

/-! ## The summed counters cover the set -/

/-- Invariant (a): the set is no larger than the counters summed over all accounts. -/
def CountCoversSet (svc : StatisticService) : Prop :=
  svc.partiallyFilledOrders.card ≤ svc.stats.partiallyFilledTotal

theorem Section.run_countCovers {svc : StatisticService} (sec : Section)
    (h : CountCoversSet svc) : CountCoversSet (sec.run svc) := by
  unfold CountCoversSet at *
  rcases sec.run_cases svc with ⟨hs, -, htot⟩ | ⟨t, c, -, hc, hs, hst⟩ | ⟨t, c, -, hc, hs, hst⟩
  · rw [hs, htot]
    exact h
  · have htot := partiallyFilledTotal_modify svc.stats t
      TradePlaceAccountStatistic.incrementPartiallyFilledOrders
    rw [hs, hst, Finset.card_insert_of_not_mem hc]
    simp only [TradePlaceAccountStatistic.incrementPartiallyFilledOrders_partiallyFilledOrdersCount,
      partiallyFilled] at htot
    omega
  · have htot := partiallyFilledTotal_modify svc.stats t
      TradePlaceAccountStatistic.decrementPartiallyFilledOrders
    have hpos := Finset.card_pos.mpr ⟨c, hc⟩
    rw [hs, hst, Finset.card_erase_of_mem hc]
    simp only [TradePlaceAccountStatistic.decrementPartiallyFilledOrders_eq, partiallyFilled]
      at htot
    omega

/-! ## Counters owned by accounts -/

/-- The section passes every client order id with its owner's account. -/
def Section.Respects (owner : ClientOrderId → TradePlaceAccount) : Section → Prop
  | .registerPartiallyFilledOrder t c => t = owner c
  | .removeFilledOrderIfExist t c => t = owner c
  | _ => True

/-- Invariant (b): each account's counter is the number of its orders in the set. -/
def OwnedCounts (owner : ClientOrderId → TradePlaceAccount) (svc : StatisticService) : Prop :=
  ∀ t, svc.stats.partiallyFilled t = (svc.partiallyFilledOrders.filter (owner · = t)).card

theorem OwnedCounts.pos {owner : ClientOrderId → TradePlaceAccount} {svc : StatisticService}
    (h : OwnedCounts owner svc) {c : ClientOrderId} (hc : c ∈ svc.partiallyFilledOrders) :
    0 < svc.stats.partiallyFilled (owner c) := by
  rw [h]
  exact Finset.card_pos.mpr ⟨c, Finset.mem_filter.mpr ⟨hc, rfl⟩⟩

theorem Section.run_ownedCounts {owner : ClientOrderId → TradePlaceAccount}
    {svc : StatisticService} {sec : Section} (hsec : sec.Respects owner)
    (h : OwnedCounts owner svc) : OwnedCounts owner (sec.run svc) := by
  intro t'
  rcases sec.run_cases svc with
    ⟨hs, hcnt, -⟩ | ⟨t, c, rfl, hc, hs, hst⟩ | ⟨t, c, rfl, hc, hs, hst⟩
  · rw [hs, hcnt]
    exact h t'
  · subst hsec
    rw [hs, hst, Finset.filter_insert, partiallyFilled_modify, h t']
    by_cases ht : owner c = t'
    · subst ht
      rw [if_pos rfl, if_pos rfl,
        Finset.card_insert_of_not_mem fun hm => hc (Finset.mem_filter.mp hm).1, ← h]
      rfl
    · rw [if_neg (Ne.symm ht), if_neg ht]
  · subst hsec
    rw [hs, hst, Finset.filter_erase, partiallyFilled_modify, h t']
    by_cases ht : owner c = t'
    · subst ht
      have hmem : c ∈ svc.partiallyFilledOrders.filter (owner · = owner c) :=
        Finset.mem_filter.mpr ⟨hc, rfl⟩
      rw [if_pos rfl, Finset.card_erase_of_mem hmem,
        TradePlaceAccountStatistic.decrementPartiallyFilledOrders_eq, ← h]
      rfl
    · have hnm : c ∉ svc.partiallyFilledOrders.filter (owner · = t') :=
        fun hm => ht (Finset.mem_filter.mp hm).2
      rw [if_neg (Ne.symm ht), Finset.erase_eq_of_not_mem hnm]

/-! ## Runs -/

def runSections (svc : StatisticService) (secs : List Section) : StatisticService :=
  secs.foldl Section.run svc

/-- Whether a section takes the underflow branch of `decrement_partially_filled_orders`. -/
def Section.underflows (svc : StatisticService) : Section → Bool
  | .removeFilledOrderIfExist t c =>
      decide (c ∈ svc.partiallyFilledOrders ∧ svc.stats.partiallyFilled t = 0)
  | _ => false

/-- How many times a run of sections takes the underflow branch. -/
def underflowCount : StatisticService → List Section → Nat
  | _, [] => 0
  | svc, sec :: secs => (if sec.underflows svc then 1 else 0) + underflowCount (sec.run svc) secs

/-- Owned counters never meet the underflow branch. -/
theorem Section.underflows_eq_false {owner : ClientOrderId → TradePlaceAccount}
    {svc : StatisticService} {sec : Section} (hsec : sec.Respects owner)
    (h : OwnedCounts owner svc) : sec.underflows svc = false := by
  cases sec with
  | removeFilledOrderIfExist t c =>
      have hpos := h.pos (c := c)
      simp only [Section.Respects] at hsec
      subst hsec
      simp only [Section.underflows, decide_eq_false_iff_not, not_and]
      intro hc
      exact Nat.pos_iff_ne_zero.mp (hpos hc)
  | _ => rfl

theorem countCovers_runSections {svc : StatisticService} (h : CountCoversSet svc)
    (secs : List Section) : CountCoversSet (runSections svc secs) := by
  induction secs generalizing svc with
  | nil => exact h
  | cons sec secs ih => exact ih (sec.run_countCovers h)

theorem ownedCounts_runSections {owner : ClientOrderId → TradePlaceAccount}
    {svc : StatisticService} (h : OwnedCounts owner svc) {secs : List Section}
    (hsecs : ∀ sec ∈ secs, sec.Respects owner) : OwnedCounts owner (runSections svc secs) := by
  induction secs generalizing svc with
  | nil => exact h
  | cons sec secs ih =>
      exact ih (Section.run_ownedCounts (hsecs sec (.head _)) h)
        fun s hs => hsecs s (.tail _ hs)

theorem underflowCount_eq_zero {owner : ClientOrderId → TradePlaceAccount}
    {svc : StatisticService} (h : OwnedCounts owner svc) {secs : List Section}
    (hsecs : ∀ sec ∈ secs, sec.Respects owner) : underflowCount svc secs = 0 := by
  induction secs generalizing svc with
  | nil => rfl
  | cons sec secs ih =>
      have hsec := hsecs sec (.head _)
      rw [underflowCount, Section.underflows_eq_false hsec h, if_neg Bool.false_ne_true,
        ih (Section.run_ownedCounts hsec h) fun s hs => hsecs s (.tail _ hs)]

theorem countCovers_new : CountCoversSet .new := Nat.le_refl _

theorem ownedCounts_new (owner : ClientOrderId → TradePlaceAccount) :
    OwnedCounts owner .new := fun _ => rfl

/-! ## Calls -/

def runCalls (svc : StatisticService) (calls : List ServiceCall) : StatisticService :=
  calls.foldl ServiceCall.run svc

/-- Calls run one after another are the run of their critical sections. -/
theorem runCalls_eq (svc : StatisticService) (calls : List ServiceCall) :
    runCalls svc calls = runSections svc (calls.flatMap ServiceCall.sections) := by
  induction calls generalizing svc with
  | nil => rfl
  | cons call calls ih =>
      rw [runCalls, List.foldl_cons, ← runCalls, ih, call_eq_sections]
      simp [runSections, List.flatMap_cons, List.foldl_append]

/-- The call passes every client order id with its owner's account. -/
def ServiceCall.Respects (owner : ClientOrderId → TradePlaceAccount) : ServiceCall → Prop
  | .registerCanceledOrder t c => t = owner c
  | .registerPartiallyFilledOrder t c => t = owner c
  | .registerCompletelyFilledOrder t c _ _ => t = owner c
  | _ => True

theorem ServiceCall.respects_sections {owner : ClientOrderId → TradePlaceAccount}
    {call : ServiceCall} (h : call.Respects owner) :
    ∀ sec ∈ call.sections, sec.Respects owner := by
  cases call <;> simp_all [ServiceCall.sections, Section.Respects, ServiceCall.Respects]

/-- The partially filled counters agree with the partially filled set, for calls run one
after another and for any interleaving of the critical sections of concurrent calls:
the summed counters cover the set, and when each client order id always comes with the
same account, every account's counter counts its orders in the set and no decrement
underflows. -/
theorem partiallyFilled_counts_agree :
    (∀ calls : List ServiceCall, CountCoversSet (runCalls .new calls)) ∧
    (∀ (owner : ClientOrderId → TradePlaceAccount) (calls : List ServiceCall),
      (∀ call ∈ calls, call.Respects owner) →
        OwnedCounts owner (runCalls .new calls) ∧
          underflowCount .new (calls.flatMap ServiceCall.sections) = 0) ∧
    (∀ secs : List Section, CountCoversSet (runSections .new secs)) ∧
    (∀ (owner : ClientOrderId → TradePlaceAccount) (secs : List Section),
      (∀ sec ∈ secs, sec.Respects owner) →
        OwnedCounts owner (runSections .new secs) ∧ underflowCount .new secs = 0) := by
  have hsecs : ∀ (owner : ClientOrderId → TradePlaceAccount) (secs : List Section),
      (∀ sec ∈ secs, sec.Respects owner) →
        OwnedCounts owner (runSections .new secs) ∧ underflowCount .new secs = 0 :=
    fun owner _ h => ⟨ownedCounts_runSections (ownedCounts_new owner) h,
      underflowCount_eq_zero (ownedCounts_new owner) h⟩
  refine ⟨fun calls => ?_, fun owner calls h => ?_, countCovers_runSections countCovers_new,
    hsecs⟩
  · rw [runCalls_eq]
    exact countCovers_runSections countCovers_new _
  · rw [runCalls_eq]
    refine hsecs owner _ fun sec hsec => ?_
    obtain ⟨call, hcall, hsec⟩ := List.mem_flatMap.mp hsec
    exact ServiceCall.respects_sections (h call hcall) sec hsec

/-- A partial fill of order `"1"` and then its cancellation, on one account. -/
def fillAndCancelCalls : List ServiceCall :=
  [.registerPartiallyFilledOrder ⟨"account", "pair"⟩ "1",
    .registerCanceledOrder ⟨"account", "pair"⟩ "1"]

theorem fillAndCancel_counts_agree :
    (∀ call ∈ fillAndCancelCalls, call.Respects fun _ => ⟨"account", "pair"⟩) ∧
      OwnedCounts (fun _ => ⟨"account", "pair"⟩) (runCalls .new fillAndCancelCalls) ∧
      underflowCount .new (fillAndCancelCalls.flatMap ServiceCall.sections) = 0 :=
  have h : ∀ call ∈ fillAndCancelCalls, call.Respects fun _ => ⟨"account", "pair"⟩ := by
    intro call hcall
    simp only [fillAndCancelCalls, List.mem_cons, List.not_mem_nil, or_false] at hcall
    rcases hcall with rfl | rfl <;> rfl
  ⟨h, partiallyFilled_counts_agree.2.1 _ fillAndCancelCalls h⟩

end Statistic
end Mmb
