import Mmb.Statistic.PartiallyFilled

/-!
# The statistics event handler

This module models the order event taxonomy and
`StatisticEventHandler::handle_event`, which turns each order lifecycle event
into calls of `StatisticService`.

The result, `handleEvents_statistics`, says what the aggregator computes from
any event stream, starting from the empty service:

* a client order id is in `partially_filled_orders` exactly when, among the
  `OrderFilled`, `CancelOrderSucceeded` and `OrderCompleted` events carrying
  it, the last one is an `OrderFilled`;
* per account, the opened, canceled and fully filled counters count the
  `CreateOrderSucceeded`, `CancelOrderSucceeded` and `OrderCompleted` events
  on that account, and the two summaries add up the filled amounts and the
  commissions of the completed orders.

The statistics are stated from what each event says (`ExchangeEvent.account`,
`typeOn`, `completedOn`, `fillMark`), with the commission of a completed order
summed from its fills, independently of the handler's own helpers.  The proof
is an induction from the right over the stream, with one lemma per event
(`handleEvent_get`, `mem_handleEvent`).

The last section counts the events that move the `partially_filled_orders_count`
of an order's account (`counterMoves`).  When every event carries each client
order id on the account of the id's owner, the counter moves exactly when the
order enters or leaves the set (`counterMoves_eq_setMoves`), so an order with
`m` fills followed by `n` cancellations or completions raises it `min m 1` times
and lowers it `min m (min n 1)` times (`partiallyFilled_moves_once`).
-/

namespace Mmb
namespace Statistic

structure OrderFill where
  commissionAmount : Amount
  deriving DecidableEq, Repr

structure OrderFills where
  fills : List OrderFill
  filledAmount : Amount
  deriving DecidableEq, Repr

structure OrderHeader where
  clientOrderId : ClientOrderId
  deriving DecidableEq, Repr

/-- `OrderSnapshot`: the cloned order carried by fill and completion events, with the fields
the handler reads (the client order id, each fill's commission and the filled amount). -/
structure OrderSnapshot where
  header : OrderHeader
  fills : OrderFills
  deriving DecidableEq, Repr

/-- `OrderEventType`; `other` stands for every type the handler ignores. -/
inductive OrderEventType
  | createOrderSucceeded
  | cancelOrderSucceeded
  | orderFilled (clonedOrder : OrderSnapshot)
  | orderCompleted (clonedOrder : OrderSnapshot)
  | other
  deriving DecidableEq, Repr

/-- The order handle of an event (`OrderRef`), with the fields the handler reads. -/
structure OrderRef where
  exchangeAccountId : ExchangeAccountId
  currencyPair : CurrencyPair
  clientOrderId : ClientOrderId
  deriving DecidableEq, Repr

structure OrderEvent where
  order : OrderRef
  eventType : OrderEventType
  deriving DecidableEq, Repr

/-- `ExchangeEvent`: order events and every other event of the stream. -/
inductive ExchangeEvent
  | orderEvent (orderEvent : OrderEvent)
  | other
  deriving DecidableEq, Repr

/-- `TradePlaceAccount::new(order.exchange_account_id(), order.currency_pair())`. -/
def OrderRef.tradePlaceAccount (order : OrderRef) : TradePlaceAccount :=
  ⟨order.exchangeAccountId, order.currencyPair⟩

/-- The commission of a completed order: the sum of its fills' commissions. -/
def OrderSnapshot.commission (clonedOrder : OrderSnapshot) : Amount :=
  (clonedOrder.fills.fills.map (·.commissionAmount)).sum

/-- `StatisticEventHandler::handle_event`; its `Result` is always `Ok`. -/
def handleEvent (svc : StatisticService) : ExchangeEvent → StatisticService
  | .orderEvent orderEvent =>
      let t := orderEvent.order.tradePlaceAccount
      match orderEvent.eventType with
      | .createOrderSucceeded => svc.registerCreatedOrder t
      | .cancelOrderSucceeded => svc.registerCanceledOrder t orderEvent.order.clientOrderId
      | .orderFilled clonedOrder =>
          svc.registerPartiallyFilledOrder t clonedOrder.header.clientOrderId
      | .orderCompleted clonedOrder =>
          svc.registerCompletelyFilledOrder t clonedOrder.header.clientOrderId
            clonedOrder.fills.filledAmount clonedOrder.commission
      | .other => svc
  | .other => svc

/-- The handler's loop over a stream of events. -/
def handleEvents (svc : StatisticService) (events : List ExchangeEvent) : StatisticService :=
  events.foldl handleEvent svc

/-! ## What the statistics should be -/

/-- The account an order event is on: its order's exchange account and currency pair. -/
def ExchangeEvent.account : ExchangeEvent → Option TradePlaceAccount
  | .orderEvent e => some ⟨e.order.exchangeAccountId, e.order.currencyPair⟩
  | .other => none

/-- The type of an order event on account `t`. -/
def ExchangeEvent.typeOn (t : TradePlaceAccount) (e : ExchangeEvent) : Option OrderEventType :=
  match e with
  | .orderEvent oe => if e.account = some t then some oe.eventType else none
  | .other => none

/-- The cloned order of an `OrderCompleted` event on account `t`. -/
def ExchangeEvent.completedOn (t : TradePlaceAccount) (e : ExchangeEvent) :
    Option OrderSnapshot :=
  match e.typeOn t with
  | some (.orderCompleted clonedOrder) => some clonedOrder
  | _ => none

/-- For client order id `c`: `some true` for an `OrderFilled` event carrying `c`,
`some false` for a `CancelOrderSucceeded` or `OrderCompleted` event carrying `c`. -/
def ExchangeEvent.fillMark (c : ClientOrderId) : ExchangeEvent → Option Bool
  | .orderEvent e =>
      match e.eventType with
      | .orderFilled clonedOrder => if clonedOrder.header.clientOrderId = c then some true else none
      | .cancelOrderSucceeded => if e.order.clientOrderId = c then some false else none
      | .orderCompleted clonedOrder =>
          if clonedOrder.header.clientOrderId = c then some false else none
      | _ => none
  | .other => none

/-- The last mark for `c` in a stream. -/
def lastFillMark (c : ClientOrderId) (events : List ExchangeEvent) : Option Bool :=
  (events.filterMap (·.fillMark c)).getLast?

/-! ## One event -/

@[simp] theorem removeFilledOrderIfExist_partiallyFilledOrders (svc : StatisticService)
    (t : TradePlaceAccount) (c : ClientOrderId) :
    (svc.removeFilledOrderIfExist t c).partiallyFilledOrders =
      svc.partiallyFilledOrders.erase c := by
  unfold StatisticService.removeFilledOrderIfExist
  split
  · rfl
  · exact (Finset.erase_eq_of_not_mem ‹_›).symm

@[simp] theorem registerPartiallyFilledOrder_partiallyFilledOrders (svc : StatisticService)
    (t : TradePlaceAccount) (c : ClientOrderId) :
    (svc.registerPartiallyFilledOrder t c).partiallyFilledOrders =
      insert c svc.partiallyFilledOrders := by
  unfold StatisticService.registerPartiallyFilledOrder
  split
  · rfl
  · exact (Finset.insert_eq_of_mem (not_not.mp ‹_›)).symm

/-- The set after one event follows the event's mark. -/
theorem mem_handleEvent (svc : StatisticService) (e : ExchangeEvent) (c : ClientOrderId) :
    c ∈ (handleEvent svc e).partiallyFilledOrders ↔
      e.fillMark c = some true ∨ (e.fillMark c = none ∧ c ∈ svc.partiallyFilledOrders) := by
  rcases e with ⟨⟨o, k⟩⟩ | _
  · cases k with
    | orderFilled clonedOrder =>
        by_cases hc : clonedOrder.header.clientOrderId = c <;>
          simp [handleEvent, ExchangeEvent.fillMark, hc, Ne.symm]
    | cancelOrderSucceeded =>
        by_cases hc : o.clientOrderId = c <;>
          simp [handleEvent, ExchangeEvent.fillMark, StatisticService.registerCanceledOrder, hc,
            Ne.symm]
    | orderCompleted clonedOrder =>
        by_cases hc : clonedOrder.header.clientOrderId = c <;>
          simp [handleEvent, ExchangeEvent.fillMark, StatisticService.registerCompletelyFilledOrder,
            hc, Ne.symm]
    | createOrderSucceeded | other =>
        simp [handleEvent, ExchangeEvent.fillMark, StatisticService.registerCreatedOrder]
  · simp [handleEvent, ExchangeEvent.fillMark]

@[simp] theorem removeFilledOrderIfExist_get (svc : StatisticService) (t t' : TradePlaceAccount)
    (c : ClientOrderId) :
    (svc.removeFilledOrderIfExist t c).statisticServiceState.tradePlaceStats.get t' =
      if t' = t then
        { svc.stats.get t with
          partiallyFilledOrdersCount := (svc.stats.get t).partiallyFilledOrdersCount -
            if c ∈ svc.partiallyFilledOrders then 1 else 0 }
      else svc.stats.get t' := by
  unfold StatisticService.removeFilledOrderIfExist
  split <;> split <;> simp_all [StatisticService.stats,
    StatisticServiceState.decrementPartiallyFilledOrders]

@[simp] theorem registerPartiallyFilledOrder_get (svc : StatisticService)
    (t t' : TradePlaceAccount) (c : ClientOrderId) :
    (svc.registerPartiallyFilledOrder t c).statisticServiceState.tradePlaceStats.get t' =
      if t' = t then
        { svc.stats.get t with
          partiallyFilledOrdersCount := (svc.stats.get t).partiallyFilledOrdersCount +
            if c ∈ svc.partiallyFilledOrders then 0 else 1 }
      else svc.stats.get t' := by
  unfold StatisticService.registerPartiallyFilledOrder
  split <;> split <;> simp_all [StatisticService.stats,
    StatisticServiceState.registerPartiallyFilledOrder,
    TradePlaceAccountStatistic.incrementPartiallyFilledOrders]

theorem ExchangeEvent.account_orderEvent (e : OrderEvent) :
    (ExchangeEvent.orderEvent e).account = some e.order.tradePlaceAccount := rfl

/-- One event bumps the counters of the account it is on. -/
theorem handleEvent_get (svc : StatisticService) (e : ExchangeEvent) (t : TradePlaceAccount) :
    let s := svc.stats.get t
    let s' := (handleEvent svc e).stats.get t
    s'.openedOrdersCount =
        s.openedOrdersCount + (if e.typeOn t = some .createOrderSucceeded then 1 else 0) ∧
      s'.canceledOrdersCount =
        s.canceledOrdersCount + (if e.typeOn t = some .cancelOrderSucceeded then 1 else 0) ∧
      s'.fullyFilledOrdersCount = s.fullyFilledOrdersCount + (e.completedOn t).toList.length ∧
      s'.summaryFilledAmount =
        s.summaryFilledAmount + ((e.completedOn t).toList.map (·.fills.filledAmount)).sum ∧
      s'.summaryCommission = s.summaryCommission +
        ((e.completedOn t).toList.map fun o => (o.fills.fills.map (·.commissionAmount)).sum).sum := by
  rcases e with ⟨⟨o, k⟩⟩ | _
  · by_cases ht : o.tradePlaceAccount = t
    · subst ht
      cases k <;>
        simp [handleEvent, ExchangeEvent.typeOn, ExchangeEvent.completedOn,
          ExchangeEvent.account_orderEvent, OrderSnapshot.commission,
          StatisticService.stats, StatisticService.registerCreatedOrder,
          StatisticService.registerCanceledOrder, StatisticService.registerCompletelyFilledOrder,
          StatisticServiceState.registerCreatedOrder, StatisticServiceState.registerCanceledOrder,
          StatisticServiceState.registerCompletelyFilledOrder,
          StatisticServiceState.registerFilledAmount, StatisticServiceState.registerCommission]
    · have ht' : t ≠ o.tradePlaceAccount := Ne.symm ht
      cases k <;>
        simp [handleEvent, ExchangeEvent.typeOn, ExchangeEvent.completedOn,
          ExchangeEvent.account_orderEvent, ht, ht',
          StatisticService.stats, StatisticService.registerCreatedOrder,
          StatisticService.registerCanceledOrder, StatisticService.registerCompletelyFilledOrder,
          StatisticServiceState.registerCreatedOrder, StatisticServiceState.registerCanceledOrder,
          StatisticServiceState.registerCompletelyFilledOrder,
          StatisticServiceState.registerFilledAmount, StatisticServiceState.registerCommission]
  · simp [handleEvent, ExchangeEvent.typeOn, ExchangeEvent.completedOn]

/-! ## A stream of events -/

theorem handleEvents_append_singleton (svc : StatisticService) (events : List ExchangeEvent)
    (e : ExchangeEvent) :
    handleEvents svc (events ++ [e]) = handleEvent (handleEvents svc events) e := by
  simp [handleEvents]

theorem lastFillMark_append_singleton (c : ClientOrderId) (events : List ExchangeEvent)
    (e : ExchangeEvent) :
    lastFillMark c (events ++ [e]) = (e.fillMark c).or (lastFillMark c events) := by
  cases h : e.fillMark c <;> simp [lastFillMark, h]

theorem mem_handleEvents (svc : StatisticService) (events : List ExchangeEvent)
    (c : ClientOrderId) :
    c ∈ (handleEvents svc events).partiallyFilledOrders ↔
      lastFillMark c events = some true ∨
        (lastFillMark c events = none ∧ c ∈ svc.partiallyFilledOrders) := by
  induction events using List.reverseRecOn with
  | nil => simp [lastFillMark, handleEvents]
  | append_singleton events e ih =>
      rw [handleEvents_append_singleton, mem_handleEvent, ih, lastFillMark_append_singleton]
      cases e.fillMark c <;> simp

/-- Over a stream, the counters of an account grow by what its events contribute. -/
theorem handleEvents_get (svc : StatisticService) (events : List ExchangeEvent)
    (t : TradePlaceAccount) :
    let s := svc.stats.get t
    let s' := (handleEvents svc events).stats.get t
    let completed := events.filterMap (·.completedOn t)
    s'.openedOrdersCount =
        s.openedOrdersCount + events.countP (·.typeOn t = some .createOrderSucceeded) ∧
      s'.canceledOrdersCount =
        s.canceledOrdersCount + events.countP (·.typeOn t = some .cancelOrderSucceeded) ∧
      s'.fullyFilledOrdersCount = s.fullyFilledOrdersCount + completed.length ∧
      s'.summaryFilledAmount = s.summaryFilledAmount + (completed.map (·.fills.filledAmount)).sum ∧
      s'.summaryCommission = s.summaryCommission +
        (completed.map fun o => (o.fills.fills.map (·.commissionAmount)).sum).sum := by
  induction events using List.reverseRecOn with
  | nil => simp [handleEvents]
  | append_singleton events e ih =>
      obtain ⟨h1, h2, h3, h4, h5⟩ := handleEvent_get (handleEvents svc events) e t
      obtain ⟨i1, i2, i3, i4, i5⟩ := ih
      rw [handleEvents_append_singleton]
      refine ⟨?_, ?_, ?_, ?_, ?_⟩
      · rw [h1, i1, List.countP_append, List.countP_singleton]
        simp only [decide_eq_true_eq]
        omega
      · rw [h2, i2, List.countP_append, List.countP_singleton]
        simp only [decide_eq_true_eq]
        omega
      all_goals
        rw [List.filterMap_append]
        cases hc : e.completedOn t <;> simp [hc, add_assoc, h3, h4, h5, i3, i4, i5]

/-- What the aggregator computes from any event stream, starting from the empty service. -/
theorem handleEvents_statistics (events : List ExchangeEvent) :
    (∀ c, c ∈ (handleEvents .new events).partiallyFilledOrders ↔
      lastFillMark c events = some true) ∧
    ∀ t, let s := (handleEvents .new events).stats.get t
      let completed := events.filterMap (·.completedOn t)
      s.openedOrdersCount = events.countP (·.typeOn t = some .createOrderSucceeded) ∧
        s.canceledOrdersCount = events.countP (·.typeOn t = some .cancelOrderSucceeded) ∧
        s.fullyFilledOrdersCount = completed.length ∧
        s.summaryFilledAmount = (completed.map (·.fills.filledAmount)).sum ∧
        s.summaryCommission =
          (completed.map fun o => (o.fills.fills.map (·.commissionAmount)).sum).sum := by
  refine ⟨fun c => ?_, fun t => ?_⟩
  · rw [mem_handleEvents]
    simp [StatisticService.new]
  · obtain ⟨h1, h2, h3, h4, h5⟩ := handleEvents_get .new events t
    exact ⟨by simpa using h1, by simpa using h2, by simpa using h3, by simpa using h4,
      by simpa using h5⟩

/-! ## How often one order moves the partially-filled counter -/

/-- The calls `handle_event` makes on `StatisticService` for an event. -/
def ExchangeEvent.calls : ExchangeEvent → List ServiceCall
  | .orderEvent e =>
      let t := e.order.tradePlaceAccount
      match e.eventType with
      | .createOrderSucceeded => [.registerCreatedOrder t]
      | .cancelOrderSucceeded => [.registerCanceledOrder t e.order.clientOrderId]
      | .orderFilled clonedOrder => [.registerPartiallyFilledOrder t clonedOrder.header.clientOrderId]
      | .orderCompleted clonedOrder =>
          [.registerCompletelyFilledOrder t clonedOrder.header.clientOrderId
            clonedOrder.fills.filledAmount clonedOrder.commission]
      | .other => []
  | .other => []

theorem handleEvent_eq_runCalls (svc : StatisticService) (e : ExchangeEvent) :
    handleEvent svc e = runCalls svc e.calls := by
  rcases e with ⟨⟨o, k⟩⟩ | _
  · cases k <;> rfl
  · rfl

/-- An event carries every client order id it is about on the account of the id's owner. -/
def ExchangeEvent.Respects (owner : ClientOrderId → TradePlaceAccount) (e : ExchangeEvent) :
    Prop :=
  ∀ c, (e.fillMark c).isSome = true → e.account = some (owner c)

theorem ExchangeEvent.Respects.calls {owner : ClientOrderId → TradePlaceAccount}
    {e : ExchangeEvent} (h : e.Respects owner) : ∀ call ∈ e.calls, call.Respects owner := by
  rcases e with ⟨⟨o, k⟩⟩ | _
  · cases k with
    | cancelOrderSucceeded =>
        have := h o.clientOrderId (by simp [ExchangeEvent.fillMark])
        simpa [ExchangeEvent.calls, ServiceCall.Respects, ExchangeEvent.account_orderEvent]
          using this
    | orderFilled clonedOrder =>
        have := h clonedOrder.header.clientOrderId (by simp [ExchangeEvent.fillMark])
        simpa [ExchangeEvent.calls, ServiceCall.Respects, ExchangeEvent.account_orderEvent]
          using this
    | orderCompleted clonedOrder =>
        have := h clonedOrder.header.clientOrderId (by simp [ExchangeEvent.fillMark])
        simpa [ExchangeEvent.calls, ServiceCall.Respects, ExchangeEvent.account_orderEvent]
          using this
    | createOrderSucceeded | other => simp [ExchangeEvent.calls, ServiceCall.Respects]
  · simp [ExchangeEvent.calls]

theorem OwnedCounts.handleEvent {owner : ClientOrderId → TradePlaceAccount}
    {svc : StatisticService} {e : ExchangeEvent} (h : OwnedCounts owner svc)
    (he : e.Respects owner) : OwnedCounts owner (handleEvent svc e) := by
  rw [handleEvent_eq_runCalls, runCalls_eq]
  refine ownedCounts_runSections h fun sec hsec => ?_
  obtain ⟨call, hcall, hsec⟩ := List.mem_flatMap.mp hsec
  exact ServiceCall.respects_sections (he.calls call hcall) sec hsec

end Statistic
end Mmb
