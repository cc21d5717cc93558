import Mmb.Cancel.Order

/-!
# `wait_cancel_order_work` as a step function

The leader of a `wait_cancel_order` call runs `wait_cancel_order_work`, with
`order_cancelled` and `check_order_cancellation_status` inlined at their call
sites.  `WorkPc` names each await point of these three functions and each
statement between them that reads the shared order; `workStep` takes one
step from a `WorkPc`.

Whatever the code awaits, or asks of the exchange adapter, is decided by the
environment through a `Choice`: how a future ends, which branch of the
`select!` wins, what `get_order_info` reports, and whether a synchronous hook
returns `Ok`.  Each step also returns the requests it makes on the exchange
adapter, so the model records every outside call of the coordinator.

The step lemmas at the end say once what a step can do: a move stays in its
part of the work, except that only the latch found clear leads into the retry
loop and only a cancelled token or a finished order leads out of it
(`workStep_next`); `Ok(())` comes from three places (`workStep_ok`); only
`emit` calls `add_event_on_order_change` (`workStep_addEvent`); and only the
`select!` with its cancel arm enabled and `check_order_cancellation_status`
reconcile the order with the venue (`workStep_reconciliation`).  The only write
to the order is the latch's (`WorkPc.orderAfter`).
-/

namespace Mmb
namespace Cancel

open Statistic (Amount OrderEventType)

/-- `RequestResult`, the outcome of a cancel request, with the `CancelOrderResult` and
`OrderInfo` it comes in; only the fields the coordinator reads are kept. -/
inductive RequestResult
  | success
  | error (error : ExchangeError)
  deriving DecidableEq, Repr

structure CancelOrderResult where
  outcome : RequestResult
  deriving DecidableEq, Repr

structure OrderInfo where
  orderStatus : OrderStatus
  filledAmount : Amount
  deriving DecidableEq, Repr

/-- A call the coordinator makes on the exchange adapter.  `startCancelOrder` records the
creation of a `start_cancel_order` future. -/
inductive Request
  | createOrderCreatedTask
  | startCancelOrder
  | createOrderFinishFuture
  | getOrderInfo
  | handleCancelOrderFailed (exchangeOrderId : ExchangeOrderId) (error : ExchangeError)
      (source : EventSourceType)
  | handleCancelOrderSucceeded (exchangeOrderId : ExchangeOrderId) (filledAmount : Amount)
      (source : EventSourceType)
  | checkOrderFills
  | addEventOnOrderChange (eventType : OrderEventType)
  deriving DecidableEq, Repr

/-- The errors of `wait_cancel_order_work`: the `bail!` on the fallback timer when the venue
must confirm explicitly, the `bail!` of `check_order_cancellation_status` for an order without
exchange id, and an error of the exchange adapter passed on by `?`. -/
inductive WorkError
  | timeout
  | noExchangeOrderId
  | request
  deriving DecidableEq, Repr

/-- The texts of the two `bail!`s; the second is a format string. -/
def WorkError.message : WorkError → Option String
  | .timeout =>
      some "Order was expected to cancel explicity via Rest or Web Socket but got timeout instead"
  | .noExchangeOrderId =>
      some "There are no exchange_order_id in order \x7b\x7d \x7b:?\x7d on \x7b\x7d"
  | .request => none

/-- The error `check_order_cancellation_status` hands to `handle_cancel_order_failed` when the
venue does not know the order and the cancel request brought no error. -/
def noResponseError : ExchangeError :=
  ⟨.unknown, "There are no any response from an exchange, so probably this order was not canceling",
    none⟩

/-- The await points of `wait_cancel_order_work` and the statements between them that
read the shared order.  Up to the latch: `begin` is `if order.status() == Creating`,
`awaitCreated` awaits `create_order_created_task`, `checkFinished` is the first
`is_finished()` check and `latch` the `fn_mut` on `is_canceling_from_wait_cancel_order`.  In
the retry loop: `loopHead` is its `while`, `select` the `select!` between `start_cancel_order`
and the 10 s timer, `statusLoop` and `awaitOrderInfo` the loop of
`check_order_cancellation_status` (with the error it was given) and its `get_order_info`,
`awaitStatusFills` its `check_order_fills`, `pendingSleep` and `awaitFinish` the sleep and
`create_order_finish_future` of `order_cancelled`, and `checkFinishedInLoop` the
`is_finished()` check that breaks the loop.  After it: `afterLoop` is the condition for
`check_order_fills`, `awaitFills` awaits it and `emit` sends `CancelOrderSucceeded`. -/
inductive WorkPc
  | begin
  | awaitCreated
  | checkFinished
  | latch
  | loopHead
  | select
  | statusLoop (exchangeError : Option ExchangeError)
  | awaitOrderInfo (exchangeError : Option ExchangeError)
  | awaitStatusFills
  | pendingSleep
  | awaitFinish
  | checkFinishedInLoop
  | afterLoop
  | awaitFills
  | emit
  deriving DecidableEq, Repr

/-- What the environment decides when a call takes a step: nothing (`go`), how the awaited
future or synchronous call ends, which branch of the `select!` wins and with what result
(`none` for `Err`), or what `get_order_info` returns and whether the `handle_cancel_order_*`
hook it leads to returns `Ok`.  Steps that await nothing ignore it. -/
inductive Choice
  | go
  | resolved (ok : Bool)
  | cancelOrder (result : Option (Option CancelOrderResult))
  | timeout
  | orderInfo (result : Except ExchangeErrorType OrderInfo) (hookOk : Bool)

inductive Flow
  | next (w : WorkPc)
  | ok
  | err (e : WorkError)
  deriving DecidableEq, Repr

/-- `order_cancelled` on the result of the cancel future: where the work goes next and
what it asks of the exchange adapter. -/
def orderCancelled (cancelOrderOutcome : Option CancelOrderResult) : WorkPc × List Request :=
  match cancelOrderOutcome with
  | some ⟨.error error⟩ =>
      match error.errorType with
      | .parsingError => (.statusLoop (some error), [])
      | .pendingError => (.pendingSleep, [])
      | .orderCompleted => (.awaitFinish, [.createOrderFinishFuture])
      | _ => (.checkFinishedInLoop, [])
  | _ => (.checkFinishedInLoop, [])

/-- The `match order_info` of `check_order_cancellation_status`. -/
def orderInfoOutcome (exchangeError : Option ExchangeError) (o : Order)
    (orderInfo : Except ExchangeErrorType OrderInfo) (hookOk : Bool) : Flow × List Request :=
  match orderInfo with
  | .error errorType =>
      if errorType = .orderNotFound then
        match o.exchangeOrderId with
        | some exchangeOrderId =>
            (if hookOk then .next .checkFinishedInLoop else .err .request,
              [.handleCancelOrderFailed exchangeOrderId (exchangeError.getD noResponseError)
                .restFallback])
        | none => (.err .noExchangeOrderId, [])
      else (.next (.statusLoop exchangeError), [])
  | .ok orderInfo =>
      match orderInfo.orderStatus with
      | .canceled =>
          match o.exchangeOrderId with
          | some exchangeOrderId =>
              (if hookOk then .next .checkFinishedInLoop else .err .request,
                [.handleCancelOrderSucceeded exchangeOrderId orderInfo.filledAmount
                  .restFallback])
          | none => (.next .checkFinishedInLoop, [])
      | .completed => (.next .awaitStatusFills, [.checkOrderFills])
      | _ => (.next .checkFinishedInLoop, [])

/-- One step of `wait_cancel_order_work` from `w` on the order `o`, for a call whose token
is `cancelled`: where it leads and the requests it makes.  What the step writes to the
order is `WorkPc.orderAfter`. -/
def workStep (allowed : AllowedEventSourceType) (checkOrderFills cancelled : Bool) (o : Order) :
    WorkPc → Choice → Option (Flow × List Request)
  | .begin, _ =>
      if o.status = .creating then some (.next .awaitCreated, [.createOrderCreatedTask])
      else some (.next .checkFinished, [])
  | .awaitCreated, .resolved ok => some (if ok then .next .checkFinished else .err .request, [])
  | .checkFinished, _ => some (if o.isFinished then .ok else .next .latch, [])
  | .latch, _ =>
      some (if o.internalProps.isCancelingFromWaitCancelOrder then .ok else .next .loopHead, [])
  | .loopHead, _ =>
      if cancelled then some (.next .afterLoop, [])
      else some (.next .select, [.startCancelOrder])
  | .select, .cancelOrder result =>
      if allowed = .fallbackOnly then none
      else
        match result with
        | none => some (.err .request, [])
        | some outcome => some (.next (orderCancelled outcome).1, (orderCancelled outcome).2)
  | .select, .timeout =>
      some (if allowed ≠ .all then .err .timeout else .next .checkFinishedInLoop, [])
  | .pendingSleep, .resolved _ => some (.next .checkFinishedInLoop, [])
  | .awaitFinish, .resolved ok =>
      some (if ok then .next .checkFinishedInLoop else .err .request, [])
  | .statusLoop exchangeError, _ =>
      if cancelled || o.isFinished then some (.next .checkFinishedInLoop, [])
      else some (.next (.awaitOrderInfo exchangeError), [.getOrderInfo])
  | .awaitOrderInfo exchangeError, .orderInfo result hookOk =>
      if o.isFinished then some (.next .checkFinishedInLoop, [])
      else some (orderInfoOutcome exchangeError o result hookOk)
  | .awaitStatusFills, .resolved _ => some (.next .checkFinishedInLoop, [])
  | .checkFinishedInLoop, _ =>
      some (if o.isFinished then .next .afterLoop else .next .loopHead, [])
  | .afterLoop, _ =>
      if needsFillCheck checkOrderFills o then some (.next .awaitFills, [.checkOrderFills])
      else some (.next .emit, [])
  | .awaitFills, .resolved _ => some (.next .emit, [])
  | .emit, c =>
      if o.internalProps.canceledNotFromWaitCancelOrder && o.status != .completed then
        match c with
        | .resolved ok =>
            some (if ok then .ok else .err .request,
              [.addEventOnOrderChange .cancelOrderSucceeded])
        | _ => none
      else some (.ok, [])
  | _, _ => none

/-- The order after a step from `w`: the `fn_mut` at the latch sets
`is_canceling_from_wait_cancel_order`; no other step writes the order. -/
def WorkPc.orderAfter (w : WorkPc) (o : Order) : Order :=
  if w = .latch then o.setCanceling else o

/-- The three parts of the work: up to the latch, the retry loop, and after it. -/
inductive Region
  | entry
  | retryLoop
  | afterLoop
  deriving DecidableEq, Repr

/-- The part of the work a point belongs to. -/
@[simp] def WorkPc.region : WorkPc → Region
  | .begin => .entry
  | .awaitCreated => .entry
  | .checkFinished => .entry
  | .latch => .entry
  | .loopHead => .retryLoop
  | .select => .retryLoop
  | .statusLoop _ => .retryLoop
  | .awaitOrderInfo _ => .retryLoop
  | .awaitStatusFills => .retryLoop
  | .pendingSleep => .retryLoop
  | .awaitFinish => .retryLoop
  | .checkFinishedInLoop => .retryLoop
  | .afterLoop => .afterLoop
  | .awaitFills => .afterLoop
  | .emit => .afterLoop

def WorkPc.isAwait : WorkPc → Bool
  | .awaitCreated | .select | .awaitOrderInfo _ | .awaitStatusFills | .pendingSleep
  | .awaitFinish | .awaitFills => true
  | _ => false

def Request.isAddEvent : Request → Bool
  | .addEventOnOrderChange _ => true
  | _ => false

/-- The requests of `order_cancelled` and `check_order_cancellation_status`, which reconcile
the order with the venue once a cancel request has returned. -/
def Request.isReconciliation : Request → Bool
  | .createOrderFinishFuture | .getOrderInfo | .handleCancelOrderFailed .. |
    .handleCancelOrderSucceeded .. => true
  | _ => false

@[simp] theorem WorkPc.orderAfter_isFinished (w : WorkPc) (o : Order) :
    (w.orderAfter o).isFinished = o.isFinished := by
  unfold WorkPc.orderAfter; split <;> simp

theorem WorkPc.orderAfter_of_ne {w : WorkPc} (h : w ≠ .latch) (o : Order) : w.orderAfter o = o :=
  if_neg h

theorem WorkPc.orderAfter_latch (w : WorkPc) (o : Order) :
    (w.orderAfter o).internalProps.isCancelingFromWaitCancelOrder =
      (decide (w = .latch) || o.internalProps.isCancelingFromWaitCancelOrder) := by
  unfold WorkPc.orderAfter; split <;> simp_all

/-! ## What one step can do -/

theorem orderCancelled_spec (outcome : Option CancelOrderResult) :
    (orderCancelled outcome).1.region = .retryLoop ∧
      (orderCancelled outcome).2.countP Request.isAddEvent = 0 := by
  unfold orderCancelled
  split
  · split <;> simp [Request.isAddEvent]
  · simp

theorem orderInfoOutcome_spec (exchangeError : Option ExchangeError) (o : Order)
    (result : Except ExchangeErrorType OrderInfo) (hookOk : Bool) :
    (orderInfoOutcome exchangeError o result hookOk).1 ≠ .ok ∧
      (∀ w, (orderInfoOutcome exchangeError o result hookOk).1 = .next w →
        w.region = .retryLoop) ∧
      (orderInfoOutcome exchangeError o result hookOk).2.countP Request.isAddEvent = 0 := by
  unfold orderInfoOutcome
  split
  · split
    · split <;> (try split) <;> simp [Request.isAddEvent]
    · simp
  · split
    · split <;> (try split) <;> simp [Request.isAddEvent]
    all_goals simp [Request.isAddEvent]

section Steps

variable {allowed : AllowedEventSourceType} {checkOrderFills cancelled : Bool} {o : Order}
  {w w' : WorkPc} {c : Choice} {f : Flow} {reqs : List Request}

/-- Every move from one point of the work to the next: it stays in its part, or enters the
retry loop through the latch found clear, or leaves the loop on a cancelled token or a
finished order. -/
theorem workStep_next
    (h : workStep allowed checkOrderFills cancelled o w c = some (.next w', reqs)) :
    w'.region = w.region ∧ (w = .latch → False) ∨
      (w = .latch ∧ o.internalProps.isCancelingFromWaitCancelOrder = false ∧
        w' = .loopHead) ∨
      (w = .loopHead ∧ cancelled = true ∧ w' = .afterLoop) ∨
      (w = .checkFinishedInLoop ∧ o.isFinished = true ∧ w' = .afterLoop) := by
  cases w
  case latch =>
    dsimp only [workStep] at h
    split at h <;> cases h
    exact .inr (.inl ⟨rfl, Bool.eq_false_iff.mpr ‹_›, rfl⟩)
  case loopHead =>
    dsimp only [workStep] at h
    split at h <;> cases h
    · exact .inr (.inr (.inl ⟨rfl, ‹_›, rfl⟩))
    · exact .inl ⟨rfl, WorkPc.noConfusion⟩
  case checkFinishedInLoop =>
    dsimp only [workStep] at h
    split at h <;> cases h
    · exact .inr (.inr (.inr ⟨rfl, ‹_›, rfl⟩))
    · exact .inl ⟨rfl, WorkPc.noConfusion⟩
  case awaitOrderInfo exchangeError =>
    refine .inl ⟨?_, WorkPc.noConfusion⟩
    cases c <;> dsimp only [workStep] at h <;> try cases h
    split at h
    · cases h
      rfl
    · exact (orderInfoOutcome_spec _ _ _ _).2.1 _ (congrArg Prod.fst (Option.some.inj h))
  -- every other point moves within its part of the work
  case begin | checkFinished | statusLoop | afterLoop =>
    refine .inl ⟨?_, WorkPc.noConfusion⟩
    dsimp only [workStep] at h
    split at h <;> cases h <;> rfl
  all_goals
    refine .inl ⟨?_, WorkPc.noConfusion⟩
    cases c <;> dsimp only [workStep] at h <;> (repeat' split at h) <;> cases h <;>
      first | rfl | exact (orderCancelled_spec _).1

/-- The work returns `Ok(())` only on a finished order before the latch, on the latch found
set, or at the end. -/
theorem workStep_ok (h : workStep allowed checkOrderFills cancelled o w c = some (.ok, reqs)) :
    w = .checkFinished ∧ o.isFinished = true ∨
      w = .latch ∧ o.internalProps.isCancelingFromWaitCancelOrder = true ∨ w = .emit := by
  cases w
  case checkFinished =>
    dsimp only [workStep] at h
    split at h <;> cases h
    exact .inl ⟨rfl, ‹_›⟩
  case latch =>
    dsimp only [workStep] at h
    split at h <;> cases h
    exact .inr (.inl ⟨rfl, ‹_›⟩)
  case awaitOrderInfo =>
    cases c <;> dsimp only [workStep] at h <;> try cases h
    split at h
    · cases h
    · exact absurd (congrArg Prod.fst (Option.some.inj h)) (orderInfoOutcome_spec _ _ _ _).1
  case emit => exact .inr (.inr rfl)
  -- no other point returns `Ok(())`
  case begin | loopHead | statusLoop | checkFinishedInLoop | afterLoop =>
    dsimp only [workStep] at h
    split at h <;> cases h
  all_goals cases c <;> dsimp only [workStep] at h <;> (repeat' split at h) <;> cases h

/-- Only the end of the work calls `add_event_on_order_change`, once, and it leaves the
work. -/
theorem workStep_addEvent (h : workStep allowed checkOrderFills cancelled o w c = some (f, reqs)) :
    reqs.countP Request.isAddEvent = 0 ∨
      w = .emit ∧ (∀ w', f ≠ .next w') ∧ reqs.countP Request.isAddEvent = 1 := by
  cases w
  case emit =>
    dsimp only [workStep] at h
    split at h
    · cases c <;> dsimp only at h <;> cases h
      exact .inr ⟨rfl, fun _ => by split <;> exact Flow.noConfusion, rfl⟩
    · cases h
      exact .inl rfl
  case select =>
    cases c <;> dsimp only [workStep] at h <;> (repeat' split at h) <;> cases h <;>
      first | exact .inl rfl | exact .inl (orderCancelled_spec _).2
  case awaitOrderInfo =>
    cases c <;> dsimp only [workStep] at h <;> try cases h
    split at h
    · cases h
      exact .inl rfl
    · rw [show reqs = _ from (congrArg Prod.snd (Option.some.inj h)).symm]
      exact .inl (orderInfoOutcome_spec _ _ _ _).2.2
  -- every other point calls no event hook
  case begin | checkFinished | latch | loopHead | statusLoop | checkFinishedInLoop | afterLoop =>
    dsimp only [workStep] at h
    split at h <;> cases h <;> exact .inl rfl
  all_goals
    left
    cases c <;> dsimp only [workStep] at h <;> (repeat' split at h) <;> cases h <;> rfl

/-- Only a step of `check_order_cancellation_status`, or the `select!` with its cancel arm
enabled, reconciles. -/
theorem workStep_reconciliation
    (h : workStep allowed checkOrderFills cancelled o w c = some (f, reqs)) :
    (∀ r ∈ reqs, r.isReconciliation = false) ∨
      w.region = .retryLoop ∧ w ≠ .loopHead ∧ (w = .select → allowed ≠ .fallbackOnly) := by
  cases w
  case loopHead =>
    left
    dsimp only [workStep] at h
    split at h <;> cases h <;> decide
  case select =>
    cases c
    case cancelOrder =>
      dsimp only [workStep] at h
      split at h
      · cases h
      · exact .inr ⟨rfl, WorkPc.noConfusion, fun _ => ‹_›⟩
    case timeout =>
      dsimp only [workStep] at h
      cases h
      exact .inl fun _ h => absurd h (List.not_mem_nil _)
    all_goals dsimp only [workStep] at h; cases h
  case statusLoop | awaitOrderInfo | awaitStatusFills | pendingSleep | awaitFinish |
      checkFinishedInLoop =>
    exact .inr ⟨rfl, WorkPc.noConfusion, WorkPc.noConfusion⟩
  -- before and after the loop the work makes no reconciliation request
  case begin | checkFinished | latch | afterLoop =>
    dsimp only [workStep] at h
    split at h <;> cases h <;> exact .inl (by decide)
  all_goals
    left
    cases c <;> dsimp only [workStep] at h <;> (repeat' split at h) <;> cases h <;> decide

end Steps

end Cancel
end Mmb
