import Mmb.Statistic.EventHandler

/-!
# The order as the cancel coordinator sees it

This module models the part of an order that
`exchanges/general/order/wait_cancel.rs` reads and writes: its status, its
exchange order id, its filled amount and the reconciliation state in
`internal_props`, together with the exchange types the coordinator matches
on.

It also models the two decisions the coordinator takes from an order
snapshot alone:

* `hasMissedFill` (`has_missed_fill`): the venue reports more filled after the
  cancellation than the order knows of; a smaller report is logged and
  ignored (`hasMissedFill_iff`);
* `needsFillCheck`: whether `wait_cancel_order_work` runs `check_order_fills`
  after its loop.  The source writes this condition without parentheses
  around its last two operands, so Rust's precedence (`&&` before `||`)
  decides.  `needsFillCheck_iff` spells out what it computes, and
  `needsFillCheck_ne_spec` shows that it differs from the grouping the
  specification chose (`needsFillCheckSpec`).
-/

namespace Mmb
namespace Cancel

open Statistic (Amount)

abbrev ExchangeOrderId := String

inductive OrderStatus
  | creating
  | created
  | canceling
  | canceled
  | completed
  | failed
  deriving DecidableEq, Repr

/-- Modelled from the spec: `OrderRef::is_finished`, true exactly for the terminal
statuses `Canceled`, `Completed` and `Failed`. -/
def OrderStatus.isFinished : OrderStatus → Bool
  | .canceled | .completed | .failed => true
  | _ => false

/-- `EventSourceType`: the channel that confirmed a cancellation. -/
inductive EventSourceType
  | webSocket
  | rest
  | restFallback
  deriving DecidableEq, Repr

/-- `ExchangeErrorType`, with the variants the coordinator tells apart; `other` stands for
every other one. -/
inductive ExchangeErrorType
  | parsingError
  | pendingError
  | orderCompleted
  | orderNotFound
  | unknown
  | other
  deriving DecidableEq, Repr

/-- `ExchangeError`.  The `pending_time` of a `PendingError` is left out: it only sets
how long a sleep lasts, and the model lets the sleep end at any time. -/
structure ExchangeError where
  errorType : ExchangeErrorType
  message : String
  code : Option Int
  deriving DecidableEq, Repr

/-- `AllowedEventSourceType`: which channels may confirm a cancellation on the venue. -/
inductive AllowedEventSourceType
  | all
  | fallbackOnly
  | nonFallback
  deriving DecidableEq, Repr

/-- The part of `internal_props` the coordinator reads or writes. -/
structure InternalProps where
  isCancelingFromWaitCancelOrder : Bool
  cancellationEventSourceType : Option EventSourceType
  lastCancellationError : Option ExchangeErrorType
  filledAmountAfterCancellation : Option Amount
  canceledNotFromWaitCancelOrder : Bool
  deriving DecidableEq, Repr

/-- The shared order record behind an `OrderRef`, as far as the coordinator uses it. -/
structure Order where
  status : OrderStatus
  exchangeOrderId : Option ExchangeOrderId
  filledAmount : Amount
  internalProps : InternalProps
  deriving DecidableEq, Repr

def Order.isFinished (o : Order) : Bool :=
  o.status.isFinished

/-- The `fn_mut` closure of `wait_cancel_order_work`: set the latch. -/
def Order.setCanceling (o : Order) : Order :=
  { o with internalProps := { o.internalProps with isCancelingFromWaitCancelOrder := true } }

@[simp] theorem Order.setCanceling_status (o : Order) : o.setCanceling.status = o.status := rfl

@[simp] theorem Order.setCanceling_isCancelingFromWaitCancelOrder (o : Order) :
    o.setCanceling.internalProps.isCancelingFromWaitCancelOrder = true := rfl

@[simp] theorem Order.setCanceling_isFinished (o : Order) :
    o.setCanceling.isFinished = o.isFinished := rfl

def hasMissedFill (o : Order) : Bool :=
  match o.internalProps.filledAmountAfterCancellation with
  | some filledAmountAfterCancellation =>
      if filledAmountAfterCancellation < o.filledAmount then false
      else decide (filledAmountAfterCancellation > o.filledAmount)
  | none => false

/-- A fill is missed exactly when the amount reported after cancellation is larger. -/
theorem hasMissedFill_iff (o : Order) :
    hasMissedFill o = true ↔
      ∃ a, o.internalProps.filledAmountAfterCancellation = some a ∧ o.filledAmount < a := by
  unfold hasMissedFill
  split
  · rename_i a ha
    rw [ha]
    split
    · simp only [Bool.false_eq_true, Option.some.injEq, exists_eq_left', false_iff, not_lt]
      exact le_of_lt ‹_›
    · simp
  · simp_all

/-- The condition of `wait_cancel_order_work` for `check_order_fills` after the loop, as
the source writes it; Lean's `||` and `&&` have Rust's relative precedence. -/
def needsFillCheck (checkOrderFills : Bool) (o : Order) : Bool :=
  let orderCancellationEventSourceType := o.internalProps.cancellationEventSourceType
  let orderLastCancellationError := o.internalProps.lastCancellationError
  checkOrderFills
    || hasMissedFill o
    || orderCancellationEventSourceType == some .restFallback
    || (orderCancellationEventSourceType == some .webSocket
    || orderCancellationEventSourceType == some .rest
    && (orderLastCancellationError == some .orderNotFound
    || orderLastCancellationError == some .orderCompleted))
    && o.status != .completed

/-- The same condition with the grouping the specification fixes (its step 6): any of
the four triggers, and the order not completed. -/
def needsFillCheckSpec (checkOrderFills : Bool) (o : Order) : Bool :=
  (checkOrderFills
    || hasMissedFill o
    || o.internalProps.cancellationEventSourceType == some .restFallback
    || ((o.internalProps.cancellationEventSourceType == some .webSocket
        || o.internalProps.cancellationEventSourceType == some .rest)
      && (o.internalProps.lastCancellationError == some .orderNotFound
        || o.internalProps.lastCancellationError == some .orderCompleted)))
  && o.status != .completed

/-- What the source's condition computes: the first three triggers alone suffice, even
for a completed order; a WebSocket confirmation suffices for an order not completed;
a REST confirmation needs one of the two errors as well. -/
theorem needsFillCheck_iff (checkOrderFills : Bool) (o : Order) :
    needsFillCheck checkOrderFills o = true ↔
      checkOrderFills = true ∨ hasMissedFill o = true ∨
        o.internalProps.cancellationEventSourceType = some .restFallback ∨
        (o.status ≠ .completed ∧
          (o.internalProps.cancellationEventSourceType = some .webSocket ∨
            (o.internalProps.cancellationEventSourceType = some .rest ∧
              (o.internalProps.lastCancellationError = some .orderNotFound ∨
                o.internalProps.lastCancellationError = some .orderCompleted)))) := by
  simp only [needsFillCheck, Bool.or_eq_true, Bool.and_eq_true, beq_iff_eq, bne_iff_ne, ne_eq,
    or_assoc, @and_comm _ (¬o.status = .completed)]

theorem needsFillCheckSpec_iff (checkOrderFills : Bool) (o : Order) :
    needsFillCheckSpec checkOrderFills o = true ↔
      (checkOrderFills = true ∨ hasMissedFill o = true ∨
        o.internalProps.cancellationEventSourceType = some .restFallback ∨
        ((o.internalProps.cancellationEventSourceType = some .webSocket ∨
            o.internalProps.cancellationEventSourceType = some .rest) ∧
          (o.internalProps.lastCancellationError = some .orderNotFound ∨
            o.internalProps.lastCancellationError = some .orderCompleted))) ∧
      o.status ≠ .completed := by
  simp only [needsFillCheckSpec, Bool.or_eq_true, Bool.and_eq_true, beq_iff_eq, bne_iff_ne, ne_eq,
    or_assoc]

/-- Where the two groupings part: the source also checks a completed order that has one of
the first three triggers, and an order confirmed over WebSocket without either error. -/
theorem needsFillCheck_ne_spec (checkOrderFills : Bool) (o : Order) :
    needsFillCheck checkOrderFills o ≠ needsFillCheckSpec checkOrderFills o ↔
      (o.status = .completed ∧ (checkOrderFills = true ∨ hasMissedFill o = true ∨
          o.internalProps.cancellationEventSourceType = some .restFallback)) ∨
      (checkOrderFills = false ∧ hasMissedFill o = false ∧ o.status ≠ .completed ∧
        o.internalProps.cancellationEventSourceType = some .webSocket ∧
        o.internalProps.lastCancellationError ≠ some .orderNotFound ∧
        o.internalProps.lastCancellationError ≠ some .orderCompleted) := by
  rw [Ne, Bool.eq_iff_iff, needsFillCheck_iff, needsFillCheckSpec_iff]
  generalize hasMissedFill o = missed
  rcases o with ⟨status, _, _, ⟨_, source, _, _, _⟩⟩
  cases checkOrderFills <;> cases missed <;> rcases source with _ | ⟨_ | _ | _⟩ <;>
    simp [and_comm]

end Cancel
end Mmb
