import Mmb.Cancel.SingleFlight

/-!
# What `Ok(())` from `wait_cancel_order` means

A call returns `Ok(())` as a leader when its work finds the order finished,
finds the latch `is_canceling_from_wait_cancel_order` already set, or gets to
its end; and as a follower when its `select!` ends on `rx.recv()` or on its
token.  The latch is never cleared: a call that passed it and then failed,
was dropped or stopped on its token leaves it set, and every later call
returns `Ok(())` at the latch while the order is still open.

`waitCancelOrder_latch_left_set` runs such a schedule: under `NonFallback`
the first call's 10 s timer fires and it fails, then a second call returns
`Ok(())` on the open order, with no token cancelled.

`workOk_reason` says exactly when a leader's work returns `Ok(())`, in every
reachable state: on a finished order, on its own cancelled token (the retry
loop ends only so), or at the `fn_mut` that finds the latch already set.  The
last case is the second entrant the latch is there for, and also every call
after a leader that left the latch set.
-/

namespace Mmb
namespace Cancel

/-- An open order whose creation is confirmed. -/
def createdOrder : Order := ⟨.created, none, 0, ⟨false, none, none, none, false⟩⟩

/-- Under `NonFallback`, call 0 passes the latch, starts a cancel request and fails when the
timer fires first; then call 1 runs alone. -/
def latchLeftSetSchedule : List Act :=
  [.call false, .run 0 .go, .run 0 .go, .run 0 .go, .run 0 .go, .run 0 .go, .run 0 .timeout,
    .run 0 .go,
    .call false, .run 1 .go, .run 1 .go, .run 1 .go, .run 1 .go, .run 1 .go, .run 1 .go]

/-- A later call returns `Ok(())` on an open order, no token cancelled, because an earlier
call that failed left the latch set. -/
theorem waitCancelOrder_latch_left_set :
    ∃ s, Reachable .nonFallback s ∧ s.order.isFinished = false ∧
      (∀ call ∈ s.calls, call.cancelled = false) ∧
      s.calls.map (·.pc) = [.done (.err .timeout), .done .ok] :=
  ⟨_, (Reachable.init createdOrder).run
      (show run .nonFallback _ latchLeftSetSchedule = some _ from rfl), by decide, by decide,
    by decide⟩

/-- Why a leader's work returns `Ok(())`: it finds the order finished, its retry loop ended on
a finished order or its own cancelled token, or its `fn_mut` finds the latch already set. -/
theorem workOk_reason (allowed : AllowedEventSourceType) :
    ∀ s, Reachable allowed s → ∀ (i : Nat) (call : Call) (ch : Nat) (w : WorkPc) (c : Choice)
      (reqs : List Request), s.calls[i]? = some call → call.pc = .working ch w →
      workStep allowed call.checkOrderFills call.cancelled s.order w c = some (.ok, reqs) →
      s.order.isFinished = true ∨ call.cancelled = true ∨
        w = .latch ∧ s.order.internalProps.isCancelingFromWaitCancelOrder = true := by
  intro s hs i call ch w c reqs hcall hpc hw
  rcases workStep_ok hw with ⟨-, hf⟩ | hlatch | rfl
  · exact .inl hf
  · exact .inr (.inr hlatch)
  · exact (hs.inv.afterLoop call (List.getElem?_mem hcall) ch .emit hpc rfl).imp_right .inl

/-- `latchLeftSetSchedule` until call 1 reaches its `fn_mut`, the latch left set by call 0. -/
def secondEntrantState : Sys :=
  (run .nonFallback (Sys.init createdOrder) (latchLeftSetSchedule.take 12)).getD
    (Sys.init createdOrder)

theorem secondEntrant_workOk_reason :
    secondEntrantState.calls[1]? = some ⟨.working 1 .latch, false, false⟩ ∧
      workStep .nonFallback false false secondEntrantState.order .latch .go = some (.ok, []) ∧
      secondEntrantState.order.isFinished = false ∧
      (secondEntrantState.order.isFinished = true ∨ false = true ∨
        WorkPc.latch = .latch ∧
          secondEntrantState.order.internalProps.isCancelingFromWaitCancelOrder = true) :=
  have hs : Reachable .nonFallback secondEntrantState := (Reachable.init createdOrder).run
    (show run .nonFallback _ (latchLeftSetSchedule.take 12) = some secondEntrantState from rfl)
  ⟨rfl, rfl, rfl, workOk_reason .nonFallback secondEntrantState hs 1 _ 1 .latch .go [] rfl rfl rfl⟩

end Cancel
end Mmb
