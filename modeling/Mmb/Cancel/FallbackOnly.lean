import Mmb.Cancel.Outcome

/-!
# `FallbackOnly`: no leader gets past the `select!`

With `allowed_cancel_event_source_type = FallbackOnly` the `select!` of the
retry loop disables its `start_cancel_order` arm, and the fallback future the
code means to race in its place is still a `TODO`.  What is left is the 10 s
timer, whose arm bails because the setting is not `All`; the `select!` does
not watch the token.

`fallbackOnly_stops_at_select` says what this does over every run: inside
the retry loop a leader is only ever at the loop head or in the `select!`,
and every step out of the `select!` returns the timeout error; a leader gets
past the loop only with its token cancelled; and the coordinator never
awaits `create_order_finish_future`, never polls `get_order_info` and never
calls a `handle_cancel_order_*` hook.
-/

namespace Mmb
namespace Cancel

section Steps

variable {allowed : AllowedEventSourceType} {checkOrderFills cancelled : Bool} {o : Order}
  {w w' : WorkPc} {c : Choice} {f : Flow} {reqs : List Request}

/-- The loop head goes into the `select!`, or out of the loop. -/
theorem workStep_loopHead
    (h : workStep allowed checkOrderFills cancelled o .loopHead c = some (.next w', reqs)) :
    w' = .select ∨ w' = .afterLoop := by
  dsimp only [workStep] at h
  split at h <;> simp_all

/-- Under `FallbackOnly` the `select!` ends only on the timer, with the timeout error. -/
theorem workStep_select_fallbackOnly
    (h : workStep .fallbackOnly checkOrderFills cancelled o .select c = some (f, reqs)) :
    f = .err .timeout := by
  cases c <;> dsimp only [workStep] at h <;> simp at h
  exact h.1.symm

/-- Under `FallbackOnly` a leader's work, inside the retry loop only at its head or in the
`select!` and past it only with its token cancelled, stays so. -/
theorem workStep_fallbackOnly
    (h : workStep .fallbackOnly checkOrderFills cancelled o w c = some (.next w', reqs))
    (hloop : w.region = .retryLoop → w = .loopHead ∨ w = .select)
    (hafter : w.region = .afterLoop → cancelled = true) :
    (w'.region = .retryLoop → w' = .loopHead ∨ w' = .select) ∧
      (w'.region = .afterLoop → cancelled = true) := by
  rcases workStep_next h with ⟨hr, -⟩ | ⟨-, -, rfl⟩ | ⟨-, hc, rfl⟩ | ⟨rfl, -, -⟩
  · -- the move stays in its part of the work
    rw [hr]
    refine ⟨fun hl => ?_, hafter⟩
    rcases hloop hl with rfl | rfl
    · rcases workStep_loopHead h with rfl | rfl
      · exact .inr rfl
      · cases hr
    · cases workStep_select_fallbackOnly h
  · exact ⟨fun _ => .inl rfl, nofun⟩
  · exact ⟨nofun, fun _ => hc⟩
  · exact absurd (hloop rfl) (by simp)

end Steps

/-- What holds in every reachable state under `FallbackOnly`: inside the retry loop a leader
is at its head or in the `select!`, past the loop it has its token cancelled, and no request
reconciles the order with the venue. -/
structure FallbackOnlyInv (s : Sys) : Prop where
  calls : ∀ call ∈ s.calls, ∀ ch w, call.pc = .working ch w →
    (w.region = .retryLoop → w = .loopHead ∨ w = .select) ∧
      (w.region = .afterLoop → call.cancelled = true)
  requests : ∀ r ∈ s.requests, r.2.isReconciliation = false

section Inv

variable {s s' : Sys}

theorem FallbackOnlyInv.init (o : Order) : FallbackOnlyInv (Sys.init o) :=
  ⟨fun _ h => absurd h (List.not_mem_nil _), fun _ h => absurd h (List.not_mem_nil _)⟩

theorem FallbackOnlyInv.setPc (hi : FallbackOnlyInv s) (i : Nat) (call : Call) (pc : Pc)
    (hpc : ∀ ch w, pc ≠ .working ch w) {s' : Sys}
    (hc : s'.calls = s.calls.set i { call with pc := pc }) (hr : s'.requests = s.requests) :
    FallbackOnlyInv s' :=
  ⟨hc ▸ forall_mem_set hi.calls i fun ch w h => absurd h (hpc ch w), hr ▸ hi.requests⟩

/-- A step of a leader's work. -/
theorem FallbackOnlyInv.work (hi : FallbackOnlyInv s) {i : Nat} {call : Call}
    (h : s.calls[i]? = some call) {ch : Nat} {w : WorkPc} (hpc : call.pc = .working ch w)
    {c : Choice} {f : Flow} {reqs : List Request}
    (hw : workStep .fallbackOnly call.checkOrderFills call.cancelled s.order w c = some (f, reqs)) :
    FallbackOnlyInv (s.afterWork i call ch w f reqs) := by
  have hcall := hi.calls call (List.getElem?_mem h) ch w hpc
  refine ⟨?_, ?_⟩
  · rw [Sys.afterWork_calls]
    refine forall_mem_set hi.calls i ?_
    cases f with
    | next w' =>
        rintro _ _ ⟨⟩
        exact workStep_fallbackOnly hw hcall.1 hcall.2
    | ok | err _ => exact fun _ _ => Pc.noConfusion
  · rw [Sys.afterWork_requests]
    intro r hr
    rcases List.mem_append.mp hr with hr | hr
    · exact hi.requests r hr
    · obtain ⟨q, hq, rfl⟩ := List.mem_map.mp hr
      rcases workStep_reconciliation hw with hno | ⟨hreg, hne, hsel⟩
      · exact hno q hq
      · -- reconciling needs the `select!`'s cancel arm
        rcases hcall.1 hreg with rfl | rfl
        · exact absurd rfl hne
        · exact absurd rfl (hsel rfl)

theorem FallbackOnlyInv.of_runCall (hi : FallbackOnlyInv s) {i : Nat} {call : Call}
    (h : s.calls[i]? = some call) {c : Choice} (hs : runCall .fallbackOnly s i call c = some s') :
    FallbackOnlyInv s' := by
  rcases runCall_cases hs with ⟨-, -, ch, -, rfl⟩ | ⟨-, -, -, rfl⟩ | ⟨ch, -, rfl⟩ |
      ⟨ch, pos, -, -, rfl⟩ | ⟨ch, w, f, reqs, hpc, hw, rfl⟩ | ⟨ch, -, rfl⟩ | ⟨ch, r, -, -, rfl⟩
  · exact hi.setPc i call (.occupied ch) (fun _ _ => Pc.noConfusion) rfl rfl
  · -- the new leader is at `begin`, before the loop
    exact ⟨forall_mem_set hi.calls i fun _ _ h => by cases h; exact ⟨nofun, nofun⟩, hi.requests⟩
  · exact hi.setPc i call (.waiting ch (s.channels ch).sent) (fun _ _ => Pc.noConfusion) rfl rfl
  · exact hi.setPc i call (.done .ok) (fun _ _ => Pc.noConfusion) rfl rfl
  · exact hi.work h hpc hw
  · exact hi.setPc i call (.guard ch .ok) (fun _ _ => Pc.noConfusion) rfl rfl
  · exact hi.setPc i call (.done r) (fun _ _ => Pc.noConfusion)
      (by rw [Sys.setPc_calls, Sys.remove_calls]) (Sys.remove_requests s)

theorem FallbackOnlyInv.of_step (hi : FallbackOnlyInv s) {a : Act}
    (hs : step .fallbackOnly s a = some s') : FallbackOnlyInv s' := by
  cases a with
  | call checkOrderFills =>
      cases hs
      refine ⟨fun c hc => ?_, hi.requests⟩
      rcases List.mem_append.mp hc with hc | hc
      · exact hi.calls c hc
      · rw [List.mem_singleton.mp hc]; intro _ _ h; cases h
  | run i c =>
      obtain ⟨call, h, hs⟩ := Option.bind_eq_some.mp hs
      exact hi.of_runCall h hs
  | cancel i =>
      obtain ⟨call, h, rfl⟩ := Option.map_eq_some'.mp hs
      refine ⟨forall_mem_set hi.calls i fun ch w hpc => ?_, hi.requests⟩
      exact ⟨(hi.calls call (List.getElem?_mem h) ch w hpc).1, fun _ => rfl⟩
  | drop i =>
      obtain ⟨call, h, hs⟩ := Option.bind_eq_some.mp hs
      rcases dropCall_cases hs with ⟨_, _, -, rfl⟩ | ⟨ch, _, -, -, rfl⟩
      · exact hi.setPc i call (.done .dropped) (fun _ _ => Pc.noConfusion) rfl rfl
      · exact hi.setPc i call (.guard ch .dropped) (fun _ _ => Pc.noConfusion) rfl rfl
  | updateOrder o =>
      simp only [step] at hs
      split at hs
      · cases hs; exact ⟨hi.calls, hi.requests⟩
      · cases hs

theorem Reachable.fallbackOnlyInv (hs : Reachable .fallbackOnly s) : FallbackOnlyInv s := by
  induction hs with
  | init o => exact FallbackOnlyInv.init o
  | step a _ h ih => exact ih.of_step h

end Inv

/-- Under `FallbackOnly`, in every reachable state: inside the retry loop a leader is only at
its head or in the `select!`, and past the loop only with its token cancelled; no request
reconciles the order with the venue; and every step out of the `select!` takes the leader to
its guard with the timeout error. -/
theorem fallbackOnly_stops_at_select :
    ∀ s, Reachable .fallbackOnly s →
      (∀ call ∈ s.calls, ∀ ch w, call.pc = .working ch w →
        (w.region = .retryLoop → w = .loopHead ∨ w = .select) ∧
          (w.region = .afterLoop → call.cancelled = true)) ∧
      (∀ r ∈ s.requests, r.2.isReconciliation = false) ∧
      ∀ i c s' call ch, s.calls[i]? = some call → call.pc = .working ch .select →
        step .fallbackOnly s (.run i c) = some s' →
        s'.calls[i]? = some { call with pc := .guard ch (.err .timeout) } := by
  intro s hs
  have hi := hs.fallbackOnlyInv
  refine ⟨hi.calls, hi.requests, fun i c s' call ch h hpc hstep => ?_⟩
  obtain ⟨call', h', hrun⟩ := Option.bind_eq_some.mp hstep
  rw [h, Option.some.injEq] at h'
  subst h'
  simp only [runCall, hpc, Option.map_eq_some'] at hrun
  obtain ⟨⟨f, reqs⟩, hw, rfl⟩ := hrun
  rw [Sys.afterWork_calls, workStep_select_fallbackOnly hw]
  exact List.getElem?_set_self (List.getElem?_eq_some_iff.mp h).1

/-- Under `FallbackOnly`, call 0 on `createdOrder` runs from `entry()` into the `select!`. -/
def toSelectSchedule : List Act :=
  [.call false, .run 0 .go, .run 0 .go, .run 0 .go, .run 0 .go, .run 0 .go]

def selectState : Sys :=
  (run .fallbackOnly (Sys.init createdOrder) toSelectSchedule).getD (Sys.init createdOrder)

/-- `fallbackOnly_stops_at_select` at the state where the only call waits in the `select!`. -/
theorem selectState_stops_at_select :
    Reachable .fallbackOnly selectState ∧ selectState.calls.map (·.pc) = [.working 0 .select] ∧
      ((∀ call ∈ selectState.calls, ∀ ch w, call.pc = .working ch w →
        (w.region = .retryLoop → w = .loopHead ∨ w = .select) ∧
          (w.region = .afterLoop → call.cancelled = true)) ∧
      (∀ r ∈ selectState.requests, r.2.isReconciliation = false) ∧
      ∀ i c s' call ch, selectState.calls[i]? = some call → call.pc = .working ch .select →
        step .fallbackOnly selectState (.run i c) = some s' →
        s'.calls[i]? = some { call with pc := .guard ch (.err .timeout) }) :=
  have hs : Reachable .fallbackOnly selectState := (Reachable.init createdOrder).run
    (show run .fallbackOnly _ toSelectSchedule = some selectState from rfl)
  ⟨hs, by decide, fallbackOnly_stops_at_select selectState hs⟩

end Cancel
end Mmb
